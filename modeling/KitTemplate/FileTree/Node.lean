import KitTemplate.Instant
import KitTemplate.Table
import KitTemplate.Text.Basic

/-! Files and directories as they stand inside one another. A directory holds nodes by their names,
a file holds bytes, so what stands anywhere stands in a directory. A location is the chain of names
that leads to a node, and the way to it may be cut anywhere (`at?_append`). -/

namespace KitTemplate

abbrev Bytes := List UInt8

abbrev Location := List Text

/-- What stands at a location, without what stands below it. -/
inductive Entry where
  | directory
  /-- A file with its time of change. -/
  | file (content : Bytes) (changed : Instant)
deriving DecidableEq

namespace FileTree

inductive Node where
  | file (content : Bytes) (changed : Instant)
  | directory (children : List (Text × Node))
deriving Inhabited

/-- The nodes of a directory by their names. -/
abbrev Children := List (Text × Node)

namespace Node

def entry : Node → Entry
  | directory _ => .directory
  | file content changed => .file content changed

/-- The node that stands for an entry in place of another one: a directory that is there stays, and
a new one is empty. -/
def replaced (entry : Entry) : Option Node → Node
  | some (directory children) =>
    match entry with
    | .directory => directory children
    | .file content changed => file content changed
  | _ =>
    match entry with
    | .directory => directory []
    | .file content changed => file content changed

theorem entry_replaced (entry : Entry) (old : Option Node) :
    (replaced entry old).entry = entry := by
  cases entry <;> cases old with
  | none => rfl
  | some old => cases old <;> rfl

def children : Node → Children
  | directory children => children
  | file .. => []

/-- The node at a location that starts from a node. -/
def at? (node : Node) : Location → Option Node
  | [] => some node
  | name :: rest => do (← node.children.lookup name).at? rest

theorem at?_append (node : Node) (location rest : Location) :
    node.at? (location ++ rest) = (node.at? location).bind (·.at? rest) := by
  induction location generalizing node with
  | nil => rfl
  | cons name location ih =>
    simp only [List.cons_append, at?]
    cases node.children.lookup name with
    | none => rfl
    | some child => exact ih child

mutual

/-- What stands at a location and below it. -/
def entriesAt (location : Location) : Node → List (Location × Entry)
  | file content changed => [(location, .file content changed)]
  | directory children => (location, .directory) :: entriesBelow location children

/-- What stands below a location, where directories come before what stands in them. -/
def entriesBelow (location : Location) : List (Text × Node) → List (Location × Entry)
  | [] => []
  | child :: rest => entriesOf location child ++ entriesBelow location rest

def entriesOf (location : Location) : Text × Node → List (Location × Entry)
  | (name, node) => entriesAt (location ++ [name]) node

end

end Node

/-- The nodes of a directory with the one at a location below it changed: another one, a first one,
or none. Nothing changes if the location is not reached. -/
def alter (change : Option Node → Option Node) : Location → Children → Children
  | [], children => children
  | [name], children =>
    match change (children.lookup name) with
    | some node => Table.put name node children
    | none => children.filter (·.1 ≠ name)
  | name :: rest, children =>
    match children.lookup name with
    | some (.directory inner) => Table.put name (.directory (alter change rest inner)) children
    | _ => children

end FileTree

end KitTemplate
