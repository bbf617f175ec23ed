import KitTemplate.FileTree.Basic

/-! What has to be done to a file tree so that it becomes another one: entries are removed first,
the inner ones before those that they stand in, then directories are made and files are written,
those nearest to the root first. -/

namespace KitTemplate.FileTree

inductive Step where
  | remove (location : Location)
  | makeDirectory (location : Location)
  | write (location : Location) (content : Bytes)
deriving DecidableEq

def isDirectoryEntry : Entry → Bool
  | .directory => true
  | .file .. => false

/-- Whether an entry has to make way before another one can stand at its location. -/
def makesWay (entry : Entry) : Option Entry → Bool
  | none => true
  | some other => isDirectoryEntry entry != isDirectoryEntry other

def removal? (after : FileTree) (entry : Location × Entry) : Option Step :=
  if makesWay entry.2 <| after.entry? entry.1 then some (.remove entry.1) else none

def addition? (before : FileTree) (entry : Location × Entry) : Option Step :=
  match entry.2, before.entry? entry.1 with
  | .directory, some .directory => none
  | .directory, _ => some (.makeDirectory entry.1)
  | .file content _, some (.file old _) =>
    if content = old then none else some (.write entry.1 content)
  | .file content _, _ => some (.write entry.1 content)

def byDepth (entries : List (Location × Entry)) : List (Location × Entry) :=
  entries.mergeSort fun entry other => entry.1.length ≤ other.1.length

/-- The steps that lead from one tree to another. -/
def steps (before after : FileTree) : List Step :=
  (byDepth before.entries).reverse.filterMap after.removal? ++
    (byDepth after.entries).filterMap before.addition?

end KitTemplate.FileTree
