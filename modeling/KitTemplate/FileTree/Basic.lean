import KitTemplate.FileTree.Node
import KitTemplate.Path.Basic

/-! File trees. A tree is what stands below its root, which is a directory itself. Paths are looked
up step by step: whatever is passed on the way has to be a directory, a double dot goes back to the
directory above, no name may exceed 255 bytes, and no path 4095. -/

namespace KitTemplate

/-- Why a path cannot be used. -/
inductive Refusal where
  | missing
  | alreadyThere
  | notDirectory
  | isDirectory
  | nameTooLong
deriving DecidableEq, Repr

namespace Refusal

def message : Refusal → Text
  | missing => "No such file or directory".toList
  | alreadyThere => "File exists".toList
  | notDirectory => "Not a directory".toList
  | isDirectory => "Is a directory".toList
  | nameTooLong => "File name too long".toList

/-- The number under which operating systems report the refusal. -/
def number : Refusal → Nat
  | missing => 2
  | alreadyThere => 17
  | notDirectory => 20
  | isDirectory => 21
  | nameTooLong => 36

end Refusal

/-- A refusal with the path that met it. -/
structure Denial where
  refusal : Refusal
  path : Path
deriving DecidableEq, Repr

def Denial.message (denial : Denial) : Text :=
  "[Errno ".toList ++ Text.ofNat denial.refusal.number ++ "] ".toList ++ denial.refusal.message ++
    ": ".toList ++ denial.path.toText.quoted

/-- What stands below the root, with the directory that relative paths start from, the time that a
file written now receives and the zone in which times are shown. -/
structure FileTree where
  children : FileTree.Children
  workingDirectory : Path
  clock : Instant
  zone : Zone
  isAbsolute : workingDirectory.IsAbsolute

namespace FileTree

def node? (tree : FileTree) (location : Location) : Option Node :=
  (Node.directory tree.children).at? location

def entry? (tree : FileTree) (location : Location) : Option Entry :=
  (tree.node? location).map Node.entry

/-- Everything below the root, by its location. -/
def entries (tree : FileTree) : List (Location × Entry) := Node.entriesBelow [] tree.children

def update (tree : FileTree) (change : Option Node → Option Node) (location : Location) :
    FileTree :=
  { tree with children := alter change location tree.children }

/-- The tree with an entry put at a location, in place of the one that stood there. -/
def put (tree : FileTree) (location : Location) (entry : Entry) : FileTree :=
  tree.update (fun old => some (.replaced entry old)) location

/-- The tree without the entry at a location and whatever stands below it. -/
def erase (tree : FileTree) (location : Location) : FileTree :=
  tree.update (fun _ => none) location

/-- A tree of some entries, where directories come before what stands in them. The working directory
is taken from the root, and times are shown in UTC. -/
def ofEntries (entries : List (Location × Entry)) (workingDirectory : Path) : FileTree :=
  entries.foldl (fun tree entry => tree.put entry.1 entry.2)
    { children := []
      workingDirectory := Path.absolute ⟨.root, []⟩ workingDirectory
      clock := ⟨0⟩
      zone := .utc
      isAbsolute := Path.isAbsolute_absolute Path.isAbsolute_root workingDirectory }

/-- The names that stand directly in a directory. -/
def names (tree : FileTree) (location : Location) : List Text :=
  (((tree.node? location).map Node.children).getD []).map (·.1)

/-- The number of bytes a name takes in UTF-8. -/
def nameSize (name : Text) : Nat := name.foldr (fun c size => c.utf8Size + size) 0

def longestName : Nat := 255

def longestPath : Nat := 4095

/-- The location reached from `location` by one name. -/
def stepInto (tree : FileTree) (location : Location) (name : Text) : Except Refusal Location :=
  if tree.entry? location ≠ some .directory then .error .notDirectory
  else if name = ['.'] then .ok location
  else if name = ['.', '.'] then .ok location.dropLast
  else if longestName < nameSize name then .error .nameTooLong
  else if tree.entry? (location ++ [name]) = none then .error .missing
  else .ok (location ++ [name])

def walk (tree : FileTree) (location : Location) : List Text → Except Refusal Location
  | [] => .ok location
  | name :: rest => do
    let next ← tree.stepInto location name
    tree.walk next rest

/-- Where the walk along a path starts. -/
def origin (tree : FileTree) (path : Path) : Location :=
  if path.anchor = .relative then tree.workingDirectory.parts else []

/-- The names that a path goes through. -/
def route (path : Path) : List Text :=
  (Text.join ['/'] path.parts).splitOn '/' |>.filter (· ≠ [])

/-- The location that a path leads to. -/
def locate (tree : FileTree) (path : Path) : Except Refusal Location :=
  if longestPath < nameSize path.toText then .error .nameTooLong
  else tree.walk (tree.origin path) (route path)

/-- The location of an existing or a new file at a path: all but its last name has to exist. A path
without names makes nothing new. -/
def locateNew (tree : FileTree) (path : Path) : Except Refusal Location :=
  if longestPath < nameSize path.toText then .error .nameTooLong
  else
    match (route path).getLast? with
    | none =>
      if tree.entry? (tree.origin path) = none then .error .missing else .ok (tree.origin path)
    | some name => do
      let directory ← tree.walk (tree.origin path) (route path).dropLast
      match tree.stepInto directory name with
      | .error .missing => .ok (directory ++ [name])
      | result => result

/-- What a path names, or nothing if the path leads nowhere. A name that is too long is no answer
but a refusal. -/
def inspect (tree : FileTree) (path : Path) : Except Denial (Option Entry) :=
  match tree.locate path with
  | .ok location => .ok <| tree.entry? location
  | .error .nameTooLong => .error ⟨.nameTooLong, path⟩
  | .error _ => .ok none

def isDirectory (tree : FileTree) (path : Path) : Except Denial Bool := do
  return (← tree.inspect path) = some .directory

def isFile (tree : FileTree) (path : Path) : Except Denial Bool := do
  match ← tree.inspect path with
  | some (.file ..) => return true
  | _ => return false

/-- The content of the file that a path names. -/
def read (tree : FileTree) (path : Path) : Except Refusal Bytes := do
  match tree.entry? (← tree.locate path) with
  | some (.file content _) => .ok content
  | some .directory => .error .isDirectory
  | none => .error .missing

end FileTree

end KitTemplate
