import KitTemplate.FileTree.Basic

/-! Changes to a file tree: making directories, emptying one, and opening a file for writing. A
change that is refused half way keeps what it has done so far, so making directories and emptying
one answer with the tree also when they fail. -/

namespace KitTemplate.FileTree

/-- The tree with a new directory at a path whose parent exists. -/
def makeDirectory (tree : FileTree) (path : Path) : Except Refusal FileTree := do
  let location ← tree.locateNew path
  if tree.entry? location ≠ none then .error .alreadyThere else .ok (tree.put location .directory)

/-- A file opened for writing: it exists afterwards and is empty. -/
def truncate (tree : FileTree) (path : Path) : Except Refusal (FileTree × Location) := do
  let location ← tree.locateNew path
  match tree.entry? location with
  | some .directory => .error .isDirectory
  | _ => .ok (tree.put location (.file [] tree.clock), location)

/-- The outcome of making one directory. A refusal does not matter where `existing` directories are
welcome and the path names one. -/
def settle (tree : FileTree) (path : Path) (existing : Bool) :
    Except Refusal FileTree → FileTree × Option Denial
  | .ok made => (made, none)
  | .error refusal =>
    match existing, tree.locate path with
    | true, .ok location =>
      if tree.entry? location = some .directory then (tree, none) else (tree, some ⟨refusal, path⟩)
    | _, _ => (tree, some ⟨refusal, path⟩)

/-- A directory made after those of its `depth` nearest parents that are missing. -/
def makeDirectoriesFrom (tree : FileTree) (path : Path) (existing : Bool) :
    (depth : Nat) → FileTree × Option Denial
  | 0 => settle tree path existing (tree.makeDirectory path)
  | depth + 1 =>
    match tree.makeDirectory path with
    | .error .missing =>
      match makeDirectoriesFrom tree path.parent true depth with
      | (tree, none) => settle tree path existing (tree.makeDirectory path)
      | refused => refused
    | result => settle tree path existing result

/-- The tree with a directory at a path and at each of its parents, and the first refusal. One that
is there already is refused unless `existing` ones are welcome; for parents they always are. -/
def makeDirectories (tree : FileTree) (path : Path) (existing : Bool) : FileTree × Option Denial :=
  tree.makeDirectoriesFrom path existing path.parts.length

/-- Entries of the directory at a location removed one after another. Each is looked at by its path
first, which ends the work if the path is too long. Whatever stands in a directory goes with it and
is not looked at. -/
def removeEntries (tree : FileTree) (directory : Path) (location : Location) :
    List Text → FileTree × Option Denial
  | [] => (tree, none)
  | name :: rest =>
    match tree.inspect (directory.entry name) with
    | .error denial => (tree, some denial)
    | .ok _ => (tree.erase (location ++ [name])).removeEntries directory location rest

/-- A directory emptied, in the order in which it lists its entries, and the first refusal. -/
def emptyDirectory (tree : FileTree) (directory : Path) (location : Location) :
    FileTree × Option Denial :=
  tree.removeEntries directory location (tree.names location)

end KitTemplate.FileTree
