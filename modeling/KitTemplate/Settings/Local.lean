import KitTemplate.Settings.Load

/-! Settings in a file tree, where the files of variables and the files named for variables are
looked up. What is no file there is passed over; a file that is no text in its character set is
not. -/

namespace KitTemplate.Settings

/-- The character set that a name stands for where files of variables are read. -/
def charsetOf : Datum → Except LoadError Charset
  | .text name =>
    match Charset.named? name with
    | some charset => .ok charset
    | none => .error (.unknownEncoding name)
  | other => .error (.misuse (.encodingKind other.kindName))

/-- The texts of the files of variables that are in a tree. -/
def variableFiles (tree : FileTree) (lookup : Lookup) : Except LoadError (List Text) := do
  let found ← lookup.files.mapM fun name => do
    let path := Path.ofText name
    match ← (tree.inspect path).mapError .denied with
    | some (.file content _) =>
      let charset ← charsetOf lookup.encoding
      return [← (charset.decode content).mapError .undecodable]
    | _ => return []
  return found.flatten

/-- The files in a directory, by their names. -/
def filesIn (tree : FileTree) (directory : Location) : List NamedFile :=
  (tree.names directory).filterMap fun name =>
    match tree.entry? (directory ++ [name]) with
    | some (.file content _) => some (name, (Charset.utf8.decode content).toOption)
    | _ => none

/-- The files named for variables, those of a later directory first. What is there but no directory
is refused. -/
def namedFiles (tree : FileTree) (lookup : Lookup) : Except LoadError (List NamedFile) := do
  let found ← lookup.folders.mapM fun name => do
    let path := Path.ofText name
    match ← (tree.inspect path).mapError .denied, tree.locate path with
    | some .directory, .ok location => return filesIn tree location
    | some (.file ..), _ => throw .unreadable
    | _, _ => return []
  return found.reverse.flatten

/-- The settings that result from what is given, from the environment and from the files in a
tree. -/
def loadIn (tree : FileTree) (given : List (Text × Datum)) (environment : List (Text × Text)) :
    Except LoadError Settings := do
  let lookup ← (Lookup.ofGiven given).mapError .misuse
  let files ← variableFiles tree lookup
  load given { environment, files, named := ← namedFiles tree lookup }

end KitTemplate.Settings
