import KitTemplate.Command.Run
import KitTemplate.FileTree.Difference
import KitTemplate.Settings.Local

/-! The program. It takes settings from the environment, reads the working directory and every
directory that the command line or the settings name into a file tree, performs the run on that
tree, and carries out on the disk what the run has changed. Its clock shows UTC, which lists posts
as any other zone does unless the clock there was set back between two of them. -/

namespace KitTemplate.Program

/-- The value of a variable of the environment for every setting that has one. -/
def environment : IO (List (Text × Text)) :=
  Settings.Field.all.filterMapM fun field => do
    let name := "KITBUILD_".toList ++ field.name.map Char.toUpper
    return (← IO.getEnv (String.ofList name)).map fun value => (name, value.toList)

/-- The tree in which settings are looked up: the working directory with its file of variables, if
there is one. -/
def settingsTree : IO FileTree := do
  let name := ".env"
  let workingDirectory : Path := ⟨.root, []⟩
  if ← ((← IO.currentDir) / name).pathExists then
    let content ← IO.FS.readBinFile name
    return .ofEntries [([name.toList], .file content.toList ⟨0⟩)] workingDirectory
  else
    return .ofEntries [] workingDirectory

def locationOf (name : String) : Location := (Path.ofText name.toList).parts

/-- What stands at a place on the disk and below it. -/
partial def entriesBelow (name : String) : IO (List (Location × Entry)) := do
  let place := (← IO.currentDir) / name
  if ← place.isDir then
    let children ← (← place.readDir).toList.mapM fun child => entriesBelow child.path.toString
    return (locationOf name, .directory) :: children.flatten
  else
    let changed := (← place.metadata).modified
    let content ← IO.FS.readBinFile place
    return [(locationOf name,
      .file content.toList ⟨changed.sec * 1000000000 + changed.nsec.toNat⟩)]

/-- The directories that lead to a location, as entries. -/
def leadingEntries (location : Location) : List (Location × Entry) :=
  (List.range location.length).tail.map fun length => (location.take length, .directory)

/-- The tree that a run works on. -/
def loadTree (settings : Settings) (arguments : Command.Arguments) : IO FileTree := do
  let workingDirectory := Path.ofText (← IO.currentDir).toString.toList
  let folders := (arguments.searchFolders.map (·.filterMap id)).getD settings.searchFolders
  let named := arguments.directories.filterMap id ++ folders ++ arguments.postsDirectory.toList
  let paths := workingDirectory ::
    named.map fun name => Path.absolute workingDirectory (.ofText name)
  let outermost := paths.eraseDups.filter fun path => !paths.any (·.isAbove path)
  let found ← outermost.filterM fun path => do
    ((← IO.currentDir) / String.ofList path.toText).pathExists
  let entries ← found.mapM fun path => do
    return leadingEntries path.parts ++ (← entriesBelow (String.ofList path.toText))
  return .ofEntries entries.flatten workingDirectory

/-- One change carried out on the disk. -/
def carryOut (step : FileTree.Step) : IO Unit := do
  let onDisk (location : Location) : String := String.ofList ('/' :: Text.join ['/'] location)
  match step with
  | .remove location =>
    let place := (← IO.currentDir) / onDisk location
    if ← place.isDir then IO.FS.removeDirAll place else IO.FS.removeFile place
  | .makeDirectory location => IO.FS.createDirAll (onDisk location)
  | .write location content => IO.FS.writeBinFile (onDisk location) ⟨content.toArray⟩

def levelName : Level → String
  | .info => "INFO "
  | .debug => "DEBUG"
  | .trace => "TRACE"

def printRecord (record : KitTemplate.Record) : IO Unit :=
  IO.eprintln (levelName record.level ++ " │ " ++ String.ofList record.tag.shown ++ " ║ " ++
    String.ofList record.message)

def perform (settings : Settings) (words : List Text) : IO UInt32 := do
  let tree ← match Command.Arguments.parse words with
    | .ok arguments => loadTree settings arguments
    | .error _ => pure (.ofEntries [] ⟨.root, []⟩)
  let outcome := Command.run settings tree words
  (tree.steps outcome.workspace.tree).forM carryOut
  outcome.workspace.journal.records.forM printRecord
  IO.print (String.ofList outcome.output)
  IO.eprint (String.ofList outcome.errors)
  match outcome.ending with
  | .ok status => return status.toUInt32
  | .error fault =>
    IO.eprintln (String.ofList fault.message)
    return 1

/-- What is printed where settings cannot be loaded. -/
def describe : Settings.LoadError → List Text
  | .unreadable => ["a list in the environment is not JSON".toList]
  | .nested problem => [problem.message]
  | .undecodable problem => [problem.message]
  | .unknownEncoding name => [(Fault.unknownEncoding name).message]
  | .denied denial => [denial.message]
  | .misuse problem => [problem.message]
  | .unfit problems => problems.map fun problem => problem.1 ++ " has an unfit value".toList

end KitTemplate.Program

def main (words : List String) : IO UInt32 := do
  let values ← KitTemplate.Program.environment
  match KitTemplate.Settings.loadIn (← KitTemplate.Program.settingsTree) [] values with
  | .ok settings => KitTemplate.Program.perform settings (words.map String.toList)
  | .error problem =>
    (KitTemplate.Program.describe problem).forM fun text =>
      IO.eprintln ("Settings error: " ++ String.ofList text)
    return 1
