import KitTemplate.Command.Job

/-! A run of the program from its command line: the arguments are read, the two directories are
looked at, and the stages of the job follow one another. The output directory is made before either
is looked at. -/

namespace KitTemplate.Command

/-- What a run leaves behind. -/
structure Outcome where
  /-- How the run ended: with a status, or in a fault. -/
  ending : Except Fault Nat
  output : Text := []
  errors : Text := []
  workspace : Workspace

open Stage

def usage : Text :=
  ("usage: kitbuild [--inputFile FILE] [--site] [--searchFolder FOLDER] ".toList ++
    "[--postsDir FOLDER] [-v] [-h] [-V] inputdir outputdir\n".toList)

def versionLine : Text := "kitbuild 1.0.0\n".toList

def requireDirectory (path : Path) : Stage Unit := do
  match (← get).workspace.tree.isDirectory path with
  | .error denial => throw (.fault (.denied denial))
  | .ok true => return
  | .ok false => quit ("Not a directory: ".toList ++ path.toText)

/-- Both directories at hand, the second one made if it does not exist. -/
def prepareDirectories (input output : Path) : Stage Unit := do
  match (← get).workspace.tree.inspect output with
  | .error denial => throw (.fault (.denied denial))
  | .ok (some _) => requireDirectory output
  | .ok none =>
    let (tree, denial) := (← get).workspace.tree.makeDirectories output false
    modify fun console => { console with workspace := { console.workspace with tree } }
    if let some denial := denial then throw (.fault (.denied denial))
    requireDirectory output
  requireDirectory input

/-- The job that a command line asks for, which needs both directories. -/
def Arguments.job? (arguments : Arguments) : Option Job :=
  match arguments.directories with
  | [some input, some output] => some {
      inputDirectory := .ofText input
      outputDirectory := .ofText output
      verbosity := arguments.verbosity
      inputFile := arguments.inputFile
      site := arguments.site
      searchFolder := arguments.searchFolders
      postsDirectory := arguments.postsDirectory }
  | _ => none

/-- The run of a job in a tree. -/
def perform (settings : Settings) (tree : FileTree) (job : Job) : Outcome :=
  let journal : Journal := { verbosity := job.verbosity, keepsAll := settings.debug }
  let work : Stage Job := do
    prepareDirectories job.inputDirectory job.outputDirectory
    runJob settings job
  match work { workspace := { tree, journal } } with
  | .ok _ console =>
    { ending := .ok 0, errors := console.errors, workspace := console.workspace }
  | .error (.exit status) console =>
    { ending := .ok status, errors := console.errors, workspace := console.workspace }
  | .error (.fault fault) console =>
    { ending := .error fault, errors := console.errors, workspace := console.workspace }

/-- The run that a command line asks for. -/
def run (settings : Settings) (tree : FileTree) (words : List Text) : Outcome :=
  match Arguments.parse words with
  | .ok arguments =>
    match arguments.job? with
    | some job => perform settings tree job
    | none => { ending := .error .pathMissing, workspace := { tree } }
  | .error .help => { ending := .ok 0, output := usage, workspace := { tree } }
  | .error .version => { ending := .ok 0, output := versionLine, workspace := { tree } }
  | .error (.misuse message) =>
    { ending := .ok 2, workspace := { tree }
      errors := usage ++ "kitbuild: error: ".toList ++ message ++ ['\n'] }

end KitTemplate.Command
