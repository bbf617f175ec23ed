import KitTemplate.Command.Options
import KitTemplate.Site.Build

/-! Jobs. A job is what one run of the program is to do and what it has found out so far; stages
hand it on, each filling in its own part. Checking the environment settles every path, compiling
makes a page or a site, and the report at the end says what came of it. A stage may print to the
error output and end the run with a status. -/

namespace KitTemplate.Command

structure Job where
  inputDirectory : Path
  outputDirectory : Path
  verbosity : Int := 1
  inputFile : Text := []
  site : Bool := false
  /-- The search folders and the posts directory as they were given, if they were. A search folder
  may have been given without a value. -/
  searchFolder : Option (List (Option Text)) := none
  postsDirectory : Option Text := none
  ready : Bool := false
  source : Path := ⟨.root, []⟩
  output : Path := ⟨.root, []⟩
  /-- The search folders and the posts directory in effect. -/
  folders : List Path := []
  posts : Path := ⟨.root, []⟩
  compilation : Option Compilation := none
  report : Option Report := none
deriving DecidableEq, Repr

structure Console where
  workspace : Workspace
  /-- What was printed to the error output. -/
  errors : Text := []

inductive Interruption where
  | exit (status : Nat)
  | fault (fault : Fault)
deriving DecidableEq, Repr

abbrev Stage := EStateM Interruption Console

namespace Stage

def ofWork (work : Work α) : Stage α := fun console =>
  match work console.workspace with
  | .ok value workspace => .ok value { console with workspace }
  | .error fault workspace => .error (.fault fault) { console with workspace }

def note (level : Int) (message : Text) : Stage Unit := ofWork (Work.note level message)

def print (line : Text) : Stage Unit :=
  modify fun console => { console with errors := console.errors ++ line ++ ['\n'] }

def quit (line : Text) : Stage α := do
  print line
  throw (.exit 1)

end Stage

open Stage

def banner : Text :=
  ("\n   _    _ _   _           _ _     _\n".toList ++
    "  | | _(_) |_| |__  _   _(_) | __| |\n".toList ++
    "  | |/ / | __| '_ \\| | | | | |/ _` |\n".toList ++
    "  |   <| | |_| |_) | |_| | | | (_| |\n".toList ++
    "  |_|\\_\\_|\\__|_.__/ \\__,_|_|_|\\__,_|\n".toList ++
    "\n  Kit template compiler\n".toList)

/-- The file that a job compiles, if it names one, with the page that is made of it. -/
def findSource (settings : Settings) (job : Job) : Stage Job := do
  if job.inputFile = [] then return job
  let source := job.inputDirectory.child job.inputFile
  let tree := (← get).workspace.tree
  match tree.isFile source with
  | .error denial => throw (.fault (.denied denial))
  | .ok false => quit ("Error: Input file not found: ".toList ++ source.toText)
  | .ok true =>
    note 2 ("Input file: ".toList ++ source.toText)
    return { job with
      source
      output := job.outputDirectory.child (source.stem ++ settings.outputExtension) }

def makeOutputDirectory (path : Path) : Stage Unit := do
  let (tree, denial) := (← get).workspace.tree.makeDirectories path true
  modify fun console => { console with workspace := { console.workspace with tree } }
  if let some denial := denial then throw (.fault (.denied denial))

/-- The paths of values, each of which has to be given. -/
def pathsOf : List (Option Text) → Work (List Path)
  | [] => return []
  | none :: _ => throw .pathMissing
  | some value :: rest => return .ofText value :: (← pathsOf rest)

/-- The job with every path settled. -/
def checkEnvironment (settings : Settings) (job : Job) : Stage Job := do
  if 2 ≤ job.verbosity then note 2 banner
  note 2 "Checking environment...".toList
  if job.inputFile = [] && !job.site then quit "Error: Specify --inputFile or --site".toList
  let job ← findSource settings job
  let folders ←
    match job.searchFolder with
    | some folders => ofWork (pathsOf folders)
    | none => pure (settings.searchFolders.map Path.ofText)
  note 2 ("Search folders: ".toList ++ Text.quotedList (folders.map Path.toText))
  let posts :=
    match job.postsDirectory with
    | none | some [] => job.inputDirectory.child settings.postsDirectory
    | some directory => Path.ofText directory
  note 2 ("Posts directory: ".toList ++ posts.toText)
  makeOutputDirectory job.outputDirectory
  note 2 ("Output directory: ".toList ++ job.outputDirectory.toText)
  return { job with folders, posts, ready := true }

/-- The job with its page compiled, or its site built. -/
def compileJob (settings : Settings) (job : Job) : Stage Job := do
  let compiler : Compiler := ⟨settings, job.folders, job.posts⟩
  if job.site then
    note 1 "Building site...".toList
    let site := Site.configure settings (← get).workspace.tree.workingDirectory job.inputDirectory
      (some job.outputDirectory) (some compiler)
    match site.build (← get).workspace with
    | .ok report workspace =>
      modify fun console => { console with workspace }
      return { job with report := some report }
    | .error fault workspace =>
      modify fun console => { console with workspace }
      match fault with
      | .site problem => quit ("Site error: ".toList ++ problem.message)
      | fault => throw (.fault fault)
  else
    note 1 ("Compiling ".toList ++ job.source.name ++ "...".toList)
    let compilation ← ofWork (compiler.compile job.source (some job.output))
    match compilation with
    | .failed error => quit ("Compile error: ".toList ++ error.message)
    | .compiled .. => return { job with compilation := some compilation }

def printFailures : List (Text × Text) → Stage Unit
  | [] => return
  | (name, message) :: rest => do
    print ("Error generating ".toList ++ name ++ ": ".toList ++ message)
    printFailures rest

/-- The job after its outcome has been reported. -/
def reportJob (job : Job) : Stage Job := do
  match job.report, job.compilation with
  | some report, _ =>
    note 1 (if report.successful then "\n✓ Site built".toList
      else "\n✗ Site built with errors".toList)
    note 1 ("  Posts: ".toList ++ Text.ofNat report.posts.length)
    note 1 ("  Pages: ".toList ++ Text.ofNat report.pages.length)
    printFailures report.failures
    if report.successful then return job else throw (.exit 1)
  | none, some (.compiled _ (some written)) =>
    note 1 "\n✓ Compilation successful!".toList
    note 1 ("  Output: ".toList ++ written.toText)
    return job
  | none, _ => return job

/-- The stages of a run, one after another. -/
def runJob (settings : Settings) (job : Job) : Stage Job := do
  let job ← checkEnvironment settings job
  let job ← compileJob settings job
  reportJob job

end KitTemplate.Command
