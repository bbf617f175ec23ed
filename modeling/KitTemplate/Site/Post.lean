import KitTemplate.Compilation
import KitTemplate.Site.Title

/-! Posts of a site. Every template in the posts directory is a post unless its name begins with an
underscore. Posts are listed from the newest to the oldest, posts of one age by their slugs; one
that cannot be read is left out and reported as a failure, but each one read has to have a date. -/

namespace KitTemplate

structure Post where
  /-- The stem of the post's file, which names its page. -/
  slug : Text
  title : Text
  file : Text
  /-- The date by which posts are listed: the microseconds that a local clock has shown since it
  showed the beginning of 1970. -/
  date : Int
deriving DecidableEq, Repr

/-- What a build has done so far. -/
structure Report where
  posts : List Post := []
  /-- The pages written. -/
  pages : List Path := []
  /-- The names of what failed and why, in the order of the first failure under each name. -/
  failures : List (Text × Text) := []
deriving DecidableEq, Repr

namespace Report

def successful (report : Report) : Bool := report.failures.isEmpty

end Report

namespace Post

/-- Whether a file of the posts directory is one that counts as a post. -/
def isCandidate (settings : Settings) (tree : FileTree) (path : Path) : Except Fault Bool := do
  let file ← (tree.isFile path).mapError .denied
  return file && path.name.head? != some '_' && settings.isTemplate path

/-- The date of the file at a path. -/
def dateOf (tree : FileTree) (path : Path) : Except Fault Int :=
  match tree.inspect path with
  | .ok (some (.file _ changed)) => (Site.date tree.zone changed).mapError .date
  | _ => .ok 0

/-- The post in a file, with the title taken from its text. -/
def ofFile (tree : FileTree) (path : Path) (text : Text) : Except Fault Post := do
  return {
    slug := path.stem
    title := Site.title text path.stem
    file := path.name
    date := ← dateOf tree path }

/-- The posts in some files, in their order, and the failures so far. -/
def readAll (settings : Settings) (compiler : Compiler) :
    List Path → List (Text × Text) → Work (List Post × List (Text × Text))
  | [], failures => return ([], failures)
  | path :: rest, failures => do
    let tree := (← get).tree
    match isCandidate settings tree path with
    | .error fault => throw fault
    | .ok false => readAll settings compiler rest failures
    | .ok true =>
      match compiler.readText tree path [] none with
      | .ok text =>
        match ofFile tree path text with
        | .ok post =>
          let (posts, failures) ← readAll settings compiler rest failures
          return (post :: posts, failures)
        | .error fault => throw fault
      | .error (.template error) =>
        Work.note 1
          ("Skipping post ".toList ++ path.name ++ ": ".toList ++ error.message)
        readAll settings compiler rest (Table.put path.stem error.message failures)
      | .error fault => throw fault

/-- From the newest to the oldest, and by slugs within one date. -/
def arrange (posts : List Post) : List Post :=
  (posts.mergeSort fun post other => Text.le post.slug other.slug).mergeSort fun post other =>
    other.date ≤ post.date

/-- The paths of what stands directly in a directory, by name. -/
def directoryPaths (tree : FileTree) (directory : Path) : List Path :=
  match tree.locate directory with
  | .error _ => []
  | .ok location =>
    ((tree.names location).mergeSort Text.le).map directory.entry

/-- The posts of a directory and the failures met in reading them. -/
def collect (settings : Settings) (compiler : Compiler) (directory : Path) :
    Work (List Post × List (Text × Text)) := do
  let tree := (← get).tree
  match tree.isDirectory directory with
  | .error denial => throw (.denied denial)
  | .ok false => return ([], [])
  | .ok true =>
    let (posts, failures) ← readAll settings compiler (directoryPaths tree directory) []
    return (arrange posts, failures)

end Post

end KitTemplate
