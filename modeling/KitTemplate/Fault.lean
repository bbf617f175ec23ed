import KitTemplate.FileTree.Basic
import KitTemplate.Charset
import KitTemplate.Site.Date
import KitTemplate.Source.Directive

/-! Faults. A template error is a cause together with the file being expanded and, where a line of
that file is to blame, its number; a compilation answers with the first one. Every other fault ends
the work at hand: a path that cannot be renamed or is not given, a refusal outside of a compilation,
a character set that is unknown or does not hold the text, a site that cannot be built, and a post
without a date. -/

namespace KitTemplate

inductive Cause where
  /-- The file is not text in the character set of that name. -/
  | undecodable (name encoding : Text)
  | unreadable (problem : Directive.ReadError)
  | valueMissing (keyword comment : Text)
  | emptyImport (list : Text)
  /-- A file would be imported while it is being expanded. -/
  | importCycle (name : Text)
  /-- A file would be entered while it is being expanded. -/
  | cycle
  | undefinedVariable (name : Text)
  | importMissing (name spec : Text)
  | partialMissing (path : Path)
  | fileMissing (path : Path)
  | readRefused (path : Path) (refusal : Refusal)
  | writeRefused (path : Path) (refusal : Refusal)
deriving DecidableEq, Repr

/-- The families of causes. -/
inductive CauseKind where
  | undecodable
  | malformed
  | cyclic
  | undefined
  | missing
  | refused
deriving DecidableEq, Repr

namespace Cause

def kind : Cause → CauseKind
  | undecodable .. => .undecodable
  | unreadable .. | valueMissing .. | emptyImport .. => .malformed
  | importCycle .. | cycle => .cyclic
  | undefinedVariable .. => .undefined
  | importMissing .. | partialMissing .. | fileMissing .. => .missing
  | readRefused .. | writeRefused .. => .refused

def message : Cause → Text
  | undecodable name encoding =>
    "Failed to tokenize ".toList ++ name ++ ". (Is the file ".toList ++ encoding ++
      " encoded? Ensure it is not malformed.)".toList
  | unreadable .unclosed =>
    "Found a kit comment, but could not find its closing '-->'. ".toList ++
      "(Ensure the file is UTF-8 encoded and not damaged.)".toList
  | unreadable (.withoutKeyword comment) =>
    "Unable to find an appropriate keyword (either \"@import\" or a variable name) ".toList ++
      "in this kit comment: ".toList ++ comment
  | valueMissing keyword comment =>
    "Missing a value after ".toList ++ keyword ++ " in this kit comment: ".toList ++ comment
  | emptyImport list => "Empty entry in import list: ".toList ++ list
  | importCycle name =>
    "Infinite import loop detected: ".toList ++ name ++ " is already being compiled ".toList ++
      advice
  | cycle => "Infinite import loop detected ".toList ++ advice
  | undefinedVariable name => "The variable ".toList ++ name ++ " is undefined.".toList
  | importMissing name spec =>
    "You're attempting to import a file that does not exist ".toList ++
      "in the specified location: ".toList ++ name ++ " (".toList ++ spec ++ [')']
  | partialMissing path => "Cannot find partial ".toList ++ path.toText
  | fileMissing path => "Cannot find file ".toList ++ path.toText
  | readRefused path refusal =>
    "Cannot read file ".toList ++ path.toText ++ ": ".toList ++ refusal.message
  | writeRefused path refusal =>
    "Cannot write file ".toList ++ path.toText ++ ": ".toList ++ refusal.message
where
  advice : Text :=
    "(e.g. file A imports file B, which imports file A). ".toList ++
      "This must be fixed before the file can be compiled.".toList

end Cause

structure TemplateError where
  cause : Cause
  /-- The name of the file being expanded. -/
  fileName : Text
  line : Option Int
deriving DecidableEq, Repr

namespace TemplateError

/-- A message with its place in front. A line is named only together with its file. -/
def locate (message fileName : Text) (line : Option Int) : Text :=
  match fileName, line with
  | [], _ => message
  | fileName, some line =>
    "Line ".toList ++ Text.ofInt line ++ " of ".toList ++ fileName ++ ": ".toList ++ message
  | fileName, none => fileName ++ ": ".toList ++ message

def message (error : TemplateError) : Text :=
  locate error.cause.message error.fileName error.line

end TemplateError

/-- Why a site is not built at all. -/
inductive SiteProblem where
  | withoutTemplates (directory : Path)
  /-- The output directory is a source of the site or contains one. -/
  | unsafeOutput (output : Path) (source : Text)
deriving DecidableEq, Repr

def SiteProblem.message : SiteProblem → Text
  | withoutTemplates directory =>
    "Templates directory not found: ".toList ++ directory.toText ++
      ". Please create a templates directory with post.kit and index.kit templates.".toList
  | unsafeOutput output source =>
    "Refusing to empty ".toList ++ output.toText ++ ": it contains ".toList ++ source

inductive Fault where
  | template (error : TemplateError)
  | rename (error : Path.RenameError)
  | denied (denial : Denial)
  | unknownEncoding (name : Text)
  | unencodable (problem : Charset.Unencodable)
  | site (problem : SiteProblem)
  /-- A post is from a time that is no date. -/
  | date (problem : Site.DateProblem)
  /-- An option that needs a path has no value. -/
  | pathMissing
  /-- More files are open inside one another than the tree has names for. -/
  | tooDeep
deriving DecidableEq, Repr

namespace Fault

def message : Fault → Text
  | template error => error.message
  | rename (.unnamed path) =>
    "PosixPath(".toList ++ path.toText.quoted ++ ") has an empty name".toList
  | rename (.badName name) => "Invalid name ".toList ++ name.quoted
  | denied denial => denial.message
  | unknownEncoding name => "unknown encoding: ".toList ++ name
  | unencodable problem => problem.message
  | site problem => problem.message
  | date problem => problem.message
  | pathMissing => "expected str, bytes or os.PathLike object, not list".toList
  | tooDeep => "imports are nested too deeply".toList

end Fault

end KitTemplate
