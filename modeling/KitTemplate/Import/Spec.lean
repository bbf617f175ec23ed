import KitTemplate.Text.Blank
import KitTemplate.Settings.Basic
import KitTemplate.Fault

/-! Entries of import lists and the places where they are looked for. An entry may be quoted. The
file it names is taken beside the importing file or, failing that, from the search folders in their
order, and in each place also under its name with the leading underscore added or removed. -/

namespace KitTemplate.Import

def isQuote (c : Char) : Bool := c = '\x27' || c = '\x22'

/-- The text without blanks before an opening quote and that quote, if there is one. -/
def dropOpeningQuote (entry : Text) : Text :=
  match entry.dropWhile Text.isBlank with
  | [] => entry
  | c :: rest => if isQuote c then rest else entry

/-- The text without a closing quote and the blanks after it, if there is one. -/
def dropClosingQuote (entry : Text) : Text := (dropOpeningQuote entry.reverse).reverse

/-- An entry of an import list without blanks and quotes around it. -/
def clean (entry : Text) : Text := Text.strip (dropClosingQuote (dropOpeningQuote entry))

/-- A name with its leading underscore removed, or with one added if it has none. -/
def toggleUnderscore : Text → Text
  | '_' :: rest => rest
  | name => '_' :: name

/-- The places tried after the target itself, in their order. -/
def fallbacks (folders : List Path) (target : Path) : Except Path.RenameError (List Path) := do
  let alternate := toggleUnderscore target.name
  let sibling ← target.withName alternate
  return sibling :: folders.flatMap fun folder => [folder.child target.name, folder.child alternate]

/-- Every place tried for a target. -/
def candidates (folders : List Path) (target : Path) : Except Path.RenameError (List Path) := do
  return target :: (← fallbacks folders target)

/-- The first of some paths that names a file. -/
def firstFile (tree : FileTree) : List Path → Except Fault (Option Path)
  | [] => .ok none
  | path :: rest =>
    match tree.isFile path with
    | .error denial => .error (.denied denial)
    | .ok true => .ok (some path)
    | .ok false => firstFile tree rest

/-- The file that a target leads to. The fallbacks are named only if the target is no file. -/
def resolve (tree : FileTree) (folders : List Path) (target : Path) :
    Except Fault (Option Path) :=
  match tree.isFile target with
  | .error denial => .error (.denied denial)
  | .ok true => .ok (some target)
  | .ok false =>
    match fallbacks folders target with
    | .error problem => .error (.rename problem)
    | .ok paths => firstFile tree paths

end KitTemplate.Import
