import KitTemplate.Datum.Basic
import KitTemplate.Settings.Environment
import KitTemplate.Text.LowerCase

/-! How variables give values to settings. The name of a variable is that of its setting after a few
letters that all of them begin with, by default in any letter case; more variables are read from
files. What is given directly may choose otherwise: it does so under names that begin with an
underscore, and these are no names of settings. -/

namespace KitTemplate.Settings

structure Lookup where
  /-- What the names of variables begin with; without it nothing can be looked up. -/
  lead : Option Text := some "KITBUILD_".toList
  /-- Whether names are told apart by the case of their letters. -/
  caseSensitive : Bool := false
  /-- Whether a variable with an empty value is left out. -/
  ignoresEmpty : Bool := false
  /-- The value of a variable that takes the value of its setting away. -/
  nullText : Option Text := none
  /-- What stands between the name of a setting and that of a part of it. -/
  delimiter : Option Text := none
  /-- The files of variables, of which a later one counts before an earlier one. -/
  files : List Text := [".env".toList]
  /-- What names the character set of these files. -/
  encoding : Datum := .text "utf-8".toList
  /-- Directories in which files are named for variables and hold their values. -/
  folders : List Text := []

/-- Why a choice is none. -/
inductive Misuse where
  /-- Files or directories are given by something that is neither a name nor a list of names. -/
  | unlisted (kind : Text)
  | unnamed (kind : Text)
  /-- A character set is given by something that is no name. -/
  | encodingKind (kind : Text)
deriving DecidableEq, Repr

def Misuse.message : Misuse → Text
  | unlisted kind => '\x27' :: kind ++ "' object is not iterable".toList
  | unnamed kind => "expected str, bytes or os.PathLike object, not ".toList ++ kind
  | encodingKind kind => "open() argument 'encoding' must be str or None, not ".toList ++ kind

namespace Lookup

/-- The choices that concern variables. -/
def choices : List Text :=
  ["_env_prefix", "_case_sensitive", "_env_ignore_empty", "_env_parse_none_str",
    "_env_nested_delimiter", "_env_file", "_env_file_encoding", "_secrets_dir"].map String.toList

/-- Choices that make no difference here: they concern nested settings and command lines. -/
def idleChoices : List Text :=
  ["_nested_model_default_partial_update", "_env_nested_max_split", "_env_parse_enums",
    "_cli_prog_name", "_cli_parse_args", "_cli_settings_source", "_cli_parse_none_str",
    "_cli_hide_none_type", "_cli_avoid_json", "_cli_enforce_required",
    "_cli_use_class_docs_for_groups", "_cli_exit_on_error", "_cli_prefix",
    "_cli_flag_prefix_char", "_cli_implicit_flags", "_cli_ignore_unknown_args",
    "_cli_kebab_case", "_cli_shortcuts"].map String.toList

def isChoice (name : Text) : Bool := choices.contains name || idleChoices.contains name

/-- The text that is given, unless it is empty or no text. -/
def text? : Datum → Option Text
  | .text [] => none
  | .text value => some value
  | _ => none

/-- The names of files that are given: one name, or any number of them. -/
def names : Datum → Except Misuse (List Text)
  | .null => .ok []
  | .text name => .ok [name]
  | .list items => items.mapM fun
    | .text name => .ok name
    | item => .error (.unnamed item.kindName)
  | .table entries => .ok (entries.map (·.1))
  | other => .error (.unlisted other.kindName)

/-- The lookup with one choice made. Nothing given for it leaves the choice as it is, but for the
files of variables, of which there are none then. -/
def choose (lookup : Lookup) (choice : Text) (value : Datum) : Except Misuse Lookup :=
  match String.ofList choice, value with
  | "_env_file", files => return { lookup with files := ← names files }
  | _, .null => .ok lookup
  | "_env_prefix", .text lead => .ok { lookup with lead := some lead }
  | "_env_prefix", _ => .ok { lookup with lead := none }
  | "_case_sensitive", value => .ok { lookup with caseSensitive := value.holds }
  | "_env_ignore_empty", value => .ok { lookup with ignoresEmpty := value.holds }
  | "_env_parse_none_str", .text value => .ok { lookup with nullText := some value }
  | "_env_nested_delimiter", value => .ok { lookup with delimiter := text? value }
  | "_env_file_encoding", encoding =>
    .ok (if encoding.holds then { lookup with encoding } else lookup)
  | "_secrets_dir", folders => return { lookup with folders := ← names folders }
  | _, _ => .ok lookup

/-- The lookup that is chosen by what is given. -/
def ofGiven (given : List (Text × Datum)) : Except Misuse Lookup :=
  given.foldlM (fun lookup entry => lookup.choose entry.1 entry.2) {}

/-- A name as it is compared with others. -/
def spell (lookup : Lookup) (name : Text) : Text :=
  if lookup.caseSensitive then name else name.lowerCase

/-- Variables by their names as they are compared; the last of one name counts. -/
def bindings (lookup : Lookup) (found : List Environment.Binding) : List Environment.Binding :=
  let kept := found.filter fun binding => !(lookup.ignoresEmpty && binding.2 = some [])
  Table.ofList (kept.map fun binding => (lookup.spell binding.1, binding.2))

end Lookup

end KitTemplate.Settings
