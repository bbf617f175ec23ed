import KitTemplate.Charset
import KitTemplate.Datum.Json
import KitTemplate.FileTree.Basic
import KitTemplate.Settings.Basic
import KitTemplate.Settings.Lookup

/-! Loading settings. A value given directly counts before one in the environment, that before one
in a file of variables, that before one in a file of its own, and a default comes last. Names that
are given stand for settings in any letter case; variables are looked up as `Lookup` says, and a
list is written as JSON in them. Every value that does not fit its setting is reported, and so is
every setting that does not exist, but for those of other programs in the environment. -/

namespace KitTemplate.Settings

/-- How a value fails to fit. -/
inductive Misfit where
  | notText
  | notFlag
  | unknownFlag
  | notList
  | unknownSetting
deriving DecidableEq, Repr

inductive LoadError where
  /-- A list in a variable is no JSON, or variables cannot be looked up. -/
  | unreadable
  /-- A list in a variable is nested too deeply. -/
  | nested (problem : JsonProblem)
  | undecodable (problem : Charset.Undecodable)
  | unknownEncoding (name : Text)
  | denied (denial : Denial)
  | misuse (problem : Misuse)
  /-- The settings that do not fit, by name. -/
  | unfit (problems : List (Text × Misfit))
deriving DecidableEq, Repr

inductive Field where
  | templateExtension
  | encoding
  | searchFolders
  | postsDirectory
  | debug
  | templatesDirectory
  | buildDirectory
  | outputExtension
deriving DecidableEq, Repr

namespace Field

def all : List Field :=
  [templateExtension, encoding, searchFolders, postsDirectory, debug, templatesDirectory,
    buildDirectory, outputExtension]

def name : Field → Text
  | templateExtension => "template_extension".toList
  | encoding => "encoding".toList
  | searchFolders => "search_folders".toList
  | postsDirectory => "posts_dir".toList
  | debug => "debug_mode".toList
  | templatesDirectory => "templates_dir".toList
  | buildDirectory => "build_dir".toList
  | outputExtension => "output_extension".toList

/-- The setting that a name stands for. -/
def named? (name : Text) : Option Field := all.find? (·.name = name.lowerCase)

end Field

abbrev Checked := Except (List (Text × Misfit))

def textOf (name : Text) : Datum → Checked Text
  | .text value => .ok value
  | _ => .error [(name, .notText)]

/-- Whether a number fits into a machine word of 64 bits. -/
def isWord (value : Int) : Bool := -Int.pow 2 63 ≤ value && value < Int.pow 2 63

/-- A flag as such, as a word or as one of two numbers. A number that is no machine word is not
taken for a flag at all. -/
def flagOf (name : Text) : Datum → Checked Bool
  | .flag value => .ok value
  | .whole value =>
    if value = 1 then .ok true
    else if value = 0 then .ok false
    else .error [(name, if isWord value then .unknownFlag else .notFlag)]
  | .fraction _ => .error [(name, .unknownFlag)]
  | .text value =>
    let word := value.lowerCase
    if ["1", "true", "t", "yes", "y", "on"].any (·.toList == word) then .ok true
    else if ["0", "false", "f", "no", "n", "off"].any (·.toList == word) then .ok false
    else .error [(name, .unknownFlag)]
  | _ => .error [(name, .notFlag)]

/-- Items that are all texts, or each item that is none under its place in the list. -/
def textsOf (name : Text) (place : Nat) : List Datum → Checked (List Text)
  | [] => .ok []
  | item :: rest =>
    match textOf (name ++ ['.'] ++ Text.ofNat place) item, textsOf name (place + 1) rest with
    | .ok value, .ok values => .ok (value :: values)
    | .error problems, .error more => .error (problems ++ more)
    | .error problems, .ok _ => .error problems
    | .ok _, .error more => .error more

def listOf (name : Text) : Datum → Checked (List Text)
  | .list items => textsOf name 0 items
  | _ => .error [(name, .notList)]

/-- The settings with one of them replaced. -/
def set (settings : Settings) (field : Field) (value : Datum) : Checked Settings :=
  match field with
  | .templateExtension =>
    return { settings with templateExtension := ← textOf field.name value }
  | .encoding => return { settings with encoding := ← textOf field.name value }
  | .searchFolders => return { settings with searchFolders := ← listOf field.name value }
  | .postsDirectory => return { settings with postsDirectory := ← textOf field.name value }
  | .debug => return { settings with debug := ← flagOf field.name value }
  | .templatesDirectory =>
    return { settings with templatesDirectory := ← textOf field.name value }
  | .buildDirectory => return { settings with buildDirectory := ← textOf field.name value }
  | .outputExtension => return { settings with outputExtension := ← textOf field.name value }

namespace Lookup

/-- The name of a setting among variables. -/
def variableName (lookup : Lookup) (lead : Text) (field : Field) : Text :=
  lookup.spell (lead ++ field.name)

/-- Whether a name is that of a part of a list, which lists do not have. -/
def isPart (lookup : Lookup) (lead name : Text) : Bool :=
  lookup.delimiter.any fun delimiter =>
    (lookup.variableName lead .searchFolders ++ delimiter).isPrefixOf name

/-- The values that some variables give to settings. A variable that is bound to nothing gives
none, and parts of a list make it a table. -/
def fromVariables (lookup : Lookup) (lead : Text) (bindings : List Environment.Binding) :
    Except LoadError (List (Field × Datum)) :=
  let step (found : List (Field × Datum)) (field : Field) :
      Except LoadError (List (Field × Datum)) :=
    match (bindings.lookup (lookup.variableName lead field)).join, field with
    | none, .searchFolders =>
      if bindings.any fun binding => lookup.isPart lead binding.1 then
        .ok (found ++ [(field, .table [])])
      else .ok found
    | none, _ => .ok found
    | some value, field =>
      if lookup.nullText = some value then .ok (found ++ [(field, .null)])
      else
        match field with
        | .searchFolders =>
          match Datum.parse value with
          | .error .malformed => .error .unreadable
          | .error problem => .error (.nested problem)
          | .ok .null => .ok found
          | .ok value => .ok (found ++ [(field, value)])
        | field => .ok (found ++ [(field, .text value)])
  Field.all.foldlM step []

/-- The names in files of variables that have a value and belong to no setting. A name that only
lacks what the others begin with is let pass. -/
def strayNames (lookup : Lookup) (lead : Text) (bindings : List Environment.Binding) : List Text :=
  let belongs (name : Text) : Bool :=
    lookup.isPart lead name || Field.all.any fun field =>
      name = lookup.variableName lead field || lead ≠ [] && name = field.name
  let stray (binding : Environment.Binding) : Bool :=
    binding.2.any (· ≠ []) && !belongs binding.1
  (bindings.filter stray).map (·.1)

end Lookup

/-- A file that is named for a variable, with its text if it is one. -/
abbrev NamedFile := Text × Option Text

/-- What settings are looked up in. -/
structure Sources where
  environment : List (Text × Text) := []
  /-- The texts of the files of variables. -/
  files : List Text := []
  /-- The files that hold one value each, of which the first of a name counts. -/
  named : List NamedFile := []

namespace Sources

/-- What the files of variables bind. -/
def fileBindings (sources : Sources) (lookup : Lookup) : List Environment.Binding :=
  sources.files.foldl (fun found file =>
    Table.putAll found (lookup.bindings (Environment.parse sources.environment file))) []

/-- What the files bind that are named for settings: each holds the value, but for blanks. -/
def namedBindings (sources : Sources) (lookup : Lookup) (lead : Text) :
    Except LoadError (List Environment.Binding) := do
  let found ← Field.all.mapM fun field => do
    let name := lookup.variableName lead field
    match sources.named.find? fun file => lookup.spell file.1 = name with
    | none => return []
    | some (_, none) => throw .unreadable
    | some (_, some text) => return [(name, some (Text.trim Text.isBlank text))]
  return found.flatten

end Sources

def misfitOrder (problem other : Text × Misfit) : Bool := Text.le problem.1 other.1

/-- The settings that result from what is given and from what is looked up. -/
def load (given : List (Text × Datum)) (sources : Sources) : Except LoadError Settings := do
  let lookup ← (Lookup.ofGiven given).mapError .misuse
  let some lead := lookup.lead | throw .unreadable
  let fileBindings := sources.fileBindings lookup
  let fromEnvironment ← lookup.fromVariables lead
    (lookup.bindings (sources.environment.map fun binding => (binding.1, some binding.2)))
  let fromFiles ← lookup.fromVariables lead fileBindings
  let fromNamed ← ({ lookup with nullText := none, delimiter := none } : Lookup).fromVariables lead
    (← sources.namedBindings lookup lead)
  let known := given.filterMap fun entry => (Field.named? entry.1).map (·, entry.2)
  let unknown := (given.map (·.1)).filter fun name =>
    (Field.named? name).isNone && !Lookup.isChoice name
  let strays := (unknown ++ lookup.strayNames lead fileBindings).eraseDups
  let chosen := Field.all.filterMap fun field =>
    ((known ++ fromEnvironment ++ fromFiles ++ fromNamed).find? (·.1 = field)).map (field, ·.2)
  let step (result : Settings × List (Text × Misfit)) (choice : Field × Datum) :
      Settings × List (Text × Misfit) :=
    match result.1.set choice.1 choice.2 with
    | .ok settings => (settings, result.2)
    | .error problems => (result.1, result.2 ++ problems)
  let (settings, problems) := chosen.foldl step ({}, [])
  match problems ++ strays.map fun name => (name, Misfit.unknownSetting) with
  | [] => return settings
  | problems => throw (.unfit (problems.mergeSort misfitOrder))

end KitTemplate.Settings
