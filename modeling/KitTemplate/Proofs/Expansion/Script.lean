import KitTemplate.Expansion

/-! Scripts of expansions. What an expansion does is settled before any variable has a value. A
script lists it in the order of the walk through a source and the templates imported on the way: the
text that is copied, the variables that are assigned or used, the files of the posts directory that
variables name, the notes that are left, and the fault that ends the walk. Performing a script is
one pass over it from left to right. -/

namespace KitTemplate

/-- One thing that an expansion does. -/
inductive Event where
  | text (text : Text)
  | note (tag : Text) (level : Int) (message : Text)
  | assign (name value : Text)
  | use (name : Text) (file : Path) (line : Int)
  /-- The file of the posts directory that a variable names is included. -/
  | insert (tag name : Text) (file : Path) (line : Int)
  | stop (fault : Fault)
deriving DecidableEq

namespace Workplace

open Expansion

variable (place : Workplace)

/-- What an event does, and the text that it yields. -/
def act : Event → Expansion Text
  | .text text => pure text
  | .note tag level message => tagged tag do
    note level message
    return []
  | .assign name value => do
    modify (·.assign name value)
    return []
  | .use name file line => withValue name file line pure
  | .insert tag name file line => tagged tag (place.expandPartial file line name)
  | .stop fault => throw fault

/-- One pass over a script. The first event that fails ends it. -/
def perform (events : List Event) : Expansion Text := concat place.act events

section Scripts

-- The scripts of imported templates, the files that are open, and the tag of the notes.
variable (importScript : Path → List Event) (ancestry : List Path) (tag : Text) (file : Path)

/-- The note about a file found in another place than its target. -/
def resolutionScript (target found : Path) : List Event :=
  if found ≠ target then
    [.note tag 3 ("Resolved ".toList ++ target.name ++ " -> ".toList ++ found.toText)]
  else []

/-- What is done with the file that an entry of an import list leads to. -/
def foundScript (directive : Directive) (found : Path) : List Event :=
  if place.compiler.settings.isTemplate found then
    if Context.isAmong ancestry found then
      [.stop (.template ⟨.importCycle found.name, file.name, some directive.line⟩)]
    else .note tag 2 ("importing ".toList ++ found.toText) :: importScript found
  else
    .note tag 2 ("including ".toList ++ found.toText) ::
      match place.compiler.readText place.tree found file.name (some directive.line) with
      | .ok text => [.text text]
      | .error fault => [.stop fault]

def entryScript (directive : Directive) (entry : Text) : List Event :=
  let spec := Import.clean entry
  if spec = [] then
    [.stop (.template
      ⟨.emptyImport (directive.value.getD []), file.name, some directive.line⟩)]
  else
    match place.target file spec with
    | .error fault => [.stop fault]
    | .ok target =>
      match Import.resolve place.tree (place.compiler.folders place.tree) target with
      | .error fault => [.stop fault]
      | .ok none =>
        [.stop (.template ⟨.importMissing target.name spec, file.name, some directive.line⟩)]
      | .ok (some found) =>
        resolutionScript tag target found ++
          place.foundScript importScript ancestry tag file directive found

def variableScript (directive : Directive) : List Event :=
  match directive.value with
  | some value =>
    [.assign directive.keyword value, .note tag 3 (directive.keyword ++ " assigned".toList)]
  | none => [.use directive.keyword file directive.line]

def directiveScript (directive : Directive) : List Event :=
  .note tag 3 ("line ".toList ++ Text.ofInt directive.line ++ ": ".toList ++ directive.keyword) ::
    match (Registry.standard.find directive.keyword).category, directive.value with
    | .values, _ => variableScript tag file directive
    | .imports, some value =>
      (value.splitOn ',').flatMap (place.entryScript importScript ancestry tag file directive)
    | .partials, some value => [.insert tag value file directive.line]
    | _, none =>
      [.stop (.template ⟨.valueMissing directive.keyword (Text.strip directive.source), file.name,
        some directive.line⟩)]

def pieceScript : Piece → List Event
  | .literal text => [.text text]
  | .directive directive => place.directiveScript importScript ancestry tag file directive
  | .broken problem line => [.stop (.template ⟨.unreadable problem, file.name, some line⟩)]

def sourceScript (source : Text) : List Event :=
  .note tag 3 (Text.ofNat (Token.split source).length ++ " tokens".toList) ::
    (Piece.ofSource source).flatMap (place.pieceScript importScript ancestry tag file)

end Scripts

/-- The script of a file, with room for so many files open inside one another. -/
def scriptWithin : (room : Nat) → (ancestry : List Path) → Path → List Event
  | 0, _, _ => [.stop .tooDeep]
  | room + 1, ancestry, path =>
    if Context.isAmong ancestry path then [.stop (.template ⟨.cycle, path.name, none⟩)]
    else
      match place.compiler.readText place.tree path [] none with
      | .error fault => [.stop fault]
      | .ok source =>
        let opened := ancestry ++ [path]
        place.sourceScript (scriptWithin room opened) opened path.name path source

/-- A script up to the fault that ends it. -/
def untilStop : List Event → List Event
  | [] => []
  | .stop fault :: _ => [.stop fault]
  | event :: rest => event :: untilStop rest

/-- The script of a file that is opened inside the files of `ancestry`. -/
def script (ancestry : List Path) (path : Path) : List Event :=
  untilStop (place.scriptWithin place.room ancestry path)

theorem untilStop_isPrefix (events : List Event) : untilStop events <+: events := by
  induction events with
  | nil => exact List.prefix_refl []
  | cons event rest ih =>
      cases event with
      | stop fault => exact ⟨rest, rfl⟩
      | _ => exact (List.prefix_cons_inj _).2 ih

/-! ### Performing a script

What is performed is a sequence: a script may be cut anywhere, and what follows the fault that ends
it does not matter. -/

theorem perform_nil : place.perform [] = pure [] := rfl

theorem perform_cons (event : Event) (rest : List Event) :
    place.perform (event :: rest) = (do
      let text ← place.act event
      return text ++ (← place.perform rest)) :=
  rfl

theorem perform_append (first second : List Event) :
    place.perform (first ++ second) = (do
      let text ← place.perform first
      return text ++ (← place.perform second)) :=
  concat_append place.act first second

theorem perform_untilStop (events : List Event) :
    place.perform (untilStop events) = place.perform events := by
  induction events with
  | nil => rfl
  | cons event rest ih =>
      cases event with
      | stop fault => rfl
      | _ => simp only [untilStop, perform_cons, ih]

end Workplace

end KitTemplate
