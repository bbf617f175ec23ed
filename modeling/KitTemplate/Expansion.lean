import KitTemplate.Compiler
import KitTemplate.Import.Spec
import KitTemplate.Journal
import KitTemplate.Registry
import KitTemplate.Source.Piece

/-! Expansion of a source into the text that stands for it. The pieces of the source are taken in
their order; a directive assigns or uses a variable, includes a file as it is, or imports a template
and is replaced by that template's expansion. Variables are shared by everything expanded on the
way, so an assignment counts from its place on, in whatever file it stands.

A file is open while it is being expanded, and no file is opened inside itself, whatever the letter
case of its path. What is open, and the tag of the journal, are as before once a file is done with,
also when a fault ends the expansion. -/

namespace KitTemplate

structure Context where
  /-- The variables with their values, in the order of their first assignment. -/
  bindings : List (Text × Text) := []
  /-- The files being expanded, each opened inside the one before it. -/
  ancestry : List Path := []
  journal : Journal := {}

namespace Context

def note (context : Context) (level : Int) (message : Text) : Context :=
  { context with journal := context.journal.note level message }

def assign (context : Context) (name value : Text) : Context :=
  { context with bindings := Table.put name value context.bindings }

/-- Two paths that differ in letter case only are the same file. -/
def pathKey (path : Path) : Text := path.toText.lowerCase

/-- Whether a path is that of a file among some others. -/
def isAmong (ancestry : List Path) (path : Path) : Bool :=
  ancestry.any fun ancestor => pathKey ancestor = pathKey path

def isOpen (context : Context) (path : Path) : Bool := isAmong context.ancestry path

/-- The context inside a file, unless the file is open already. -/
def enter (context : Context) (path : Path) : Except Fault Context :=
  if context.isOpen path then .error (.template ⟨.cycle, path.name, none⟩)
  else .ok { context with ancestry := context.ancestry ++ [path] }

def leave (context : Context) : Context := { context with ancestry := context.ancestry.dropLast }

/-- The context with another tag for its notes. -/
def withTag (context : Context) (tag : Text) : Context :=
  { context with journal := { context.journal with tag } }

end Context

/-- Work on a context that answers with a value or ends in a fault, and leaves a context behind in
both cases. -/
abbrev Expansion := EStateM Fault Context

namespace Expansion

def note (level : Int) (message : Text) : Expansion Unit := modify (·.note level message)

def fail (cause : Cause) (file : Path) (line : Int) : Expansion α :=
  throw (.template ⟨cause, file.name, some line⟩)

def attempt : Except Fault α → Expansion α
  | .ok value => pure value
  | .error fault => throw fault

/-- An outcome with the context changed that is left behind. -/
def mapContext (change : Context → Context) :
    EStateM.Result Fault Context α → EStateM.Result Fault Context α
  | .ok value context => .ok value (change context)
  | .error fault context => .error fault (change context)

/-- Work done while a file is open. -/
def inside (path : Path) (work : Expansion α) : Expansion α := fun context =>
  match context.enter path with
  | .error fault => .error fault context
  | .ok entered => mapContext Context.leave (work.run entered)

/-- Work on the value that a variable has on a line of a file. -/
def withValue (name : Text) (file : Path) (line : Int) (work : Text → Expansion α) :
    Expansion α := do
  match (← get).bindings.lookup name with
  | none => fail (.undefinedVariable name) file line
  | some value => work value

/-- Work whose notes carry a tag. -/
def tagged (tag : Text) (work : Expansion α) : Expansion α := fun context =>
  mapContext (·.withTag context.journal.tag) (work.run (context.withTag tag))

/-- The texts that work on each of some things yields, one after another. -/
def concat (work : α → Expansion Text) : List α → Expansion Text
  | [] => pure []
  | first :: rest => do
    let text ← work first
    return text ++ (← concat work rest)

variable {α : Type} (context : Context)

@[simp]
theorem run_note (level : Int) (message : Text) :
    (note level message).run context = .ok ⟨⟩ (context.note level message) := rfl

theorem run_bind_eq_ok {β : Type} {work : Expansion α} {next : α → Expansion β} {value : β}
    {ended : Context} :
    (work >>= next).run context = .ok value ended ↔
      ∃ first reached, work.run context = .ok first reached ∧
        (next first).run reached = .ok value ended := by
  rw [EStateM.run_bind]
  cases work.run context <;> simp [and_assoc]

theorem run_bind_eq_error {β : Type} {work : Expansion α} {next : α → Expansion β} {fault : Fault}
    {ended : Context} :
    (work >>= next).run context = .error fault ended ↔
      work.run context = .error fault ended ∨
        ∃ first reached, work.run context = .ok first reached ∧
          (next first).run reached = .error fault ended := by
  rw [EStateM.run_bind]
  cases work.run context <;> simp [and_assoc]

theorem run_withValue (name : Text) (file : Path) (line : Int) (work : Text → Expansion α) :
    (withValue name file line work).run context =
      ((context.bindings.lookup name).elim (fail (.undefinedVariable name) file line) work).run
        context := by
  rw [withValue, EStateM.run_bind, EStateM.run_get]
  dsimp only
  cases context.bindings.lookup name <;> rfl

theorem attempt_ok (value : α) : attempt (.ok value) = (pure value : Expansion α) := rfl

theorem run_inside (path : Path) (work : Expansion α) :
    (inside path work).run context =
      match context.enter path with
      | .error fault => .error fault context
      | .ok entered => mapContext Context.leave (work.run entered) :=
  rfl

theorem run_tagged (tag : Text) (work : Expansion α) :
    (tagged tag work).run context =
      mapContext (·.withTag context.journal.tag) (work.run (context.withTag tag)) :=
  rfl

theorem concat_append (work : α → Expansion Text) (first second : List α) :
    concat work (first ++ second) = (do
      let text ← concat work first
      return text ++ (← concat work second)) := by
  induction first with
  | nil => simp only [List.nil_append, concat, pure_bind, bind_pure]
  | cons next rest ih =>
      simp only [List.cons_append, concat, ih, bind_assoc, pure_bind, List.append_assoc]

theorem run_concat_cons_eq_ok {work : α → Expansion Text} {first : α} {rest : List α}
    {ended : Context} {text : Text} :
    (concat work (first :: rest)).run context = .ok text ended ↔
      ∃ head reached tail, (work first).run context = .ok head reached ∧
        (concat work rest).run reached = .ok tail ended ∧ text = head ++ tail := by
  simp only [concat, run_bind_eq_ok, EStateM.run_pure, EStateM.Result.ok.injEq]
  grind

theorem run_concat_cons_eq_error {work : α → Expansion Text} {first : α} {rest : List α}
    {ended : Context} {fault : Fault} :
    (concat work (first :: rest)).run context = .error fault ended ↔
      (work first).run context = .error fault ended ∨
        ∃ head reached, (work first).run context = .ok head reached ∧
          (concat work rest).run reached = .error fault ended := by
  simp only [concat, run_bind_eq_error, EStateM.run_pure, reduceCtorEq, and_false, exists_false,
    or_false]

/-- Work on some things fails at one of them, after the work on those before it has succeeded. -/
theorem exists_of_run_concat {work : α → Expansion Text} {things : List α} {context ended : Context}
    {fault : Fault} (hrun : (concat work things).run context = .error fault ended) :
    ∃ before thing after text reached, things = before ++ thing :: after ∧
      (concat work before).run context = .ok text reached ∧
      (work thing).run reached = .error fault ended := by
  induction things generalizing context with
  | nil => cases hrun
  | cons first rest ih =>
      rcases (run_concat_cons_eq_error context).1 hrun with hfirst | ⟨head, reached, hfirst, hrest⟩
      · exact ⟨[], first, rest, [], context, rfl, rfl, hfirst⟩
      · obtain ⟨before, thing, after, text, middle, rfl, hbefore, hfails⟩ := ih hrest
        exact ⟨first :: before, thing, after, head ++ text, middle, rfl,
          (run_concat_cons_eq_ok context).2 ⟨head, reached, text, hfirst, hbefore, rfl⟩, hfails⟩

end Expansion

/-- What an expansion reads and never changes. -/
structure Workplace where
  compiler : Compiler
  tree : FileTree

namespace Workplace

open Expansion

variable (place : Workplace)

/-- The file that an entry of an import list in `file` leads to. -/
def target (file : Path) (spec : Text) : Except Fault Path :=
  let named := Path.absolute place.tree.workingDirectory (file.parent.child spec)
  (place.compiler.settings.applyExtension named).mapError .rename

/-- The file that a target leads to, with a note if it is not the target itself. -/
def findFile (target : Path) : Expansion (Option Path) := do
  let found ← attempt (Import.resolve place.tree (place.compiler.folders place.tree) target)
  match found with
  | none => return none
  | some found =>
    if found ≠ target then
      note 3 ("Resolved ".toList ++ target.name ++ " -> ".toList ++ found.toText)
    return some found

/-- The text of a file that an entry of an import list leads to: the expansion of a template, or any
other file as it is. Templates are expanded by `importFile`. -/
def expandFound (importFile : Path → Expansion Text) (file : Path) (directive : Directive)
    (found : Path) : Expansion Text := do
  if place.compiler.settings.isTemplate found then
    if (← get).isOpen found then
      fail (.importCycle found.name) file directive.line
    else
      note 2 ("importing ".toList ++ found.toText)
      importFile found
  else
    note 2 ("including ".toList ++ found.toText)
    attempt (place.compiler.readText place.tree found file.name (some directive.line))

/-- The text of one entry of an import list. -/
def expandEntry (importFile : Path → Expansion Text) (file : Path) (directive : Directive)
    (entry : Text) : Expansion Text := do
  let spec := Import.clean entry
  if spec = [] then
    fail (.emptyImport (directive.value.getD [])) file directive.line
  else
    let target ← attempt (place.target file spec)
    match ← place.findFile target with
    | none => fail (.importMissing target.name spec) file directive.line
    | some found => place.expandFound importFile file directive found

/-- The text of the file in the posts directory that a variable names. -/
def expandPartial (file : Path) (line : Int) (variableName : Text) : Expansion Text :=
  withValue variableName file line fun value => do
    let path := place.compiler.postsDirectory.child value
    if ← attempt ((place.tree.isFile path).mapError .denied) then
      note 2 ("including partial ".toList ++ path.toText)
      attempt (place.compiler.readText place.tree path file.name (some line))
    else
      fail (.partialMissing path) file line

/-- The value of a variable, or no text where it is assigned. -/
def expandVariable (file : Path) (directive : Directive) : Expansion Text := do
  match directive.value with
  | some value =>
    modify (·.assign directive.keyword value)
    note 3 (directive.keyword ++ " assigned".toList)
    return []
  | none => withValue directive.keyword file directive.line pure

/-- The text that a directive in `file` is replaced by. -/
def expandDirective (importFile : Path → Expansion Text) (file : Path) (directive : Directive) :
    Expansion Text := do
  let form := Registry.standard.find directive.keyword
  note 3 ("line ".toList ++ Text.ofInt directive.line ++ ": ".toList ++ directive.keyword)
  match form.category, directive.value with
  | .values, _ => expandVariable file directive
  | .imports, some value =>
    concat (place.expandEntry importFile file directive) (value.splitOn ',')
  | .partials, some value => place.expandPartial file directive.line value
  | _, none =>
    fail (.valueMissing directive.keyword (Text.strip directive.source)) file directive.line

def expandPiece (importFile : Path → Expansion Text) (file : Path) : Piece → Expansion Text
  | .literal text => pure text
  | .directive directive => place.expandDirective importFile file directive
  | .broken problem line => fail (.unreadable problem) file line

/-- The expansion of a source that stands in `file`. -/
def expandSource (importFile : Path → Expansion Text) (file : Path) (source : Text) :
    Expansion Text := do
  note 3 (Text.ofNat (Token.split source).length ++ " tokens".toList)
  concat (place.expandPiece importFile file) (Piece.ofSource source)

/-- The expansion of a file, with room for so many files open inside one another. -/
def compileFileWithin : (room : Nat) → Path → Expansion Text
  | 0, _ => throw .tooDeep
  | room + 1, path =>
    inside path <| tagged path.name do
      let source ← attempt (place.compiler.readText place.tree path [] none)
      place.expandSource (compileFileWithin room) path source

/-- Room for every file under each of the two spellings of its path from the root, and for the file
that an expansion begins with. -/
def room : Nat := 2 * place.tree.entries.length + 1

/-- The expansion of a file. -/
def compileFile (path : Path) : Expansion Text := place.compileFileWithin place.room path

/-- The expansion of a source that is not read from the tree but stands in for `file`. -/
def expandText (file : Path) (source : Text) : Expansion Text :=
  place.expandSource place.compileFile file source

end Workplace

end KitTemplate
