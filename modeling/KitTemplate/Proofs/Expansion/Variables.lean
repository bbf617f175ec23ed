import KitTemplate.Proofs.Expansion.Performance

/-! Variables across files. The script of a file is made before any variable has a value, and the
expansion of the file is one pass over it. At each of its events a variable has the value that the
last assignment before the event gave to it, in whatever file that assignment stands, or else the
value that it had at the beginning. -/

namespace KitTemplate.Workplace

open Expansion

variable (place : Workplace)

/-- The value that an event assigns to a variable. -/
def assigned? (name : Text) : Event → Option Text
  | .assign other value => if name = other then some value else none
  | _ => none

/-- The value that the last assignment of a script gives to a variable. -/
def lastAssigned? (name : Text) (events : List Event) : Option Text :=
  events.reverse.findSome? (assigned? name)

theorem lastAssigned?_cons (name : Text) (event : Event) (rest : List Event) :
    lastAssigned? name (event :: rest) = (lastAssigned? name rest).or (assigned? name event) := by
  simp only [lastAssigned?, List.reverse_cons, List.findSome?_append, List.findSome?_cons,
    List.findSome?_nil]
  cases assigned? name event <;> rfl

theorem keepsBindings_act (event : Event) (hassign : ∀ name value, event ≠ .assign name value) :
    Keeps (·.bindings) (place.act event) :=
  place.keeps_act (fun _ _ => rfl) (fun _ _ _ => rfl) fun name value hevent =>
    absurd hevent (hassign name value)

/-- An event gives a value to the variable that it assigns, and to no other one. -/
theorem lookup_bindings_act (event : Event) (name : Text) (context : Context) :
    (ending ((place.act event).run context)).bindings.lookup name =
      (assigned? name event).or (context.bindings.lookup name) := by
  cases event with
  | assign other value =>
      show (Table.put other value context.bindings).lookup name = _
      rw [assigned?]
      split
      · rename_i hname
        rw [hname]
        exact Table.lookup_put_self other value context.bindings
      · rename_i hname
        exact Table.lookup_put_of_ne hname value context.bindings
  | _ =>
      refine congrArg (List.lookup name) (place.keepsBindings_act _ ?_ context)
      intro _ _ hevent
      cases hevent

theorem lookup_bindings_perform {events : List Event} {context reached : Context} {text : Text}
    (hrun : (place.perform events).run context = .ok text reached) (name : Text) :
    reached.bindings.lookup name =
      (lastAssigned? name events).or (context.bindings.lookup name) := by
  induction events generalizing context text with
  | nil =>
      obtain ⟨-, rfl⟩ := EStateM.Result.ok.inj hrun
      rfl
  | cons event rest ih =>
      obtain ⟨first, middle, more, hact, hrest, -⟩ := (run_concat_cons_eq_ok context).1 hrun
      have hmiddle := place.lookup_bindings_act event name context
      rw [hact] at hmiddle
      rw [ih hrest, lastAssigned?_cons, Option.or_assoc, ← hmiddle]
      rfl

/-- Where a file of the posts directory is included, the variable has a value, and this names a file
that can be read. -/
theorem exists_of_expandPartial {file : Path} {line : Int} {name text : Text}
    {context ended : Context}
    (hrun : (place.expandPartial file line name).run context = .ok text ended) :
    ∃ value, context.bindings.lookup name = some value ∧
      let path := place.compiler.postsDirectory.child value
      place.tree.isFile path = .ok true ∧
        place.compiler.readText place.tree path file.name (some line) = .ok text := by
  rw [expandPartial, run_withValue] at hrun
  cases hvalue : context.bindings.lookup name with
  | none =>
      rw [hvalue] at hrun
      cases hrun
  | some value =>
      rw [hvalue] at hrun
      refine ⟨value, rfl, ?_⟩
      obtain ⟨found, reached, hfile, hfound⟩ := (run_bind_eq_ok context).1 hrun
      cases hisFile : place.tree.isFile (place.compiler.postsDirectory.child value) with
      | error denial =>
          rw [hisFile] at hfile
          cases hfile
      | ok own =>
          rw [hisFile] at hfile
          obtain ⟨rfl, -⟩ := EStateM.Result.ok.inj hfile
          cases own with
          | false => cases hfound
          | true =>
              refine ⟨hisFile, ?_⟩
              obtain ⟨_, noted, -, hattempt⟩ := (run_bind_eq_ok reached).1 hfound
              cases hread : place.compiler.readText place.tree
                  (place.compiler.postsDirectory.child value) file.name (some line) with
              | error fault =>
                  rw [hread] at hattempt
                  cases hattempt
              | ok content =>
                  rw [hread] at hattempt
                  obtain ⟨rfl, -⟩ := EStateM.Result.ok.inj hattempt
                  rfl

/-- Whether a file of the posts directory can be included is a matter of the variable's value. -/
theorem run_expandPartial {file : Path} {line : Int} {name value text : Text} {context : Context}
    (hvalue : context.bindings.lookup name = some value)
    (hfile : place.tree.isFile (place.compiler.postsDirectory.child value) = .ok true)
    (hread : place.compiler.readText place.tree (place.compiler.postsDirectory.child value)
      file.name (some line) = .ok text) :
    (place.expandPartial file line name).run context = .ok text (context.note 2
      ("including partial ".toList ++ (place.compiler.postsDirectory.child value).toText)) := by
  rw [expandPartial, run_withValue, hvalue]
  dsimp only [Option.elim]
  rw [hfile, hread]
  rfl

/-- The expansion of a file is one pass over its script, which is made without the variables.
Wherever the pass is on its way, a variable has the value last assigned to it, or else the one that
it began with; and where an event fails, the pass ends with the variables as they were before it. -/
theorem compileFile_performs_script (path : Path) (ancestry : List Path)
    (bindings : List (Text × Text)) (journal : Journal) :
    let script := place.script ancestry path
    let initial : Context := { bindings, ancestry, journal }
    (place.compileFile path).run initial = (place.perform script).run initial ∧
      (∀ count, match (place.perform (script.take count)).run initial with
        | .ok _ reached => ∀ name, reached.bindings.lookup name =
            (lastAssigned? name (script.take count)).or (bindings.lookup name)
        | .error _ _ => True) ∧
      match (place.compileFile path).run initial with
      | .ok _ ended => ended.ancestry = ancestry
      | .error fault ended => ended.ancestry = ancestry ∧
          ∃ passed event rest text reached, script = passed ++ event :: rest ∧
            (place.perform passed).run initial = .ok text reached ∧
            (place.act event).run reached = .error fault ended ∧
            ended.bindings = reached.bindings := by
  intro script initial
  have hpass : (place.compileFile path).run initial = (place.perform script).run initial := by
    rw [compileFile, run_compileFileWithin, ← place.perform_untilStop]
    rfl
  have hancestry := place.keepsAncestry_perform script initial
  refine ⟨hpass, fun count => ?_, ?_⟩
  · split
    · rename_i text reached hrun
      exact place.lookup_bindings_perform hrun
    · trivial
  · rw [hpass]
    cases hrun : (place.perform script).run initial with
    | ok text ended =>
        rw [hrun] at hancestry
        exact hancestry
    | error fault ended =>
        rw [hrun] at hancestry
        obtain ⟨passed, event, rest, text, reached, hscript, hpassed, hact⟩ :=
          exists_of_run_concat hrun
        refine ⟨hancestry, passed, event, rest, text, reached, hscript, hpassed, hact, ?_⟩
        have hbindings := place.keepsBindings_act event ?_ reached
        · rw [hact] at hbindings
          exact hbindings
        · rintro name value rfl
          cases hact

end KitTemplate.Workplace
