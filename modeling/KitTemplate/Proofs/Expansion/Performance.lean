import KitTemplate.Proofs.Expansion.Script

/-! The expansion of a file performs its script (`run_compileFileWithin`). Work done with given
files open performs a script if it does the same as the script from every context in which these
files are open. Performing leaves these files open and the tag as it is, so the scripts of two
pieces of work, one after the other, may be put together; and it does not look at them, so the
script of a file may be performed where the file is not open yet. -/

namespace KitTemplate.Workplace

open Expansion

variable (place : Workplace)

/-! ### What performing leaves behind -/

/-- The context that work leaves behind. -/
def ending {α : Type} : EStateM.Result Fault Context α → Context
  | .ok _ context => context
  | .error _ context => context

theorem ending_append (work next : Expansion Text) (context : Context) :
    ending (EStateM.run (do let text ← work; return text ++ (← next)) context) =
      match work.run context with
      | .ok _ reached => ending (next.run reached)
      | .error _ ended => ended := by
  rw [EStateM.run_bind]
  cases work.run context with
  | error fault ended => rfl
  | ok text reached =>
      dsimp only
      rw [EStateM.run_bind]
      cases next.run reached <;> rfl

/-- What every event of a script preserves, also where it fails, performing the script preserves. -/
theorem preserves_perform {invariant : Context → Prop} {events : List Event}
    (hact : ∀ event ∈ events, ∀ context, invariant context →
      invariant (ending ((place.act event).run context))) {context : Context}
    (hcontext : invariant context) :
    invariant (ending ((place.perform events).run context)) := by
  induction events generalizing context with
  | nil => exact hcontext
  | cons event rest ih =>
      obtain ⟨hevent, hrest⟩ := List.forall_mem_cons.1 hact
      have hreached := hevent context hcontext
      rw [perform_cons, ending_append]
      cases hrun : (place.act event).run context with
      | error fault ended | ok text ended =>
          rw [hrun] at hreached
          first | exact hreached | exact ih hrest hreached

/-- Work that leaves a view of the context as it is, also if it fails. -/
def Keeps {α γ : Type} (view : Context → γ) (work : Expansion α) : Prop :=
  ∀ context, view (ending (work.run context)) = view context

section Keeps

variable {α β γ : Type} {view : Context → γ}

theorem keeps_pure (value : α) : Keeps view (pure value : Expansion α) := fun _ => rfl

theorem keeps_attempt (outcome : Except Fault α) : Keeps view (attempt outcome) := by
  intro context
  cases outcome <;> rfl

theorem keeps_bind {work : Expansion α} {next : α → Expansion β} (hwork : Keeps view work)
    (hnext : ∀ value, Keeps view (next value)) : Keeps view (work >>= next) := by
  intro context
  have hreached := hwork context
  rw [EStateM.run_bind]
  cases hrun : work.run context with
  | error fault reached =>
      rw [hrun] at hreached
      exact hreached
  | ok value reached =>
      rw [hrun] at hreached
      exact (hnext value reached).trans hreached

theorem keeps_withValue (name : Text) (file : Path) (line : Int) {work : Text → Expansion α}
    (hwork : ∀ value, Keeps view (work value)) : Keeps view (withValue name file line work) := by
  intro context
  rw [run_withValue]
  cases context.bindings.lookup name with
  | none => rfl
  | some value => exact hwork value context

theorem keeps_tagged (hview : ∀ context tag, view (context.withTag tag) = view context) (tag : Text)
    {work : Expansion α} (hwork : Keeps view work) : Keeps view (tagged tag work) := by
  intro context
  have hended := hwork (context.withTag tag)
  rw [run_tagged]
  cases hrun : work.run (context.withTag tag) with
  | ok value ended | error fault ended =>
      rw [hrun] at hended
      calc view (ended.withTag context.journal.tag)
          = view ended := hview ended context.journal.tag
        _ = view (context.withTag tag) := hended
        _ = view context := hview context tag

theorem keeps_expandPartial (hnote : ∀ message, Keeps view (note 2 message)) (file : Path)
    (line : Int) (name : Text) : Keeps view (place.expandPartial file line name) := by
  apply keeps_withValue
  intro value
  apply keeps_bind (keeps_attempt _)
  intro found
  cases found with
  | false => exact fun _ => rfl
  | true => exact keeps_bind (hnote _) fun _ => keeps_attempt _

/-- A view that is the same after a note under any tag is left as it is by every event but an
assignment. -/
theorem keeps_act (hview : ∀ context tag, view (context.withTag tag) = view context)
    (hnote : ∀ level message, Keeps view (note level message)) {event : Event}
    (hassign : ∀ name value, event = .assign name value →
      ∀ context, view (context.assign name value) = view context) :
    Keeps view (place.act event) := by
  cases event with
  | text text => exact keeps_pure text
  | note tag level message =>
      exact keeps_tagged hview tag (keeps_bind (hnote level message) fun _ => keeps_pure [])
  | assign name value => exact hassign name value rfl
  | use name file line => exact keeps_withValue name file line keeps_pure
  | insert tag name file line =>
      exact keeps_tagged hview tag (place.keeps_expandPartial (hnote 2) file line name)
  | stop fault => exact fun _ => rfl

theorem keeps_perform (hact : ∀ event, Keeps view (place.act event)) (events : List Event) :
    Keeps view (place.perform events) := by
  intro context
  refine @preserves_perform place (fun reached => view reached = view context) events ?_ context rfl
  exact fun event _ reached hreached => (hact event reached).trans hreached

end Keeps

theorem keepsTag_note (level : Int) (message : Text) :
    Keeps (·.journal.tag) (note level message) :=
  fun context => context.journal.tag_noteAs _ level message

theorem keepsTag_act (event : Event) : Keeps (·.journal.tag) (place.act event) := by
  cases event with
  | text text => exact keeps_pure text
  | note tag level message | insert tag name file line =>
      -- the tag is put back, whatever happens under the other one
      intro context
      rw [act, run_tagged]
      cases EStateM.run _ (context.withTag tag) <;> rfl
  | assign name value => exact fun _ => rfl
  | use name file line => exact keeps_withValue name file line keeps_pure
  | stop fault => exact fun _ => rfl

theorem keepsAncestry_perform (events : List Event) :
    Keeps (·.ancestry) (place.perform events) :=
  place.keeps_perform
    (fun _ => place.keeps_act (fun _ _ => rfl) (fun _ _ _ => rfl) fun _ _ _ _ => rfl) events

theorem keepsTag_perform (events : List Event) : Keeps (·.journal.tag) (place.perform events) :=
  place.keeps_perform place.keepsTag_act events

/-- A tag that notes have already changes nothing. -/
theorem run_tagged_self {α : Type} {tag : Text} {work : Expansion α}
    (hwork : Keeps (·.journal.tag) work) {context : Context} (htag : context.journal.tag = tag) :
    (tagged tag work).run context = work.run context := by
  subst htag
  have hkept : (ending (work.run context)).journal.tag = context.journal.tag := hwork context
  rw [run_tagged]
  show mapContext (·.withTag context.journal.tag) (work.run context) = work.run context
  cases hrun : work.run context with
  | ok value ended | error fault ended =>
      rw [hrun] at hkept
      rw [← hkept]
      rfl

/-! ### Scripts of work -/

/-- Work that does what a script says wherever the files of `ancestry` are open and notes have that
tag. -/
def Performs (ancestry : List Path) (tag : Text) (work : Expansion Text)
    (events : List Event) : Prop :=
  ∀ context : Context, context.ancestry = ancestry → context.journal.tag = tag →
    work.run context = (place.perform events).run context

variable {place} {ancestry : List Path} {tag : Text}

/-- Work that does what a script says leaves the files open that were. -/
theorem Performs.ancestry_eq {work : Expansion Text} {events : List Event}
    {context reached : Context} {text : Text}
    (hwork : place.Performs context.ancestry context.journal.tag work events)
    (hrun : work.run context = .ok text reached) : reached.ancestry = context.ancestry := by
  have hkept := place.keepsAncestry_perform events context
  rw [← hwork context rfl rfl, hrun] at hkept
  exact hkept

theorem performs_nil : place.Performs ancestry tag (pure []) [] := fun _ _ _ => rfl

theorem performs_text (text : Text) :
    place.Performs ancestry tag (pure text) [.text text] := by
  intro context _ _
  simp only [perform_cons, perform_nil, act, pure_bind, List.append_nil]

theorem performs_stop (fault : Fault) :
    place.Performs ancestry tag (attempt (.error fault)) [.stop fault] :=
  fun _ _ _ => rfl

theorem performs_attempt (outcome : Except Fault Text) :
    place.Performs ancestry tag (attempt outcome)
      (match outcome with
      | .ok text => [.text text]
      | .error fault => [.stop fault]) := by
  cases outcome with
  | error fault => exact performs_stop fault
  | ok text => exact performs_text text

theorem performs_note {level : Int} {message : Text} {work : Expansion Text}
    {events : List Event} (hwork : place.Performs ancestry tag work events) :
    place.Performs ancestry tag (do note level message; work)
      (.note tag level message :: events) := by
  intro context hancestry htag
  have hkeeps : Keeps (·.journal.tag) (do note level message; return ([] : Text)) :=
    keeps_bind (keepsTag_note level message) fun _ => keeps_pure []
  have hnoted := hwork (context.note level message) hancestry
    ((context.journal.tag_noteAs _ level message).trans htag)
  rw [perform_cons, act, EStateM.run_bind, EStateM.run_bind, run_tagged_self hkeeps htag]
  simp only [EStateM.run_bind, run_note, EStateM.run_pure, List.nil_append, bind_pure, hnoted]

theorem performs_assign {name value : Text} {work : Expansion Text} {events : List Event}
    (hwork : place.Performs ancestry tag work events) :
    place.Performs ancestry tag (do modify (·.assign name value); work)
      (.assign name value :: events) := by
  intro context hancestry htag
  have hassigned := hwork (context.assign name value) hancestry htag
  rw [perform_cons, act, EStateM.run_bind, EStateM.run_bind]
  simp only [EStateM.run_bind, EStateM.run_modify, EStateM.run_pure, List.nil_append, bind_pure,
    hassigned]

theorem performs_append {work rest : Expansion Text} {first second : List Event}
    (hwork : place.Performs ancestry tag work first)
    (hrest : place.Performs ancestry tag rest second) :
    place.Performs ancestry tag (do let text ← work; return text ++ (← rest))
      (first ++ second) := by
  intro context hancestry htag
  have hancestry' := place.keepsAncestry_perform first context
  have htag' := place.keepsTag_perform first context
  rw [perform_append, EStateM.run_bind, EStateM.run_bind, hwork context hancestry htag]
  cases hrun : (place.perform first).run context with
  | error fault ended => rfl
  | ok text reached =>
      rw [hrun] at hancestry' htag'
      dsimp only
      rw [EStateM.run_bind, EStateM.run_bind,
        hrest reached (hancestry'.trans hancestry) (htag'.trans htag)]

theorem performs_variable (file : Path) (directive : Directive) :
    place.Performs ancestry tag (expandVariable file directive)
      (variableScript tag file directive) := by
  rw [expandVariable, variableScript]
  cases directive.value with
  | some value => exact performs_assign (performs_note performs_nil)
  | none =>
      intro context _ _
      simp only [perform_cons, perform_nil, act, pure_bind, List.append_nil, bind_pure]

theorem performs_insert (file : Path) (line : Int) (name : Text) :
    place.Performs ancestry tag (place.expandPartial file line name)
      [.insert tag name file line] := by
  intro context _ htag
  simp only [perform_cons, perform_nil, act, pure_bind, List.append_nil, bind_pure,
    run_tagged_self (place.keeps_expandPartial (keepsTag_note 2) file line name) htag]

section Imports

variable {importFile : Path → Expansion Text} {importScript : Path → List Event}
  (himport : ∀ found, place.Performs ancestry tag (importFile found) (importScript found))

include himport in
theorem performs_found (file : Path) (directive : Directive) (found : Path) :
    place.Performs ancestry tag (place.expandFound importFile file directive found)
      (place.foundScript importScript ancestry tag file directive found) := by
  rw [expandFound, foundScript]
  split
  · intro context hancestry htag
    rw [EStateM.run_bind, EStateM.run_get]
    simp only [Context.isOpen, hancestry]
    split
    · rfl
    · exact performs_note (himport found) context hancestry htag
  · exact performs_note (performs_attempt _)

include himport in
theorem performs_entry (file : Path) (directive : Directive) (entry : Text) :
    place.Performs ancestry tag (place.expandEntry importFile file directive entry)
      (place.entryScript importScript ancestry tag file directive entry) := by
  rw [expandEntry, entryScript]
  split
  · exact performs_stop _
  cases place.target file (Import.clean entry) with
  | error fault => exact performs_stop fault
  | ok target =>
      simp only [attempt_ok, pure_bind, findFile]
      cases Import.resolve place.tree (place.compiler.folders place.tree) target with
      | error fault => exact performs_stop fault
      | ok found =>
          cases found with
          | none => exact performs_stop _
          | some found =>
              have hfound := performs_found himport file directive found
              simp only [attempt_ok, pure_bind, resolutionScript]
              split
              · exact performs_note hfound
              · exact hfound

include himport in
theorem performs_entries (file : Path) (directive : Directive) (entries : List Text) :
    place.Performs ancestry tag (concat (place.expandEntry importFile file directive) entries)
      (entries.flatMap (place.entryScript importScript ancestry tag file directive)) := by
  induction entries with
  | nil => exact performs_nil
  | cons entry rest ih =>
      rw [concat, List.flatMap_cons]
      exact performs_append (performs_entry himport file directive entry) ih

include himport in
theorem performs_directive (file : Path) (directive : Directive) :
    place.Performs ancestry tag (place.expandDirective importFile file directive)
      (place.directiveScript importScript ancestry tag file directive) := by
  apply performs_note
  cases (Registry.standard.find directive.keyword).category with
  | values => exact performs_variable file directive
  | imports =>
      cases directive.value with
      | none => exact performs_stop _
      | some value => exact performs_entries himport file directive _
  | partials =>
      cases directive.value with
      | none => exact performs_stop _
      | some value => exact performs_insert file directive.line value

include himport in
theorem performs_piece (file : Path) (piece : Piece) :
    place.Performs ancestry tag (place.expandPiece importFile file piece)
      (place.pieceScript importScript ancestry tag file piece) := by
  cases piece with
  | literal text => exact performs_text text
  | directive directive => exact performs_directive himport file directive
  | broken problem line => exact performs_stop _

include himport in
theorem performs_pieces (file : Path) (pieces : List Piece) :
    place.Performs ancestry tag (concat (place.expandPiece importFile file) pieces)
      (pieces.flatMap (place.pieceScript importScript ancestry tag file)) := by
  induction pieces with
  | nil => exact performs_nil
  | cons piece rest ih =>
      rw [concat, List.flatMap_cons]
      exact performs_append (performs_piece himport file piece) ih

include himport in
theorem performs_source (file : Path) (source : Text) :
    place.Performs ancestry tag (place.expandSource importFile file source)
      (place.sourceScript importScript ancestry tag file source) :=
  performs_note (performs_pieces himport file (Piece.ofSource source))

end Imports

/-! ### Files -/

/-- Work on which a change of the context has no influence. -/
def Commutes {α : Type} (change : Context → Context) (work : Expansion α) : Prop :=
  ∀ context, work.run (change context) = mapContext change (work.run context)

theorem commutes_bind {α β : Type} {change : Context → Context} {work : Expansion α}
    {next : α → Expansion β} (hwork : Commutes change work)
    (hnext : ∀ value, Commutes change (next value)) : Commutes change (work >>= next) := by
  intro context
  rw [EStateM.run_bind, EStateM.run_bind, hwork]
  cases work.run context with
  | error fault reached => rfl
  | ok value reached => exact hnext value reached

theorem commutes_attempt {α : Type} (change : Context → Context) (outcome : Except Fault α) :
    Commutes change (attempt outcome) := by
  intro context
  cases outcome <;> rfl

theorem commutes_withValue {α : Type} {change : Context → Context}
    (hchange : ∀ context, (change context).bindings = context.bindings) (name : Text) (file : Path)
    (line : Int) {work : Text → Expansion α} (hwork : ∀ value, Commutes change (work value)) :
    Commutes change (withValue name file line work) := by
  intro context
  rw [run_withValue, run_withValue, hchange]
  cases context.bindings.lookup name with
  | none => rfl
  | some value => exact hwork value context

theorem commutes_expandPartial {change : Context → Context}
    (hchange : ∀ context, (change context).bindings = context.bindings)
    (hnote : ∀ message, Commutes change (note 2 message)) (file : Path) (line : Int)
    (name : Text) : Commutes change (place.expandPartial file line name) := by
  apply commutes_withValue hchange
  intro value
  apply commutes_bind (commutes_attempt change _)
  intro found
  cases found with
  | false => exact fun _ => rfl
  | true => exact commutes_bind (hnote _) fun _ => commutes_attempt change _

/-- The context with other files open. -/
def inAncestry (ancestry : List Path) (context : Context) : Context := { context with ancestry }

/-- The context with other files open and another tag. -/
def movedTo (ancestry : List Path) (tag : Text) (context : Context) : Context :=
  (inAncestry ancestry context).withTag tag

theorem commutes_tagged {α : Type} (ancestry : List Path) {work : Expansion α}
    (hwork : Commutes (inAncestry ancestry) work) (outer tag : Text) :
    Commutes (movedTo ancestry outer) (tagged tag work) := by
  intro context
  have hmoved : (movedTo ancestry outer context).withTag tag =
    inAncestry ancestry (context.withTag tag) := rfl
  rw [run_tagged, run_tagged, hmoved, hwork]
  cases work.run (context.withTag tag) <;> rfl

theorem commutes_act (ancestry : List Path) (tag : Text) (event : Event) :
    Commutes (movedTo ancestry tag) (place.act event) := by
  cases event with
  | text text => exact fun _ => rfl
  | note own level message =>
      refine commutes_tagged ancestry ?_ tag own
      exact commutes_bind (fun _ => rfl) fun _ _ => rfl
  | assign name value => exact fun _ => rfl
  | use name file line =>
      have hbindings : ∀ context, (movedTo ancestry tag context).bindings = context.bindings :=
        fun _ => rfl
      exact commutes_withValue hbindings name file line fun _ _ => rfl
  | insert own name file line =>
      have hbindings : ∀ context, (inAncestry ancestry context).bindings = context.bindings :=
        fun _ => rfl
      refine commutes_tagged ancestry ?_ tag own
      exact place.commutes_expandPartial hbindings (fun _ _ => rfl) file line name
  | stop fault => exact fun _ => rfl

theorem commutes_perform (ancestry : List Path) (tag : Text) (events : List Event) :
    Commutes (movedTo ancestry tag) (place.perform events) := by
  induction events with
  | nil => exact fun _ => rfl
  | cons event rest ih =>
      exact commutes_bind (place.commutes_act ancestry tag event) fun _ =>
        commutes_bind ih fun _ _ => rfl

/-- What was opened is closed again, and the tag is what it was. -/
theorem leave_movedTo {context ended : Context} (path : Path)
    (hancestry : ended.ancestry = context.ancestry)
    (htag : ended.journal.tag = context.journal.tag) :
    ((movedTo (context.ancestry ++ [path]) path.name ended).withTag context.journal.tag).leave =
      ended := by
  rw [← hancestry, ← htag]
  simp only [Context.leave, Context.withTag, movedTo, inAncestry, List.dropLast_concat]

/-- Work done while a file is open performs its script also where the file is not open yet. -/
theorem run_inside_tagged {path : Path} {work : Expansion Text} {events : List Event}
    {context : Context} (hclosed : context.isOpen path = false)
    (hwork : place.Performs (context.ancestry ++ [path]) path.name work events) :
    (inside path (tagged path.name work)).run context = (place.perform events).run context := by
  have hopened : work.run (movedTo (context.ancestry ++ [path]) path.name context) =
      mapContext (movedTo (context.ancestry ++ [path]) path.name)
        ((place.perform events).run context) := by
    rw [hwork _ rfl rfl]
    exact place.commutes_perform _ _ events context
  have henter : context.enter path = .ok (inAncestry (context.ancestry ++ [path]) context) := by
    simp [Context.enter, hclosed, inAncestry]
  rw [run_inside, henter]
  show mapContext _ (mapContext _ (work.run (movedTo _ path.name context))) = _
  rw [hopened]
  have hancestry := place.keepsAncestry_perform events context
  have htag := place.keepsTag_perform events context
  cases hrun : (place.perform events).run context with
  | ok text ended =>
      rw [hrun] at hancestry htag
      exact congrArg _ (leave_movedTo path hancestry htag)
  | error fault ended =>
      rw [hrun] at hancestry htag
      exact congrArg _ (leave_movedTo path hancestry htag)

theorem run_inside_of_isOpen {α : Type} {path : Path} {context : Context}
    (hopen : context.isOpen path) (work : Expansion α) :
    (inside path work).run context = .error (.template ⟨.cycle, path.name, none⟩) context := by
  rw [run_inside, Context.enter, if_pos hopen]

/-- The expansion of a file performs the file's script. -/
theorem run_compileFileWithin (room : Nat) (path : Path) (context : Context) :
    (place.compileFileWithin room path).run context =
      (place.perform (place.scriptWithin room context.ancestry path)).run context := by
  induction room generalizing path context with
  | zero => rfl
  | succ room ih =>
      rw [compileFileWithin, scriptWithin]
      split
      · rename_i hopen
        rw [run_inside_of_isOpen hopen]
        rfl
      · rename_i hclosed
        apply run_inside_tagged (by simpa [Context.isOpen] using hclosed)
        cases place.compiler.readText place.tree path [] none with
        | error fault => exact performs_stop fault
        | ok source =>
            refine performs_source (fun found inner hancestry _ => ?_) path source
            rw [ih, hancestry]

theorem run_compileFile (path : Path) (context : Context) :
    (place.compileFile path).run context =
      (place.perform (place.script context.ancestry path)).run context := by
  rw [compileFile, run_compileFileWithin, script, perform_untilStop]

theorem performs_compileFile (found : Path) :
    place.Performs ancestry tag (place.compileFile found)
      (place.scriptWithin place.room ancestry found) := by
  rintro context rfl -
  exact place.run_compileFileWithin place.room found context

variable (place)

/-- The script of a source that is expanded in a context. -/
def textScript (context : Context) (file : Path) (source : Text) : List Event :=
  place.sourceScript (place.scriptWithin place.room context.ancestry) context.ancestry
    context.journal.tag file source

theorem run_textScript (file : Path) (source : Text) (context : Context) :
    (place.expandText file source).run context =
      (place.perform (place.textScript context file source)).run context :=
  performs_source performs_compileFile file source context rfl rfl

end KitTemplate.Workplace
