import KitTemplate.Proofs.Compilation.Effect
import KitTemplate.Proofs.Expansion.Journal
import KitTemplate.Proofs.FileTree.Likeness
import KitTemplate.Proofs.Import.Termination

/-! Compilations side by side. -/

namespace KitTemplate

open FileTree

/-! ### Expansions on trees that are the same -/

section Same

variable {tree after : FileTree} (hsame : tree.Same after) (compiler : Compiler)

include hsame

theorem Import.resolve_eq_of_same (folders : List Path) (target : Path) :
    Import.resolve after folders target = Import.resolve tree folders target := by
  have hfirst (paths : List Path) :
      Import.firstFile after paths = Import.firstFile tree paths := by
    induction paths with
    | nil => rfl
    | cons path rest ih => rw [Import.firstFile, Import.firstFile, hsame.isFile_eq, ih]
  simp only [Import.resolve, hsame.isFile_eq, hfirst]

namespace Workplace

theorem expandFound_eq_of_same (importFile : Path → Expansion Text) :
    expandFound ⟨compiler, after⟩ importFile = expandFound ⟨compiler, tree⟩ importFile := by
  funext file directive found
  simp only [expandFound, hsame.readText_eq]

theorem expandEntry_eq_of_same (importFile : Path → Expansion Text) :
    expandEntry ⟨compiler, after⟩ importFile = expandEntry ⟨compiler, tree⟩ importFile := by
  have htarget (file : Path) (spec : Text) :
      target ⟨compiler, after⟩ file spec = target ⟨compiler, tree⟩ file spec := by
    rw [target, target, hsame.workingDirectory]
  have hfind (target : Path) :
      findFile ⟨compiler, after⟩ target = findFile ⟨compiler, tree⟩ target := by
    rw [findFile, findFile, Compiler.folders, Compiler.folders, hsame.workingDirectory,
      Import.resolve_eq_of_same hsame]
  funext file directive entry
  simp only [expandEntry, htarget, hfind, expandFound_eq_of_same hsame compiler]

theorem expandSource_eq_of_same (importFile : Path → Expansion Text) :
    expandSource ⟨compiler, after⟩ importFile = expandSource ⟨compiler, tree⟩ importFile := by
  have hdirective : expandDirective ⟨compiler, after⟩ importFile =
      expandDirective ⟨compiler, tree⟩ importFile := by
    funext file directive
    simp only [expandDirective, expandEntry_eq_of_same hsame compiler, expandPartial,
      hsame.isFile_eq, hsame.readText_eq]
  funext file source
  have hpiece : expandPiece ⟨compiler, after⟩ importFile file =
      expandPiece ⟨compiler, tree⟩ importFile file := by
    funext piece
    cases piece with
    | directive directive => exact congrFun₂ hdirective file directive
    | _ => rfl
  rw [expandSource, expandSource, hpiece]

theorem compileFileWithin_eq_of_same (room : Nat) :
    compileFileWithin ⟨compiler, after⟩ room = compileFileWithin ⟨compiler, tree⟩ room := by
  induction room with
  | zero => rfl
  | succ room ih =>
      funext path
      simp only [compileFileWithin, hsame.readText_eq, ih, expandSource_eq_of_same hsame compiler]

/-- Room for the files of both trees makes each expansion what it is. -/
theorem compileFile_eq_of_same :
    compileFile ⟨compiler, after⟩ = compileFile ⟨compiler, tree⟩ := by
  have hroom := ncard_findable_lt_room ⟨compiler, tree⟩
  have hroom' := ncard_findable_lt_room ⟨compiler, after⟩
  rw [← compileFileWithin_eq (hroom.trans_le (le_max_left _ (room ⟨compiler, after⟩))),
    ← compileFileWithin_eq (hroom'.trans_le (le_max_right (room ⟨compiler, tree⟩) _)),
    compileFileWithin_eq_of_same hsame]

theorem expandText_eq_of_same :
    expandText ⟨compiler, after⟩ = expandText ⟨compiler, tree⟩ := by
  funext file source
  rw [expandText, expandText, compileFile_eq_of_same hsame, expandSource_eq_of_same hsame]

end Workplace

end Same

/-! ### Work side by side -/

/-- Outcomes of one kind: successes with related values, or failures with the same fault. The states
that are left behind are related in both cases. -/
inductive Parallel {ε σ α β : Type} (states : σ → σ → Prop) (values : α → β → Prop) :
    EStateM.Result ε σ α → EStateM.Result ε σ β → Prop
  | ok {value : α} {value' : β} {state state' : σ} (hvalue : values value value')
      (hstate : states state state') : Parallel states values (.ok value state) (.ok value' state')
  | error {fault : ε} {state state' : σ} (hstate : states state state') :
      Parallel states values (.error fault state) (.error fault state')

theorem Parallel.mono {ε σ α β : Type} {states states' : σ → σ → Prop} {values values' : α → β → Prop}
    {first : EStateM.Result ε σ α} {second : EStateM.Result ε σ β}
    (hparallel : Parallel states values first second)
    (hstates : ∀ state state', states state state' → states' state state')
    (hvalues : ∀ value value', values value value' → values' value value') :
    Parallel states' values' first second := by
  cases hparallel with
  | ok hvalue hstate => exact .ok (hvalues _ _ hvalue) (hstates _ _ hstate)
  | error hstate => exact .error (hstates _ _ hstate)

theorem Parallel.exists_of_ok {ε σ α β : Type} {states : σ → σ → Prop} {values : α → β → Prop}
    {second : EStateM.Result ε σ β} {value : α} {state : σ}
    (hparallel : Parallel states values (.ok value state) second) :
    ∃ value' state', second = .ok value' state' ∧ values value value' ∧ states state state' := by
  cases hparallel with
  | ok hvalue hstate => exact ⟨_, _, rfl, hvalue, hstate⟩

/-- Work that has outcomes of one kind with other work, from all states that are related. -/
def GoesAlong {ε σ α β : Type} (states : σ → σ → Prop) (values : α → β → Prop)
    (work : EStateM ε σ α) (work' : EStateM ε σ β) : Prop :=
  ∀ state state', states state state' → Parallel states values (work.run state) (work'.run state')

namespace GoesAlong

variable {ε σ α β γ δ : Type} {states : σ → σ → Prop} {values : α → β → Prop}

theorem pure {value : α} {value' : β} (hvalue : values value value') :
    GoesAlong states values (pure value : EStateM ε σ α) (pure value') :=
  fun _ _ hstates => .ok hvalue hstates

theorem throw (fault : ε) :
    GoesAlong states values (throw fault : EStateM ε σ α) (throw fault) :=
  fun _ _ hstates => .error hstates

theorem get : GoesAlong states states (get : EStateM ε σ σ) get :=
  fun _ _ hstates => .ok hstates hstates

theorem modify {change change' : σ → σ}
    (hchange : ∀ state state', states state state' → states (change state) (change' state')) :
    GoesAlong states Eq (modify change : EStateM ε σ Unit) (modify change') :=
  fun state state' hstates => .ok rfl (hchange state state' hstates)

theorem bind {further : γ → δ → Prop} {work : EStateM ε σ α} {work' : EStateM ε σ β}
    {next : α → EStateM ε σ γ} {next' : β → EStateM ε σ δ}
    (hwork : GoesAlong states values work work')
    (hnext : ∀ value value', values value value' →
      GoesAlong states further (next value) (next' value')) :
    GoesAlong states further (work >>= next) (work' >>= next') := by
  intro state state' hstates
  have hreached := hwork state state' hstates
  rw [EStateM.run_bind, EStateM.run_bind]
  generalize work.run state = outcome at hreached
  generalize work'.run state' = outcome' at hreached
  cases hreached with
  | ok hvalue hstate => exact hnext _ _ hvalue _ _ hstate
  | error hstate => exact .error hstate

end GoesAlong

/-- Workspaces whose trees are alike, where the journal of the second is that of the first with some
change. -/
structure Workspace.Alike (like : FileTree → FileTree → Prop) (change : Journal → Journal)
    (first second : Workspace) : Prop where
  tree : like first.tree second.tree
  journal : second.journal = change first.journal

theorem Parallel.left {α β : Type} {states : Workspace → Workspace → Prop} {values : α → β → Prop}
    {first : EStateM.Result Fault Workspace α} {second : EStateM.Result Fault Workspace β}
    (hparallel : Parallel states values first second) :
    states (Work.left first) (Work.left second) := by
  cases hparallel <;> assumption

/-- Work that goes along with itself from workspaces that are alike. -/
def Work.IsSteady {α : Type} (like : FileTree → FileTree → Prop) (change : Journal → Journal)
    (work : Work α) : Prop :=
  GoesAlong (Workspace.Alike like change) Eq work work

namespace Work

variable {α β : Type} {like : FileTree → FileTree → Prop} {change : Journal → Journal}

theorem steady_pure (value : α) : IsSteady like change (pure value : Work α) := .pure rfl

theorem steady_throw (fault : Fault) : IsSteady like change (throw fault : Work α) := .throw fault

theorem steady_bind {work : Work α} {next : α → Work β} (hwork : IsSteady like change work)
    (hnext : ∀ value, IsSteady like change (next value)) :
    IsSteady like change (work >>= next) := by
  refine hwork.bind ?_
  rintro value _ rfl
  exact hnext value

theorem steady_note (hchange : Journal.IsUnnoticed change) {level : Int}
    (hlevel : 1 ≤ level ∧ level ≤ 3) (message : Text) :
    IsSteady like change (Work.note level message) := by
  refine .modify fun first second halike => ⟨halike.tree, ?_⟩
  rw [halike.journal]
  exact hchange.note first.journal level message hlevel

end Work

namespace Compiler

open Work Workplace

variable {like : FileTree → FileTree → Prop} {change : Journal → Journal}
  (hlike : IsLikeness like) (hchange : Journal.IsUnnoticed change) {compiler : Compiler}

include hlike in
theorem steady_write (path : Path) (text : Text) :
    IsSteady like change (compiler.write path text) := by
  intro first second halike
  obtain ⟨htree, hresult⟩ := hlike.writeText halike.tree compiler path text
  rw [run_write, run_write, hresult]
  exact .ok rfl ⟨htree, halike.journal⟩

include hlike in
theorem steady_expand {work : Workplace → Expansion Text}
    (hsame : ∀ tree after : FileTree, tree.Same after →
      work ⟨compiler, after⟩ = work ⟨compiler, tree⟩)
    (hcommutes : ∀ place, Commutes (Context.mapJournal change) (work place)) :
    IsSteady like change (compiler.expand work) := by
  intro first second halike
  have hexpansion : compiler.expansionFrom second work =
      Expansion.mapContext (Context.mapJournal change) (compiler.expansionFrom first work) := by
    rw [expansionFrom, expansionFrom, hsame _ _ (hlike.same halike.tree), halike.journal]
    exact hcommutes _ { journal := first.journal }
  rw [run_expand, run_expand, hexpansion]
  cases compiler.expansionFrom first work <;> exact .ok rfl ⟨halike.tree, rfl⟩

include hchange in
theorem steady_settleFault (fault : Fault) : IsSteady like change (settleFault fault) := by
  cases fault with
  | template error =>
      exact steady_bind (steady_note hchange (by decide) _) fun _ => steady_pure _
  | _ => exact steady_throw _

include hlike hchange

theorem steady_complete {work : Workplace → Expansion Text}
    (hsame : ∀ tree after : FileTree, tree.Same after →
      work ⟨compiler, after⟩ = work ⟨compiler, tree⟩)
    (hcommutes : ∀ place, Commutes (Context.mapJournal change) (work place))
    (output : Option Path) : IsSteady like change (compiler.complete work output) := by
  refine steady_bind (steady_expand hlike hsame hcommutes) fun expansion => ?_
  cases expansion with
  | error fault => exact steady_settleFault hchange fault
  | ok text =>
      cases output with
      | none => exact steady_pure _
      | some path =>
          refine steady_bind (steady_write hlike path text) fun written => ?_
          cases written with
          | error fault => exact steady_settleFault hchange fault
          | ok => exact steady_bind (steady_note hchange (by decide) _) fun _ => steady_pure _

/-- The compilation of a file. -/
theorem steady_compile (file : Path) (output : Option Path) :
    IsSteady like change (compiler.compile file output) := by
  refine GoesAlong.bind .get fun first second halike => ?_
  rw [(hlike.same halike.tree).workingDirectory]
  refine steady_bind (steady_note hchange (by decide) _) fun _ => ?_
  refine steady_complete hlike hchange (fun tree after hsame => ?_)
    (fun place => place.commutes_compileFile hchange _) output
  rw [compileFile_eq_of_same hsame]

/-- The compilation of a source. -/
theorem steady_compileSource (source : Text) (file : Path) (output : Option Path) :
    IsSteady like change (compiler.compileSource source file output) := by
  refine GoesAlong.bind .get fun first second halike => ?_
  rw [(hlike.same halike.tree).workingDirectory]
  refine steady_bind (steady_note hchange (by decide) _) fun _ => ?_
  refine steady_complete hlike hchange (fun tree after hsame => ?_)
    (fun place => place.commutes_expandText hchange _ source) output
  rw [expandText_eq_of_same hsame]

end Compiler

end KitTemplate
