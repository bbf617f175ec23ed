import KitTemplate.Proofs.Compilation.Outcome

/-! What work changes. Work moves a tree along a relation if the tree that it leaves, also when a
fault ends it, is related to the one that it began with. For a relation that is reflexive and
transitive this may be shown step by step. A compilation changes the tree only as it writes its
page. -/

namespace KitTemplate

namespace Work

variable {α β : Type} {relation : FileTree → FileTree → Prop}

/-- The workspace that work leaves behind. -/
def left : EStateM.Result Fault Workspace α → Workspace
  | .ok _ workspace => workspace
  | .error _ workspace => workspace

/-- The value that work answers with. -/
def value? : EStateM.Result Fault Workspace α → Option α
  | .ok value _ => some value
  | .error .. => none

theorem exists_of_value? {result : EStateM.Result Fault Workspace α} {value : α}
    (hvalue : value? result = some value) : ∃ ended, result = .ok value ended := by
  cases result with
  | ok own ended =>
      obtain rfl := Option.some.inj hvalue
      exact ⟨ended, rfl⟩
  | error fault ended => cases hvalue

theorem eq_ok_of_value? {result : EStateM.Result Fault Workspace α} {value : α}
    (hvalue : value? result = some value) : result = .ok value (left result) := by
  obtain ⟨ended, rfl⟩ := exists_of_value? hvalue
  rfl

theorem run_bind_eq_ok {work : Work α} {next : α → Work β} {value : β}
    {workspace ended : Workspace} :
    (work >>= next).run workspace = .ok value ended ↔
      ∃ first reached, work.run workspace = .ok first reached ∧
        (next first).run reached = .ok value ended := by
  rw [EStateM.run_bind]
  cases work.run workspace <;> simp [and_assoc]

/-- Work that changes the tree in a way that a relation allows. -/
def Moves (relation : FileTree → FileTree → Prop) (work : Work α) : Prop :=
  ∀ workspace, relation workspace.tree (left (work.run workspace)).tree

/-- A relation that allows no change, and one change after another. -/
structure IsEffect (relation : FileTree → FileTree → Prop) : Prop where
  refl : ∀ tree, relation tree tree
  trans : ∀ before middle after, relation before middle → relation middle after →
    relation before after

theorem Moves.of_ok {work : Work α} {value : α} {workspace reached : Workspace}
    (hwork : Moves relation work) (hrun : work.run workspace = .ok value reached) :
    relation workspace.tree reached.tree := by
  have hmoves := hwork workspace
  rwa [hrun] at hmoves

theorem Moves.of_error {work : Work α} {fault : Fault} {workspace reached : Workspace}
    (hwork : Moves relation work) (hrun : work.run workspace = .error fault reached) :
    relation workspace.tree reached.tree := by
  have hmoves := hwork workspace
  rwa [hrun] at hmoves

variable (heffect : IsEffect relation)

include heffect

theorem moves_pure (value : α) : Moves relation (pure value : Work α) :=
  fun workspace => heffect.refl workspace.tree

theorem moves_throw (fault : Fault) : Moves relation (throw fault : Work α) :=
  fun workspace => heffect.refl workspace.tree

theorem moves_get : Moves relation (get : Work Workspace) :=
  fun workspace => heffect.refl workspace.tree

theorem moves_note (level : Int) (message : Text) : Moves relation (Work.note level message) :=
  fun workspace => heffect.refl workspace.tree

theorem moves_bind {work : Work α} {next : α → Work β} (hwork : Moves relation work)
    (hnext : ∀ value, Moves relation (next value)) : Moves relation (work >>= next) := by
  intro workspace
  rw [EStateM.run_bind]
  cases hrun : work.run workspace with
  | error fault reached => exact hwork.of_error hrun
  | ok value reached => exact heffect.trans _ _ _ (hwork.of_ok hrun) (hnext value reached)

end Work

namespace Compiler

open Work

theorem tree_settleFault (fault : Fault) (workspace : Workspace) :
    (left ((settleFault fault).run workspace)).tree = workspace.tree := by
  rcases cases_of_settleFault fault workspace with ⟨error, ended, -, htree, hrun⟩ | hrun
  · rw [hrun]
    exact htree
  · rw [hrun]
    rfl

variable {relation : FileTree → FileTree → Prop} (heffect : IsEffect relation)

include heffect

theorem moves_complete (compiler : Compiler) (work : Workplace → Expansion Text)
    {output : Option Path}
    (hwrite : ∀ path, output = some path → ∀ tree text,
      relation tree (compiler.writeText tree path text).1) :
    Moves relation (compiler.complete work output) := by
  intro workspace
  rw [run_complete]
  cases compiler.expansionFrom workspace work with
  | error fault context =>
      dsimp only
      rw [tree_settleFault]
      exact heffect.refl workspace.tree
  | ok text context =>
      cases output with
      | none => exact heffect.refl workspace.tree
      | some path =>
          have hwritten := hwrite path rfl workspace.tree text
          dsimp only
          cases hresult : compiler.writeText workspace.tree path text with
          | mk after result =>
              rw [hresult] at hwritten
              cases result with
              | ok => exact hwritten
              | error fault =>
                  dsimp only
                  rwa [tree_settleFault]

/-- The compilation of a source moves the tree as its output is written. -/
theorem moves_compileSource (compiler : Compiler) (source : Text) (file : Path) {output : Path}
    (hwrite : ∀ tree text, relation tree (compiler.writeText tree output text).1) :
    Moves relation (compiler.compileSource source file (some output)) := by
  refine moves_bind heffect (moves_get heffect) fun workspace => ?_
  refine moves_bind heffect (moves_note heffect _ _) fun _ => ?_
  refine moves_complete heffect compiler _ fun path hpath => ?_
  obtain rfl := Option.some.inj hpath
  exact hwrite

end Compiler

end KitTemplate
