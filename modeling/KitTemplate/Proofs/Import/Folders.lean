import KitTemplate.Proofs.Compilation.Outcome

/-! More search folders. The places in further folders are tried after all others, so an entry that
leads to a file leads to the same file with more folders, and one that cannot be looked up fails in
the same way. Only an entry for which nothing was found may lead somewhere then. So two expansions
that differ in further folders go hand in hand up to such an entry (`Persists`), and so do two
compilations. -/

namespace KitTemplate

namespace Import

variable {tree : FileTree}

/-- Further paths are tried only if there is no file among the first ones. -/
theorem firstFile_append (paths more : List Path) :
    firstFile tree (paths ++ more) = firstFile tree paths ∨ firstFile tree paths = .ok none := by
  induction paths with
  | nil => exact Or.inr rfl
  | cons path rest ih =>
      rw [List.cons_append, firstFile, firstFile]
      cases tree.isFile path with
      | error denial => exact Or.inl rfl
      | ok found =>
          cases found with
          | true => exact Or.inl rfl
          | false => exact ih

theorem fallbacks_append (folders more : List Path) (target : Path) :
    ∃ further, fallbacks (folders ++ more) target =
      (fallbacks folders target).map (· ++ further) := by
  refine ⟨more.flatMap fun folder =>
    [folder.child target.name, folder.child (toggleUnderscore target.name)], ?_⟩
  rw [fallbacks, fallbacks]
  cases target.withName (toggleUnderscore target.name) with
  | error problem => rfl
  | ok sibling =>
      simp only [bind, Except.bind, pure, Except.pure, Except.map, List.flatMap_append,
        List.cons_append]

/-- A target that leads somewhere, or to a fault, does so with more folders. -/
theorem resolve_append (folders more : List Path) (target : Path) :
    resolve tree (folders ++ more) target = resolve tree folders target ∨
      resolve tree folders target = .ok none := by
  obtain ⟨further, hfurther⟩ := fallbacks_append folders more target
  rw [resolve, resolve, hfurther]
  cases tree.isFile target with
  | error denial => exact Or.inl rfl
  | ok found =>
      cases found with
      | true => exact Or.inl rfl
      | false =>
          cases fallbacks folders target with
          | error problem => exact Or.inl rfl
          | ok paths => exact firstFile_append paths further

end Import

/-- An entry of an import list led nowhere. -/
def Fault.IsUnresolved (fault : Fault) : Prop :=
  ∃ name spec file line, fault = .template ⟨.importMissing name spec, file, line⟩

namespace Expansion

variable {α β : Type}

/-- Work that other work goes along with, unless an entry of an import list leads nowhere in it. -/
def Persists (work work' : Expansion α) : Prop :=
  ∀ context, work'.run context = work.run context ∨
    ∃ fault ended, work.run context = .error fault ended ∧ fault.IsUnresolved

theorem persists_refl (work : Expansion α) : Persists work work := fun _ => Or.inl rfl

theorem persists_bind {work work' : Expansion α} {next next' : α → Expansion β}
    (hwork : Persists work work') (hnext : ∀ value, Persists (next value) (next' value)) :
    Persists (work >>= next) (work' >>= next') := by
  intro context
  rw [EStateM.run_bind, EStateM.run_bind]
  rcases hwork context with hsame | ⟨fault, ended, hfails, hunresolved⟩
  · rw [hsame]
    cases work.run context with
    | error fault reached => exact Or.inl rfl
    | ok value reached => exact hnext value reached
  · rw [hfails]
    exact Or.inr ⟨fault, ended, rfl, hunresolved⟩

theorem persists_concat {work work' : α → Expansion Text}
    (hwork : ∀ thing, Persists (work thing) (work' thing)) (things : List α) :
    Persists (concat work things) (concat work' things) := by
  induction things with
  | nil => exact persists_refl _
  | cons first rest ih =>
      exact persists_bind (hwork first) fun _ => persists_bind ih fun _ => persists_refl _

theorem persists_tagged (tag : Text) {work work' : Expansion α} (hwork : Persists work work') :
    Persists (tagged tag work) (tagged tag work') := by
  intro context
  rw [run_tagged, run_tagged]
  rcases hwork (context.withTag tag) with hsame | ⟨fault, ended, hfails, hunresolved⟩
  · rw [hsame]
    exact Or.inl rfl
  · rw [hfails]
    exact Or.inr ⟨fault, _, rfl, hunresolved⟩

theorem persists_inside (path : Path) {work work' : Expansion α} (hwork : Persists work work') :
    Persists (inside path work) (inside path work') := by
  intro context
  rw [run_inside, run_inside]
  cases context.enter path with
  | error fault => exact Or.inl rfl
  | ok entered =>
      dsimp only
      rcases hwork entered with hsame | ⟨fault, ended, hfails, hunresolved⟩
      · rw [hsame]
        exact Or.inl rfl
      · rw [hfails]
        exact Or.inr ⟨fault, _, rfl, hunresolved⟩

end Expansion

/-- The compiler with further folders to fall back to. -/
def Compiler.withFolders (compiler : Compiler) (more : List Path) : Compiler :=
  { compiler with searchFolders := compiler.searchFolders ++ more }

namespace Workplace

open Expansion

variable (place : Workplace) (more : List Path)

/-- The workplace of the compiler with further folders. -/
def withFolders : Workplace := { place with compiler := place.compiler.withFolders more }

theorem resolve_withFolders (target : Path) :
    Import.resolve place.tree ((place.withFolders more).compiler.folders place.tree) target =
        Import.resolve place.tree (place.compiler.folders place.tree) target ∨
      Import.resolve place.tree (place.compiler.folders place.tree) target = .ok none := by
  have hfolders : (place.withFolders more).compiler.folders place.tree =
      place.compiler.folders place.tree ++ more.map (Path.absolute place.tree.workingDirectory) :=
    List.map_append
  rw [hfolders]
  exact Import.resolve_append _ _ target

section Imports

variable {place more} {importFile importFile' : Path → Expansion Text}
  (himport : ∀ found, Persists (importFile found) (importFile' found))

include himport

theorem persists_expandFound (file : Path) (directive : Directive) (found : Path) :
    Persists (place.expandFound importFile file directive found)
      ((place.withFolders more).expandFound importFile' file directive found) := by
  by_cases htemplate : place.compiler.settings.isTemplate found
  · rw [expandFound, expandFound, if_pos htemplate,
      show (place.withFolders more).compiler.settings = place.compiler.settings from rfl,
      if_pos htemplate]
    refine persists_bind (persists_refl _) fun context => ?_
    split
    · exact persists_refl _
    · exact persists_bind (persists_refl _) fun _ => himport found
  · rw [expandFound, expandFound, if_neg htemplate,
      show (place.withFolders more).compiler.settings = place.compiler.settings from rfl,
      if_neg htemplate]
    exact persists_refl _

theorem persists_expandEntry (file : Path) (directive : Directive) (entry : Text) :
    Persists (place.expandEntry importFile file directive entry)
      ((place.withFolders more).expandEntry importFile' file directive entry) := by
  rw [expandEntry, expandEntry]
  by_cases hspec : Import.clean entry = []
  · rw [if_pos hspec, if_pos hspec]
    exact persists_refl _
  rw [if_neg hspec, if_neg hspec]
  refine persists_bind (persists_refl _) fun target => ?_
  rcases place.resolve_withFolders more target with hsame | hnone
  · refine persists_bind ?_ fun found => ?_
    · rw [findFile, findFile, show (place.withFolders more).tree = place.tree from rfl, hsame]
      exact persists_refl _
    · cases found with
      | none => exact persists_refl _
      | some found => exact persists_expandFound himport file directive found
  · -- nothing is found without the further folders
    intro context
    refine Or.inr ⟨.template ⟨.importMissing target.name (Import.clean entry), file.name,
      some directive.line⟩, context, ?_, _, _, _, _, rfl⟩
    rw [findFile, hnone]
    rfl

theorem persists_expandDirective (file : Path) (directive : Directive) :
    Persists (place.expandDirective importFile file directive)
      ((place.withFolders more).expandDirective importFile' file directive) := by
  refine persists_bind (persists_refl _) fun _ => ?_
  split
  · exact persists_refl _
  · exact persists_concat (persists_expandEntry himport file directive) _
  · exact persists_refl _
  · exact persists_refl _

theorem persists_expandPiece (file : Path) (piece : Piece) :
    Persists (place.expandPiece importFile file piece)
      ((place.withFolders more).expandPiece importFile' file piece) := by
  cases piece with
  | literal text => exact persists_refl _
  | directive directive => exact persists_expandDirective himport file directive
  | broken problem line => exact persists_refl _

theorem persists_expandSource (file : Path) (source : Text) :
    Persists (place.expandSource importFile file source)
      ((place.withFolders more).expandSource importFile' file source) :=
  persists_bind (persists_refl _) fun _ =>
    persists_concat (persists_expandPiece himport file) _

end Imports

theorem persists_compileFileWithin (room : Nat) (path : Path) :
    Persists (place.compileFileWithin room path)
      ((place.withFolders more).compileFileWithin room path) := by
  induction room generalizing path with
  | zero => exact persists_refl _
  | succ room ih =>
      refine persists_inside path (persists_tagged path.name ?_)
      exact persists_bind (persists_refl _) fun source => persists_expandSource ih path source

theorem persists_compileFile (path : Path) :
    Persists (place.compileFile path) ((place.withFolders more).compileFile path) :=
  place.persists_compileFileWithin more place.room path

end Workplace

/-- Work on a page ends in the same way with further folders, unless it fails for an entry that
leads nowhere. -/
theorem Compiler.cases_of_complete_withFolders (compiler : Compiler) (more : List Path)
    {work : Workplace → Expansion Text}
    (hwork : ∀ place : Workplace, Expansion.Persists (work place) (work (place.withFolders more)))
    (output : Option Path) (workspace : Workspace) :
    ((compiler.withFolders more).complete work output).run workspace =
        (compiler.complete work output).run workspace ∨
      ∃ error ended, (compiler.complete work output).run workspace = .ok (.failed error) ended ∧
        ∃ name spec, error.cause = .importMissing name spec := by
  rw [run_complete, run_complete]
  rcases hwork ⟨compiler, workspace.tree⟩ { journal := workspace.journal } with
    hsame | ⟨_, context, hfails, name, spec, blamed, line, rfl⟩
  · have hfrom : (compiler.withFolders more).expansionFrom workspace work =
        compiler.expansionFrom workspace work := hsame
    rw [hfrom]
    exact Or.inl rfl
  · have hfrom : compiler.expansionFrom workspace work = _ := hfails
    rw [hfrom]
    exact Or.inr ⟨_, _, rfl, name, spec, rfl⟩

/-- A compilation yields the same page with more search folders, or fails in the same way, and ends
with the same fault, if with any; it leaves the same files and records behind. Only if an entry of
an import list leads nowhere may more folders make a difference. -/
theorem compile_withFolders (compiler : Compiler) (more : List Path) (file : Path)
    (output : Option Path) (workspace : Workspace) :
    match (compiler.compile file output).run workspace with
    | .ok (.compiled text written) ended =>
      ((compiler.withFolders more).compile file output).run workspace =
        .ok (.compiled text written) ended
    | .ok (.failed error) ended =>
      (∃ name spec, error.cause = .importMissing name spec) ∨
        ((compiler.withFolders more).compile file output).run workspace = .ok (.failed error) ended
    | .error fault ended =>
      ((compiler.withFolders more).compile file output).run workspace = .error fault ended := by
  rw [Compiler.run_compile, Compiler.run_compile]
  rcases compiler.cases_of_complete_withFolders more
    (fun place => place.persists_compileFile more
      (Path.absolute workspace.tree.workingDirectory file)) output
    (Compiler.noted workspace ("Compiling ".toList ++
      (Path.absolute workspace.tree.workingDirectory file).toText)) with
    hsame | ⟨error, ended, hfailed, hmissing⟩
  · rw [hsame]
    split
    · assumption
    · rename_i hfailed
      exact Or.inr hfailed
    · assumption
  · rw [hfailed]
    exact Or.inl hmissing

end KitTemplate
