import KitTemplate.Proofs.Compilation.Effect
import KitTemplate.Proofs.Compilation.Writing

/-! Pages that stay. A compilation with an output makes directories and changes the one file that
its output leads to. So a page that was written is found where it is, with what was written to it,
for as long as no other compilation has an output that leads to the same file. -/

namespace KitTemplate

open FileTree Work

/-- A path leads to one location in all trees in which it leads anywhere. -/
def Path.LeadsTo (path : Path) (location : Location) : Prop :=
  ∀ (tree : FileTree) found, tree.locateNew path = .ok found → found = location

namespace FileTree

variable {before after : FileTree} {location : Location} {path : Path} {content : Bytes}

/-- One tree comes from another by new directories and by changes of one file. -/
structure ChangesFile (location : Location) (before after : FileTree) : Prop where
  grows : before.Extends after
  others : ∀ other, other ≠ location → after.file? other = before.file? other

theorem isEffect_changesFile (location : Location) : IsEffect (ChangesFile location) where
  refl tree := ⟨.refl tree, fun _ _ => rfl⟩
  trans _ _ _ hfirst hsecond :=
    ⟨hfirst.grows.trans hsecond.grows, fun other hother =>
      (hsecond.others other hother).trans (hfirst.others other hother)⟩

/-- A file that is found under a path. -/
structure Holds (tree : FileTree) (path : Path) (location : Location) (content : Bytes) : Prop where
  found : tree.locate path = .ok location
  entry : ∃ changed, tree.file? location = some (content, changed)

theorem Holds.read {tree : FileTree} (hholds : tree.Holds path location content) :
    tree.read path = .ok content := by
  obtain ⟨changed, hfile⟩ := hholds.entry
  exact read_of_entry? hholds.found (file?_eq_some_iff.1 hfile)

theorem Holds.of_changesFile {other : Location} (hholds : before.Holds path location content)
    (hchanges : ChangesFile other before after) (hother : other ≠ location) :
    after.Holds path location content where
  found := hchanges.grows.locate hholds.found
  entry := by
    rw [hchanges.others location (Ne.symm hother)]
    exact hholds.entry

end FileTree

namespace Compiler

variable {compiler : Compiler} {path : Path} {location : Location}

theorem changesFile_writeText (hpath : path.LeadsTo location) (tree : FileTree) (text : Text) :
    ChangesFile location tree (compiler.writeText tree path text).1 := by
  have hprepared : ChangesFile location tree (prepared tree path) :=
    ⟨extends_of_adds (adds_makeDirectories tree path.parent true), fun other _ =>
      file?_prepared tree path other⟩
  rcases (writing_writeText compiler tree path text).cases_tree with
    htree | ⟨found, content, hnew, hwrites⟩
  · rw [htree]
    exact hprepared
  · obtain rfl := hpath _ _ hnew
    exact (isEffect_changesFile found).trans _ _ _ hprepared
      ⟨extends_of_writes hwrites, fun other hother => hwrites.file?_of_ne hother⟩

theorem extends_of_writeText (compiler : Compiler) (tree : FileTree) (path : Path) (text : Text) :
    tree.Extends (compiler.writeText tree path text).1 := by
  have hprepared : tree.Extends (prepared tree path) :=
    extends_of_adds (adds_makeDirectories tree path.parent true)
  rcases (writing_writeText compiler tree path text).cases_tree with
    htree | ⟨location, content, -, hwrites⟩
  · rw [htree]
    exact hprepared
  · exact hprepared.trans (extends_of_writes hwrites)

/-- A compilation that has an answer changes the file at its output, or none if it fails. -/
theorem files_of_compileSource {source : Text} {file : Path} {compilation : Compilation}
    {before after : Workspace}
    (hrun : (compiler.compileSource source file (some path)).run before = .ok compilation after) :
    match compilation with
    | .compiled .. => ∃ location, after.tree.locate path = .ok location ∧
        after.tree.file? location ≠ none ∧
        ∀ other, other ≠ location → after.tree.file? other = before.tree.file? other
    | .failed _ => ∀ location, after.tree.file? location = before.tree.file? location := by
  rw [run_compileSource, run_complete] at hrun
  dsimp only [noted] at hrun
  have hsettled {fault : Fault} {workspace : Workspace}
      (hsettle : (settleFault fault).run workspace = .ok compilation after) :
      ∃ error, fault = .template error ∧ compilation = .failed error ∧
        after.tree = workspace.tree := by
    rcases cases_of_settleFault fault workspace with ⟨error, ended, rfl, htree, hrun⟩ | hrun
    · rw [hrun] at hsettle
      obtain ⟨rfl, rfl⟩ := EStateM.Result.ok.inj hsettle
      exact ⟨error, rfl, rfl, htree⟩
    · rw [hrun] at hsettle
      cases hsettle
  split at hrun
  · obtain ⟨error, -, rfl, htree⟩ := hsettled hrun
    exact fun location => by rw [htree]
  · rename_i text context _
    split at hrun
    · rename_i tree fault hwrite
      obtain ⟨error, rfl, rfl, htree⟩ := hsettled hrun
      intro location
      rw [htree, show tree = _ from eq_prepared_of_writeText hwrite]
      exact file?_prepared before.tree path location
    · rename_i tree hwrite
      obtain ⟨rfl, rfl⟩ := EStateM.Result.ok.inj hrun
      have hwriting := writing_writeText compiler before.tree path text
      rw [hwrite] at hwriting
      cases hwriting with
      | @written location _ _ _ _ hnew _ _ hwrites =>
          obtain ⟨changed, hentry⟩ := hwrites.written
          obtain ⟨hlocate, -, hothers⟩ := found_of_writes hnew hwrites
          refine ⟨location, hlocate, ?_, hothers⟩
          rw [file?_eq_some_iff.2 hentry]
          nofun

/-- A source that was compiled has been written to its output. -/
theorem holds_of_compileSource {source text : Text} {file : Path} {written : Option Path}
    {before after : Workspace}
    (hrun : (compiler.compileSource source file (some path)).run before =
      .ok (.compiled text written) after) (hpath : path.LeadsTo location) :
    ∃ charset bytes, Charset.named? compiler.settings.encoding = some charset ∧
      charset.encode text = .ok bytes ∧ after.tree.Holds path location bytes := by
  rw [run_compileSource, run_complete] at hrun
  dsimp only at hrun
  split at hrun
  · exact absurd hrun settleFault_ne_compiled
  · rename_i found context hexpansion
    have hwriting := writing_writeText compiler before.tree path found
    dsimp only [noted] at hrun
    split at hrun
    · exact absurd hrun settleFault_ne_compiled
    · rename_i tree hwrite
      obtain ⟨hcompilation, rfl⟩ := EStateM.Result.ok.inj hrun
      obtain ⟨rfl, -⟩ := Compilation.compiled.inj hcompilation
      rw [hwrite] at hwriting
      cases hwriting with
      | @written place charset bytes _ _ hnew hcharset hencode hwrites =>
          obtain rfl := hpath _ _ hnew
          obtain ⟨changed, hentry⟩ := hwrites.written
          exact ⟨charset, bytes, hcharset, hencode, (found_of_writes hnew hwrites).1, changed,
            file?_eq_some_iff.2 hentry⟩

end Compiler

end KitTemplate
