import KitTemplate.Proofs.Compilation.Atomicity
import KitTemplate.Proofs.Compilation.Effect

/-! Compilations of sources and the files that they write to. The source of a page need not have
been read in the character set of the compiler, so its expansion may be a text that cannot be
encoded. By the time this is found out the output has been opened. So a compilation of a source that
does not succeed leaves every file as it was, but for this case, in which its output is left empty;
and the case does not arise for a source that the character set holds. -/

namespace KitTemplate

open Compiler

/-- The file that a path names is empty, and every other file is as it was. -/
def FileTree.Empties (before after : FileTree) (path : Path) : Prop :=
  ∃ location, after.locate path = .ok location ∧ after.read path = .ok [] ∧
    ∀ other, other ≠ location → after.file? other = before.file? other

/-- A compilation of a source that succeeds puts its page at the output and changes no other file;
one that fails changes no file; and one that a fault ends changes no file either, unless the source
has a character outside of the character set, the text cannot be encoded, and the output is left
empty. -/
theorem compileSource_writes_page_or_empties_output (compiler : Compiler) (workspace : Workspace)
    (source : Text) (file output : Path) {charset : Charset}
    (hcharset : Charset.named? compiler.settings.encoding = some charset) :
    match (compiler.compileSource source file (some output)).run workspace with
    | .ok (.compiled text written) ended =>
      written = some output ∧
        FileTree.HasPage workspace.tree ended.tree output text compiler.settings.encoding
    | .ok (.failed _) ended => FileTree.SameFiles workspace.tree ended.tree
    | .error fault ended =>
      FileTree.SameFiles workspace.tree ended.tree ∨
        (∃ problem, fault = .unencodable problem) ∧ (∃ c ∈ source, ¬ charset.Holds c) ∧
          FileTree.Empties workspace.tree ended.tree output := by
  rw [run_compileSource, run_complete]
  dsimp only
  generalize hpath : Path.absolute workspace.tree.workingDirectory file = path
  cases hexpansion : compiler.expansionFrom
      (noted workspace ("Compiling source as ".toList ++ path.toText))
      (fun place => Expansion.inside path <| Expansion.tagged path.name <|
        place.expandText path source) with
  | error fault context =>
      dsimp only
      rcases cases_of_settleFault fault _ with ⟨error, ended, -, htree, hsettle⟩ | hsettle
      · rw [hsettle]
        exact fun location => by rw [htree]; rfl
      · rw [hsettle]
        exact Or.inl fun _ => rfl
  | ok text context =>
      dsimp only [noted]
      cases hencode : charset.encode text with
      | ok bytes =>
          have hwriting := writing_writeText compiler workspace.tree output text
          cases hwrite : compiler.writeText workspace.tree output text with
          | mk after result =>
              rw [hwrite] at hwriting
              cases result with
              | ok => exact ⟨rfl, hwriting.of_ok⟩
              | error fault =>
                  obtain ⟨⟨error, rfl⟩, hsame⟩ :=
                    hwriting.of_error ⟨charset, bytes, hcharset, hencode⟩
                  exact hsame
      | error problem =>
          have houtside : ∃ c ∈ source, ¬ charset.Holds c := by
            by_contra hnone
            push Not at hnone
            obtain ⟨bytes, hbytes⟩ := Charset.exists_encode
              (Workplace.holds_of_expandText hcharset hnone rfl rfl hexpansion)
            rw [hencode] at hbytes
            cases hbytes
          rcases cases_of_writeText_of_unencodable hcharset hencode with
            ⟨error, hwrite⟩ | ⟨location, opened, hnew, hwrites, hwrite⟩
          · rw [hwrite]
            exact file?_prepared workspace.tree output
          · rw [hwrite]
            exact Or.inr ⟨⟨problem, rfl⟩, houtside, location, found_of_writes hnew hwrites⟩

/-- A character that UTF-8 has: the page takes the place of an earlier one. -/
theorem compileSource_writes_page_or_empties_output_page :
    let compiler : Compiler := { postsDirectory := ⟨.root, []⟩ }
    let workspace := Workspace.ofFiles [("out.html".toList, "old".toList)]
    let output : Path := ⟨.root, ["out.html".toList]⟩
    ∃ text ended,
      (compiler.compileSource ['é'] ⟨.root, ["a.kit".toList]⟩ (some output)).run workspace =
        .ok (.compiled text (some output)) ended ∧
      FileTree.HasPage workspace.tree ended.tree output text compiler.settings.encoding := by
  intro compiler workspace output
  have hpage := compileSource_writes_page_or_empties_output compiler workspace ['é']
    ⟨.root, ["a.kit".toList]⟩ output (show Charset.named? _ = some .utf8 by decide)
  have hcompiled : isCompiled ((compiler.compileSource ['é'] ⟨.root, ["a.kit".toList]⟩
      (some output)).run workspace) = true := by decide +kernel
  obtain ⟨text, written, ended, hrun⟩ := exists_of_isCompiled hcompiled
  rw [hrun] at hpage
  obtain ⟨rfl, hpage⟩ := hpage
  exact ⟨text, ended, hrun, hpage⟩

/-- A character that ASCII does not have: the earlier page is lost. -/
theorem compileSource_empties_earlier_page :
    let compiler : Compiler :=
      { settings := { encoding := "ascii".toList }, postsDirectory := ⟨.root, []⟩ }
    let workspace := Workspace.ofFiles [("out.html".toList, "old".toList)]
    let output : Path := ⟨.root, ["out.html".toList]⟩
    Charset.named? compiler.settings.encoding = some .ascii ∧
      workspace.tree.read output = .ok (Charset.encodeUtf8 "old".toList) ∧
      ∃ fault ended,
        (compiler.compileSource ['é'] ⟨.root, ["a.kit".toList]⟩ (some output)).run workspace =
          .error fault ended ∧
        ended.tree.read output = .ok [] := by
  intro compiler workspace output
  have hfault : (fault? ((compiler.compileSource ['é'] ⟨.root, ["a.kit".toList]⟩
      (some output)).run workspace)).isSome := by decide +kernel
  have hread : (Work.left ((compiler.compileSource ['é'] ⟨.root, ["a.kit".toList]⟩
      (some output)).run workspace)).tree.read output = .ok [] := by decide +kernel
  obtain ⟨fault, hfault⟩ := Option.isSome_iff_exists.1 hfault
  obtain ⟨ended, hrun⟩ := exists_of_fault? hfault
  rw [hrun] at hread
  exact ⟨by decide, by decide +kernel, fault, ended, hrun, hread⟩

end KitTemplate
