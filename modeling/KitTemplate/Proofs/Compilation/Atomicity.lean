import KitTemplate.Proofs.Compilation.Outcome
import KitTemplate.Proofs.Compilation.Writing
import KitTemplate.Proofs.Expansion.Blame
import KitTemplate.Proofs.Expansion.Characters

/-! Compilations and files. A compilation reads all that it reads before it writes, and the text
that it writes is put together from characters that were read in the same character set. So the
output is not opened for a text that cannot be encoded: either it receives the page, or no file is
changed. -/

namespace KitTemplate

/-- The same files, with the same content and times of change. -/
def FileTree.SameFiles (before after : FileTree) : Prop :=
  ∀ location, after.file? location = before.file? location

/-- A page stands at a path, encoded in a character set with the name that is given, and every file
but that one is as it was. -/
def FileTree.HasPage (before after : FileTree) (path : Path) (text encoding : Text) : Prop :=
  ∃ charset bytes location, Charset.named? encoding = some charset ∧
    charset.encode text = .ok bytes ∧ after.locate path = .ok location ∧
    after.read path = .ok bytes ∧
    ∀ other, other ≠ location → after.file? other = before.file? other

namespace Workplace

variable {place : Workplace} {fault : Fault}

theorem ne_unencodable_of_readText {path : Path} {name : Text} {line : Option Int}
    (hread : place.compiler.readText place.tree path name line = .error fault)
    (problem : Charset.Unencodable) : fault ≠ .unencodable problem := by
  rcases Compiler.cases_of_readText_eq_error hread with ⟨-, rfl⟩ | ⟨cause, rfl, -⟩ <;> nofun

theorem PieceFails.ne_unencodable {file : Path} {context : Context} {piece : Piece}
    (hfails : place.PieceFails file context piece fault) (problem : Charset.Unencodable) :
    fault ≠ .unencodable problem := by
  cases hfails with
  | located _ hfault => rcases hfault with ⟨-, rfl⟩ | ⟨error, rfl, -⟩ <;> nofun
  | entry _ hentry => cases hentry <;> nofun
  | denied => nofun

/-- No expansion fails for characters that cannot be encoded. -/
theorem ne_unencodable_of_compileFile {path : Path} {context ended : Context}
    (hclosed : context.isOpen path = false)
    (hrun : (place.compileFile path).run context = .error fault ended)
    (problem : Charset.Unencodable) : fault ≠ .unencodable problem := by
  rcases cases_of_compileFile hclosed hrun with hread | ⟨source, start, ended, -, -, hpieces⟩
  · exact ne_unencodable_of_readText hread problem
  · obtain ⟨inner, -, hstops | hstops⟩ := origin_of_run ⟨path, source, start⟩ hpieces
    · obtain ⟨before, piece, reached, ended, -, -, hfails⟩ := hstops
      exact hfails.ne_unencodable problem
    · obtain ⟨found, reached, -, -, hread⟩ := hstops
      exact ne_unencodable_of_readText hread problem

end Workplace

/-- A compilation that succeeds puts its page at the output and changes no other file; one that does
not succeed, be it that it fails or that a fault ends it, changes no file. No compilation ends
because the text cannot be encoded. -/
theorem compile_writes_page_or_nothing (compiler : Compiler) (workspace : Workspace)
    (file output : Path) :
    match (compiler.compile file (some output)).run workspace with
    | .ok (.compiled text written) ended =>
      written = some output ∧
        FileTree.HasPage workspace.tree ended.tree output text compiler.settings.encoding
    | .ok (.failed _) ended => FileTree.SameFiles workspace.tree ended.tree
    | .error fault ended =>
      FileTree.SameFiles workspace.tree ended.tree ∧ ∀ problem, fault ≠ .unencodable problem := by
  rw [Compiler.run_compile, Compiler.run_complete]
  cases hexpansion : compiler.expansionFrom (Compiler.noted workspace
      ("Compiling ".toList ++ (Path.absolute workspace.tree.workingDirectory file).toText))
      (·.compileFile (Path.absolute workspace.tree.workingDirectory file)) with
  | error fault context =>
      dsimp only
      rcases Compiler.cases_of_settleFault fault _ with ⟨error, ended, -, htree, hsettle⟩ | hsettle
      · rw [hsettle]
        exact fun location => by rw [htree]; rfl
      · rw [hsettle]
        exact ⟨fun _ => rfl, Workplace.ne_unencodable_of_compileFile rfl hexpansion⟩
  | ok text context =>
      obtain ⟨charset, hcharset, hheld⟩ :=
        Workplace.exists_charset_of_compileFile rfl hexpansion
      obtain ⟨bytes, hbytes⟩ := Charset.exists_encode hheld
      have hwriting := Compiler.writing_writeText compiler workspace.tree output text
      dsimp only [Compiler.noted]
      cases hwrite : compiler.writeText workspace.tree output text with
      | mk after result =>
          rw [hwrite] at hwriting
          cases result with
          | ok => exact ⟨rfl, hwriting.of_ok⟩
          | error fault =>
              obtain ⟨⟨error, rfl⟩, hsame⟩ :=
                hwriting.of_error ⟨charset, bytes, hcharset, hbytes⟩
              exact hsame

end KitTemplate
