import KitTemplate.Proofs.Charset.Roundtrip
import KitTemplate.Proofs.Compilation.Outcome
import KitTemplate.Proofs.Compilation.Writing
import KitTemplate.Proofs.Import.Termination
import KitTemplate.Proofs.Source.Ordinary

/-! Files without directives. Such a file is expanded to its own text, piece by piece, and no
variable is assigned on the way. In a character set that writes text as it was read, the page is the
file again, byte by byte. -/

namespace KitTemplate

open Expansion

namespace Workplace

variable (place : Workplace) {source : Text}

theorem concat_literals (importFile : Path → Expansion Text) (file : Path) (texts : List Text) :
    concat (place.expandPiece importFile file) (texts.map .literal) = pure texts.flatten := by
  induction texts with
  | nil => rfl
  | cons text rest ih =>
      simp only [List.map_cons, concat, ih, expandPiece, pure_bind, List.flatten_cons]

/-- The expansion of an ordinary source leaves a note and yields the source. -/
theorem expandText_of_isOrdinary (hordinary : source.IsOrdinary) (file : Path) :
    place.expandText file source = (do
      note 3 (Text.ofNat (Token.split source).length ++ " tokens".toList)
      return source) := by
  rw [expandText, expandSource, Piece.ofSource_of_isOrdinary hordinary, concat_literals,
    Token.flatten_split]

/-- The expansion of a file with an ordinary text yields the text and assigns no variable. -/
theorem run_compileFile_of_isOrdinary {path : Path} {context : Context}
    (hclosed : context.isOpen path = false)
    (hread : place.compiler.readText place.tree path [] none = .ok source)
    (hordinary : source.IsOrdinary) :
    ∃ ended, (place.compileFile path).run context = .ok source ended ∧
      ended.bindings = context.bindings := by
  rw [compileFile_eq, hread, attempt_ok, pure_bind, expandText_of_isOrdinary place hordinary,
    run_inside, Context.enter, if_neg (by simp [hclosed])]
  exact ⟨_, rfl, rfl⟩

end Workplace

open Compiler

/-- A file without directives is compiled to a page of the same bytes, at every place that can be
written to and in every character set but the marked one; no variable is assigned, and no other file
is changed. -/
theorem compile_copies_ordinary_file (compiler : Compiler) (workspace : Workspace)
    (file output : Path) {charset : Charset} {bytes : Bytes} {text : Text}
    (hcharset : Charset.named? compiler.settings.encoding = some charset)
    (hmarked : charset ≠ .utf8Marked)
    (hread : workspace.tree.read (Path.absolute workspace.tree.workingDirectory file) = .ok bytes)
    (hdecode : charset.decode bytes = .ok text) (hordinary : text.IsOrdinary)
    (hwritable : IsWritable workspace.tree output) :
    let path := Path.absolute workspace.tree.workingDirectory file
    (∃ context, compiler.expansionFrom (noted workspace ("Compiling ".toList ++ path.toText))
        (·.compileFile path) = .ok text context ∧ context.bindings = []) ∧
      ∃ ended location,
        (compiler.compile file (some output)).run workspace =
          .ok (.compiled text (some output)) ended ∧
        ended.tree.read output = .ok bytes ∧ ended.tree.locate output = .ok location ∧
        ∀ other, other ≠ location → ended.tree.file? other = workspace.tree.file? other := by
  intro path
  have htext : compiler.readText workspace.tree path [] none = .ok text := by
    rw [readText, hread]
    simp only [hcharset, hdecode]
  have hbytes : charset.encode text = .ok bytes := Charset.encode_of_decode hmarked hdecode
  obtain ⟨context, hexpansion, hbindings⟩ : ∃ context,
      compiler.expansionFrom (noted workspace ("Compiling ".toList ++ path.toText))
        (·.compileFile path) = .ok text context ∧ context.bindings = [] :=
    Workplace.run_compileFile_of_isOrdinary ⟨compiler, workspace.tree⟩ rfl htext hordinary
  obtain ⟨after, hwrite⟩ := exists_of_isWritable hwritable hcharset hbytes
  have hwriting := writing_writeText compiler workspace.tree output text
  rw [hwrite] at hwriting
  obtain ⟨other, content, location, hother, hcontent, hlocate, hpage, hsame⟩ := hwriting.of_ok
  obtain rfl := Option.some.inj (hcharset.symm.trans hother)
  obtain rfl := Except.ok.inj (hbytes.symm.trans hcontent)
  have hrun : (compiler.compile file (some output)).run workspace =
      .ok (.compiled text (some output)) (noted { tree := after, journal := context.journal }
        ("Wrote ".toList ++ output.toText)) := by
    rw [run_compile]
    exact run_complete_of_ok hexpansion hwrite
  exact ⟨⟨context, hexpansion, hbindings⟩, _, location, hrun, hpage, hlocate, hsame⟩

/-- A page with ordinary comments, one of them open, and with both kinds of line terminators. -/
theorem compile_copies_ordinary_file_comments :
    let compiler : Compiler := { postsDirectory := ⟨.root, []⟩ }
    let source := "<p>\r\n<!-- a $note --><!--$ 1-->\n<!-- <!-- ".toList
    let workspace := Workspace.ofFiles [("a.html".toList, source)]
    ∃ ended, (compiler.compile ⟨.root, ["a.html".toList]⟩
        (some ⟨.root, ["out".toList, "a.html".toList]⟩)).run workspace =
          .ok (.compiled source (some ⟨.root, ["out".toList, "a.html".toList]⟩)) ended ∧
      ended.tree.read ⟨.root, ["out".toList, "a.html".toList]⟩ =
        .ok (Charset.encodeUtf8 source) := by
  intro compiler source workspace
  have hcharset : Charset.named? compiler.settings.encoding = some .utf8 := by decide
  have hread : workspace.tree.read (Path.absolute workspace.tree.workingDirectory
      ⟨.root, ["a.html".toList]⟩) = .ok (Charset.encodeUtf8 source) := by decide +kernel
  have hdecode : Charset.utf8.decode (Charset.encodeUtf8 source) = .ok source := by decide +kernel
  have hordinary : Text.IsOrdinary source := by decide +kernel
  have hwritable : IsWritable workspace.tree ⟨.root, ["out".toList, "a.html".toList]⟩ :=
    ⟨by decide +kernel, _, rfl⟩
  obtain ⟨-, ended, location, hrun, hpage, -⟩ := compile_copies_ordinary_file compiler workspace
    _ _ hcharset (by decide) hread hdecode hordinary hwritable
  exact ⟨ended, hrun, hpage⟩

end KitTemplate
