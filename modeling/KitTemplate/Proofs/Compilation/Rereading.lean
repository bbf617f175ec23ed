import KitTemplate.Proofs.Charset.Roundtrip
import KitTemplate.Proofs.Compilation.Writing

/-! Reading what was written. A text stands in its file as the bytes of the character set and
nothing else is done to it, so reading the file gives the same text, with its line terminators as
they are and with a byte-order mark at its beginning if it has one. -/

namespace KitTemplate.Compiler

open FileTree

variable {compiler : Compiler} {tree : FileTree} {path : Path} {text : Text}

theorem readText_of_read {bytes : Bytes} {charset : Charset}
    (hcharset : Charset.named? compiler.settings.encoding = some charset)
    (hread : tree.read path = .ok bytes) (hdecode : charset.decode bytes = .ok text) (name : Text)
    (line : Option Int) : compiler.readText tree path name line = .ok text := by
  simp only [readText, hread, hcharset, hdecode]

/-- Writing a text that the character set holds succeeds wherever a file can be opened. Where
writing has succeeded, reading the path gives exactly the text that was written, and every other
file is as it was. -/
theorem reads_what_was_written (compiler : Compiler) (tree : FileTree) (path : Path)
    (text : Text) :
    (∀ charset, Charset.named? compiler.settings.encoding = some charset →
      (∀ c ∈ text, charset.Holds c) → IsWritable tree path →
        ∃ after, compiler.writeText tree path text = (after, .ok ())) ∧
    ∀ after, compiler.writeText tree path text = (after, .ok ()) →
      (∀ name line, compiler.readText after path name line = .ok text) ∧
        ∃ location, after.locate path = .ok location ∧
          ∀ other, other ≠ location → after.file? other = tree.file? other := by
  constructor
  · intro charset hcharset hheld hwritable
    obtain ⟨bytes, hencode⟩ := Charset.exists_encode hheld
    exact exists_of_isWritable hwritable hcharset hencode
  · intro after hwrite
    have hwriting := writing_writeText compiler tree path text
    rw [hwrite] at hwriting
    obtain ⟨charset, bytes, location, hcharset, hencode, hlocate, hread, hothers⟩ := hwriting.of_ok
    exact ⟨readText_of_read hcharset hread (Charset.decode_of_encode hencode), location, hlocate,
      hothers⟩

/-- A text with a byte-order mark at its beginning and line terminators of all kinds, written in the
marked form of UTF-8 to a new directory. -/
theorem reads_what_was_written_mark :
    let compiler : Compiler :=
      { settings := { encoding := "utf-8-sig".toList }, postsDirectory := ⟨.root, []⟩ }
    let tree := FileTree.ofEntries [(["a.kit".toList], .file [0x41] ⟨0⟩)] ⟨.root, []⟩
    let path : Path := ⟨.root, ["new".toList, "a.html".toList]⟩
    let text := ['\ufeff', 'é', '\r', '\r', '\n', '\n', '😀']
    IsWritable tree path ∧ ∃ after, compiler.writeText tree path text = (after, .ok ()) ∧
      compiler.readText after path [] none = .ok text := by
  intro compiler tree path text
  have hwritable : IsWritable tree path := ⟨by decide +kernel, _, rfl⟩
  have hheld : ∀ c ∈ text, Charset.utf8Marked.Holds c := fun c _ => Nat.lt_succ_of_le c.toNat_le_max
  obtain ⟨hwrites, hreads⟩ := reads_what_was_written compiler tree path text
  obtain ⟨after, hwrite⟩ := hwrites .utf8Marked (by decide) hheld hwritable
  exact ⟨hwritable, after, hwrite, (hreads after hwrite).1 [] none⟩

end KitTemplate.Compiler
