import KitTemplate.Compiler
import KitTemplate.Proofs.FileTree.Growth

/-! Writing a text to a path. The directories above the path are made, then the file is opened and
is empty, and then it receives the bytes of the text. Each of these may be the last that is done. So
besides new directories, at most the file itself is changed; and it is changed for nothing only if
the text cannot be encoded. -/

namespace KitTemplate.Compiler

open FileTree

variable {compiler : Compiler} {tree : FileTree} {path : Path} {text : Text}

/-- The tree with the directories above a path. -/
def prepared (tree : FileTree) (path : Path) : FileTree :=
  (tree.makeDirectories path.parent true).1

/-- How writing ends: before the file is opened, with the file empty, or with the text written. -/
inductive Writing (compiler : Compiler) (tree : FileTree) (path : Path) (text : Text) :
    FileTree × Except Fault Unit → Prop
  | refused {refusal : Refusal} :
      Writing compiler tree path text
        (prepared tree path, .error (.template ⟨.writeRefused path refusal, path.name, none⟩))
  | emptied {location : Location} {opened : FileTree} {fault : Fault}
      (hmade : (tree.makeDirectories path.parent true).2 = none)
      (hnew : (prepared tree path).locateNew path = .ok location)
      (hwrites : Writes location [] (prepared tree path) opened)
      (hencode : ∀ charset bytes, Charset.named? compiler.settings.encoding = some charset →
        charset.encode text ≠ .ok bytes) :
      Writing compiler tree path text (opened, .error fault)
  | written {location : Location} {charset : Charset} {bytes : Bytes} {after : FileTree}
      (hmade : (tree.makeDirectories path.parent true).2 = none)
      (hnew : (prepared tree path).locateNew path = .ok location)
      (hcharset : Charset.named? compiler.settings.encoding = some charset)
      (hencode : charset.encode text = .ok bytes)
      (hwrites : Writes location bytes (prepared tree path) after) :
      Writing compiler tree path text (after, .ok ())

theorem writing_writeText (compiler : Compiler) (tree : FileTree) (path : Path) (text : Text) :
    Writing compiler tree path text (compiler.writeText tree path text) := by
  rw [writeText]
  cases hmake : tree.makeDirectories path.parent true with
  | mk made denial =>
      have hprepared : prepared tree path = made := by rw [prepared, hmake]
      cases denial with
      | some denial =>
          rw [← hprepared]
          exact .refused
      | none =>
          have hmade : (tree.makeDirectories path.parent true).2 = none := by rw [hmake]
          dsimp only
          rw [← hprepared]
          cases hopen : (prepared tree path).truncate path with
          | error refusal => exact .refused
          | ok result =>
              obtain ⟨opened, location⟩ := result
              obtain ⟨hnew, hopened⟩ := writes_of_truncate hopen
              dsimp only
              cases hcharset : Charset.named? compiler.settings.encoding with
              | none =>
                  refine .emptied hmade hnew hopened fun charset bytes hnamed => ?_
                  rw [hcharset] at hnamed
                  cases hnamed
              | some charset =>
                  dsimp only
                  cases hencode : charset.encode text with
                  | error problem =>
                      refine .emptied hmade hnew hopened fun other bytes hother => ?_
                      obtain rfl := Option.some.inj (hcharset.symm.trans hother)
                      intro hbytes
                      rw [hencode] at hbytes
                      cases hbytes
                  | ok bytes =>
                      exact .written hmade hnew hcharset hencode
                        (hopened.trans (writes_put hopened.isPlace hopened.free_after))

/-- Writing that fails with an error of a template is refused before a file is opened. -/
theorem eq_prepared_of_writeText {after : FileTree} {error : TemplateError}
    (hwrite : compiler.writeText tree path text = (after, .error (.template error))) :
    after = prepared tree path := by
  rw [writeText] at hwrite
  cases hmake : tree.makeDirectories path.parent true with
  | mk made denial =>
      rw [prepared, hmake]
      rw [hmake] at hwrite
      cases denial with
      | some denial => exact (Prod.mk.inj hwrite).1.symm
      | none =>
          dsimp only at hwrite
          split at hwrite
          · exact (Prod.mk.inj hwrite).1.symm
          · split at hwrite
            · cases (Prod.mk.inj hwrite).2
            · split at hwrite
              · cases (Prod.mk.inj hwrite).2
              · cases (Prod.mk.inj hwrite).2

/-- A path that can be written to: the directories above it can be made, and a file can be opened
there. -/
def IsWritable (tree : FileTree) (path : Path) : Prop :=
  (tree.makeDirectories path.parent true).2 = none ∧
    ∃ opened, (prepared tree path).truncate path = .ok opened

/-- Text that can be encoded is written wherever a file can be. -/
theorem exists_of_isWritable {charset : Charset} {bytes : Bytes} (hwritable : IsWritable tree path)
    (hcharset : Charset.named? compiler.settings.encoding = some charset)
    (hencode : charset.encode text = .ok bytes) :
    ∃ after, compiler.writeText tree path text = (after, .ok ()) := by
  obtain ⟨hmade, ⟨opened, location⟩, hopened⟩ := hwritable
  have hmake : tree.makeDirectories path.parent true = (prepared tree path, none) := by
    rw [← hmade]
    rfl
  refine ⟨opened.put location (.file bytes opened.clock), ?_⟩
  simp only [writeText, hmake, hopened, hcharset, hencode]

/-- Writing changes the file at a path only if the directories above it have been made. -/
theorem Writing.cases_tree {result : FileTree × Except Fault Unit}
    (hwriting : Writing compiler tree path text result) :
    result.1 = prepared tree path ∨
      ∃ location content, (prepared tree path).locateNew path = .ok location ∧
        Writes location content (prepared tree path) result.1 := by
  cases hwriting with
  | refused => exact Or.inl rfl
  | emptied _ hnew hwrites => exact Or.inr ⟨_, _, hnew, hwrites⟩
  | written _ hnew _ _ hwrites => exact Or.inr ⟨_, _, hnew, hwrites⟩

theorem file?_prepared (tree : FileTree) (path : Path) (location : Location) :
    (prepared tree path).file? location = tree.file? location :=
  file?_of_adds (adds_makeDirectories tree path.parent true) location

/-- Writing of a text that can be encoded is refused before any file is changed. -/
theorem Writing.of_error {after : FileTree} {fault : Fault}
    (hwriting : Writing compiler tree path text (after, .error fault))
    (hencode : ∃ charset bytes, Charset.named? compiler.settings.encoding = some charset ∧
      charset.encode text = .ok bytes) :
    (∃ error, fault = .template error) ∧
      ∀ location, after.file? location = tree.file? location := by
  cases hwriting with
  | refused => exact ⟨⟨_, rfl⟩, file?_prepared tree path⟩
  | emptied _ _ _ hfails =>
      obtain ⟨charset, bytes, hcharset, hbytes⟩ := hencode
      exact absurd hbytes (hfails charset bytes hcharset)

/-- A file that is put in the place of a path is found under the path, and every other file is as it
was. -/
theorem found_of_writes {location : Location} {content : Bytes} {after : FileTree}
    (hnew : (prepared tree path).locateNew path = .ok location)
    (hwrites : Writes location content (prepared tree path) after) :
    after.locate path = .ok location ∧ after.read path = .ok content ∧
      ∀ other, other ≠ location → after.file? other = tree.file? other := by
  obtain ⟨changed, hentry⟩ := hwrites.written
  have hlocate : after.locate path = .ok location :=
    locate_of_locateNew (extends_of_writes hwrites) hnew (by rw [hentry]; nofun)
  refine ⟨hlocate, read_of_entry? hlocate hentry, fun other hother => ?_⟩
  rw [hwrites.file?_of_ne hother, file?_prepared]

/-- What was written is found under the path, and every other file is as it was. -/
theorem Writing.of_ok {after : FileTree}
    (hwriting : Writing compiler tree path text (after, .ok ())) :
    ∃ charset bytes location, Charset.named? compiler.settings.encoding = some charset ∧
      charset.encode text = .ok bytes ∧ after.locate path = .ok location ∧
      after.read path = .ok bytes ∧
      ∀ other, other ≠ location → after.file? other = tree.file? other := by
  cases hwriting with
  | @written location charset bytes _ _ hnew hcharset hencode hwrites =>
      exact ⟨charset, bytes, location, hcharset, hencode, found_of_writes hnew hwrites⟩

/-- Writing of a text that cannot be encoded is refused before the file is opened, or it leaves the
file empty. -/
theorem cases_of_writeText_of_unencodable {charset : Charset} {problem : Charset.Unencodable}
    (hcharset : Charset.named? compiler.settings.encoding = some charset)
    (hencode : charset.encode text = .error problem) :
    (∃ error, compiler.writeText tree path text =
        (prepared tree path, .error (.template error))) ∨
      ∃ location opened, (prepared tree path).locateNew path = .ok location ∧
        Writes location [] (prepared tree path) opened ∧
        compiler.writeText tree path text = (opened, .error (.unencodable problem)) := by
  rw [writeText]
  cases hmake : tree.makeDirectories path.parent true with
  | mk made denial =>
      obtain rfl : prepared tree path = made := by rw [prepared, hmake]
      cases denial with
      | some denial => exact Or.inl ⟨_, rfl⟩
      | none =>
          dsimp only
          cases hopen : (prepared tree path).truncate path with
          | error refusal => exact Or.inl ⟨_, rfl⟩
          | ok result =>
              obtain ⟨opened, location⟩ := result
              obtain ⟨hnew, hopened⟩ := writes_of_truncate hopen
              refine Or.inr ⟨location, opened, hnew, hopened, ?_⟩
              simp only [hcharset, hencode]

end KitTemplate.Compiler
