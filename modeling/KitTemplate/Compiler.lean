import KitTemplate.FileTree.Change
import KitTemplate.Settings.Basic
import KitTemplate.Fault

/-! A compiler: its settings, the folders that imports fall back to, and the directory of partials.
It reads and writes text in the character set of its settings. Reading blames a file for every
failure but an unknown character set, which is no template's fault; a file to be written is emptied
before its text is encoded. -/

namespace KitTemplate

structure Compiler where
  settings : Settings := {}
  searchFolders : List Path := []
  postsDirectory : Path

namespace Compiler

/-- A compiler with the folders and the directory that its settings name, where none are given. -/
def configure (settings : Settings) (workingDirectory : Path) (searchFolders : Option (List Path))
    (postsDirectory : Option Path) : Compiler where
  settings
  searchFolders := searchFolders.getD (settings.searchFolders.map Path.ofText)
  postsDirectory := postsDirectory.getD (workingDirectory.child settings.postsDirectory)

/-- The fallback folders as paths from the root. -/
def folders (compiler : Compiler) (tree : FileTree) : List Path :=
  compiler.searchFolders.map (Path.absolute tree.workingDirectory)

/-- The text of a file. A failure is blamed on `file`, or on the file read if that is empty. -/
def readText (compiler : Compiler) (tree : FileTree) (path : Path) (file : Text)
    (line : Option Int) : Except Fault Text :=
  let fail (cause : Cause) : Except Fault Text :=
    .error (.template ⟨cause, if file = [] then path.name else file, line⟩)
  match tree.read path with
  | .error .missing => fail (.fileMissing path)
  | .error refusal => fail (.readRefused path refusal)
  | .ok bytes =>
    match Charset.named? compiler.settings.encoding with
    | none => .error (.unknownEncoding compiler.settings.encoding)
    | some charset =>
      match charset.decode bytes with
      | .error _ => fail (.undecodable path.name compiler.settings.encoding)
      | .ok text => .ok text

/-- The tree with a text written to a path and the directories made that the path needs. The tree
changes also where writing fails. -/
def writeText (compiler : Compiler) (tree : FileTree) (path : Path) (text : Text) :
    FileTree × Except Fault Unit :=
  let refuse (refusal : Refusal) : Except Fault Unit :=
    .error (.template ⟨.writeRefused path refusal, path.name, none⟩)
  match tree.makeDirectories path.parent true with
  | (tree, some denial) => (tree, refuse denial.refusal)
  | (tree, none) =>
    match tree.truncate path with
    | .error refusal => (tree, refuse refusal)
    | .ok (tree, location) =>
      match Charset.named? compiler.settings.encoding with
      | none => (tree, .error (.unknownEncoding compiler.settings.encoding))
      | some charset =>
        match charset.encode text with
        | .error problem => (tree, .error (.unencodable problem))
        | .ok bytes => (tree.put location (.file bytes tree.clock), .ok ())

variable {compiler : Compiler} {tree : FileTree} {path : Path} {fault : Fault}

/-- Reading fails for what a file holds or, if it cannot be read at all, for what its path names. -/
theorem cases_of_readText_eq_error {name : Text} {line : Option Int}
    (hread : compiler.readText tree path name line = .error fault) :
    Charset.named? compiler.settings.encoding = none ∧
        fault = .unknownEncoding compiler.settings.encoding ∨
      ∃ cause, fault = .template ⟨cause, if name = [] then path.name else name, line⟩ ∧
        (cause.kind = .undecodable ∨ (∃ refusal, tree.read path = .error refusal) ∧
          (cause.kind = .missing ∨ cause.kind = .refused)) := by
  rw [readText] at hread
  split at hread
  · rename_i hmissing
    exact Or.inr ⟨_, (Except.error.inj hread).symm, Or.inr ⟨⟨_, hmissing⟩, Or.inl rfl⟩⟩
  · rename_i hrefused
    exact Or.inr ⟨_, (Except.error.inj hread).symm, Or.inr ⟨⟨_, hrefused⟩, Or.inr rfl⟩⟩
  · split at hread
    · rename_i hunknown
      exact Or.inl ⟨hunknown, (Except.error.inj hread).symm⟩
    · split at hread
      · exact Or.inr ⟨_, (Except.error.inj hread).symm, Or.inl rfl⟩
      · cases hread

theorem exists_of_readText_eq_ok {name source : Text} {line : Option Int}
    (hread : compiler.readText tree path name line = .ok source) :
    ∃ content, tree.read path = .ok content := by
  rw [readText] at hread
  split at hread
  · cases hread
  · cases hread
  · rename_i content hcontent
    exact ⟨content, hcontent⟩

theorem cases_of_writeText_eq_error {text : Text}
    (hwrite : (compiler.writeText tree path text).2 = .error fault) :
    fault = .unknownEncoding compiler.settings.encoding ∨
      (∃ problem, fault = .unencodable problem) ∨
        ∃ refusal, fault = .template ⟨.writeRefused path refusal, path.name, none⟩ := by
  rw [writeText] at hwrite
  split at hwrite
  · exact Or.inr (Or.inr ⟨_, (Except.error.inj hwrite).symm⟩)
  · split at hwrite
    · exact Or.inr (Or.inr ⟨_, (Except.error.inj hwrite).symm⟩)
    · split at hwrite
      · exact Or.inl (Except.error.inj hwrite).symm
      · split at hwrite
        · exact Or.inr (Or.inl ⟨_, (Except.error.inj hwrite).symm⟩)
        · cases hwrite

end Compiler

end KitTemplate
