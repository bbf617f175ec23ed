import KitTemplate.Proofs.Compilation.Location

/-! The compilations without an answer. The entries of import lists and the values of variables are
texts of any kind, and paths are made of them before any file is looked for. Every such path is
answered for, with a text or with a template error, but for two kinds: an entry that names the root,
which has no name to put an extension to, and a path that is too long to be looked at. With a known
character set and an extension that is a dot and a name, nothing else ends a compilation that has no
output, as far as the model goes: imports are nested here to any depth, and what an operating system
refuses for other reasons, such as a NUL character in a path, is left aside. -/

namespace KitTemplate

namespace Workplace

open Expansion

/-- How a piece ends the compilation that comes to it: an entry of an import list names the root or
leads to a path that is too long, or a variable names a partial by such a path. -/
inductive Escapes (place : Workplace) (file : Path) (context : Context) : Piece → Fault → Prop
  | root {piece : Piece} {entry : Text} {path : Path} (hentry : entry ∈ piece.importEntries)
      (hspec : Import.clean entry ≠ [])
      (hpath : Path.absolute place.tree.workingDirectory
        (file.parent.child (Import.clean entry)) = path)
      (hroot : path.parts = []) :
      Escapes place file context piece (.rename (.unnamed path))
  | target {piece : Piece} {entry : Text} {target path : Path}
      (hentry : entry ∈ piece.importEntries)
      (htarget : place.target file (Import.clean entry) = .ok target)
      (htried : Import.IsTried (place.compiler.folders place.tree) target path)
      (hlong : FileTree.IsTooLong path) :
      Escapes place file context piece (.denied ⟨.nameTooLong, path⟩)
  | value {directive : Directive} {name value : Text}
      (hcategory : (Registry.standard.find directive.keyword).category = .partials)
      (hname : directive.value = some name) (hvalue : context.bindings.lookup name = some value)
      (hlong : FileTree.IsTooLong (place.compiler.postsDirectory.child value)) :
      Escapes place file context (.directive directive)
        (.denied ⟨.nameTooLong, place.compiler.postsDirectory.child value⟩)

/-- A fault that ends a compilation comes from a piece of a source expanded in its course. -/
def EscapesFrom (place : Workplace) (path : Path) (source : Text) (fault : Fault) : Prop :=
  ∃ inner before piece reached ended, place.ExpandedFrom path source inner ∧
    place.ComesTo inner before piece reached ∧
    (place.expandPiece place.compileFile inner.file piece).run reached = .error fault ended ∧
    place.Escapes inner.file reached piece fault

variable {place : Workplace} {fault : Fault}

section Pieces

variable (hextension : place.compiler.settings.templateExtension = ".kit".toList)

include hextension

/-- Every entry has a target with fallbacks, unless it names the root. -/
theorem cases_of_target (file : Path) (spec : Text) :
    let path := Path.absolute place.tree.workingDirectory (file.parent.child spec)
    (∃ target paths, place.compiler.settings.applyExtension path = .ok target ∧
        Import.fallbacks (place.compiler.folders place.tree) target = .ok paths) ∨
      path.parts = [] ∧ place.compiler.settings.applyExtension path = .error (.unnamed path) := by
  intro path
  have hdotted : place.compiler.settings.templateExtension = '.' :: "kit".toList := hextension
  have hpath : path.IsAbsolute := Path.isAbsolute_absolute place.tree.isAbsolute _
  rcases Settings.cases_of_applyExtension hdotted (by decide) (by decide) (by decide) hpath with
    ⟨target, htarget, habsolute, hsuffix⟩ | hroot
  · exact Or.inl ⟨target, _, htarget,
      Import.fallbacks_eq _ hsuffix habsolute.slash_not_mem_name⟩
  · exact Or.inr hroot

theorem EntryFails.escapes {file : Path} {context : Context} {piece : Piece} {entry : Text}
    (hentry : entry ∈ piece.importEntries) (hfails : place.EntryFails file entry fault) :
    place.Escapes file context piece fault := by
  have htargets := cases_of_target hextension file (Import.clean entry)
  cases hfails with
  | unnamed hspec hproblem =>
      rcases htargets with ⟨target, paths, happlied, -⟩ | ⟨hroot, hunnamed⟩
      · rw [happlied] at hproblem
        cases hproblem
      · obtain rfl := Except.error.inj (hunnamed.symm.trans hproblem)
        exact .root hentry hspec rfl hroot
  | alone htarget hproblem =>
      have happlied := applyExtension_of_target htarget
      rcases htargets with ⟨target, paths, happlied', hpaths⟩ | ⟨-, hunnamed⟩
      · obtain rfl := Except.ok.inj (happlied'.symm.trans happlied)
        rw [hpaths] at hproblem
        cases hproblem
      · rw [hunnamed] at happlied
        cases happlied
  | denied htarget htried hdenied =>
      obtain ⟨hlong, rfl⟩ := FileTree.isTooLong_of_isFile hdenied
      exact .target hentry htarget htried hlong

theorem PieceFails.escapes
    (hencoding : ∃ charset, Charset.named? place.compiler.settings.encoding = some charset)
    {file : Path} {context : Context} {piece : Piece}
    (hfails : place.PieceFails file context piece fault)
    (hfault : ∀ error, fault ≠ .template error) :
    place.Escapes file context piece fault := by
  cases hfails with
  | located _ hat =>
      rcases hat with ⟨hunknown, -⟩ | ⟨error, htemplate, -⟩
      · obtain ⟨charset, hknown⟩ := hencoding
        rw [hunknown] at hknown
        cases hknown
      · exact absurd htemplate (hfault error)
  | entry hentry hfails => exact hfails.escapes hextension hentry
  | denied hcategory hname hvalue hdenied =>
      obtain ⟨hlong, rfl⟩ := FileTree.isTooLong_of_isFile hdenied
      exact .value hcategory hname hvalue hlong

end Pieces

theorem exists_template_of_readText
    (hencoding : ∃ charset, Charset.named? place.compiler.settings.encoding = some charset)
    {path : Path} {name : Text} {line : Option Int}
    (hread : place.compiler.readText place.tree path name line = .error fault) :
    ∃ error, fault = .template error := by
  rcases Compiler.cases_of_readText_eq_error hread with ⟨hunknown, -⟩ | ⟨cause, htemplate, -⟩
  · obtain ⟨charset, hknown⟩ := hencoding
    rw [hunknown] at hknown
    cases hknown
  · exact ⟨_, htemplate⟩

theorem escapesFrom_of_run
    (hencoding : ∃ charset, Charset.named? place.compiler.settings.encoding = some charset)
    (hextension : place.compiler.settings.templateExtension = ".kit".toList) {path : Path}
    {source : Text} {start ended : Context} (hbindings : start.bindings = [])
    (hancestry : start.ancestry = [path])
    (hrun : (concat (place.expandPiece place.compileFile path) (Piece.ofSource source)).run start =
      .error fault ended)
    (hfault : ∀ error, fault ≠ .template error) : place.EscapesFrom path source fault := by
  obtain ⟨inner, hpath, hstops | hstops⟩ := origin_of_run ⟨path, source, start⟩ hrun
  · obtain ⟨before, piece, reached, ended, hcomes, hpiece, hfails⟩ := hstops
    exact ⟨inner, before, piece, reached, ended, ⟨start, hbindings, hancestry, hpath⟩, hcomes,
      hpiece, hfails.escapes hextension hencoding hfault⟩
  · obtain ⟨found, reached, -, -, hread⟩ := hstops
    obtain ⟨error, htemplate⟩ := exists_template_of_readText hencoding hread
    exact absurd htemplate (hfault error)

end Workplace

open Workplace Expansion

/-- With a known character set and the usual extension, a compilation without an output answers,
with a text or with a template error, unless it comes to an import of the root or to a path that is
too long. -/
theorem compilation_answers_or_escapes (compiler : Compiler) (workspace : Workspace) (file : Path)
    (hencoding : ∃ charset, Charset.named? compiler.settings.encoding = some charset)
    (hextension : compiler.settings.templateExtension = ".kit".toList) :
    let place : Workplace := ⟨compiler, workspace.tree⟩
    let path := Path.absolute workspace.tree.workingDirectory file
    ((∃ compilation ended,
        (compiler.compile file none).run workspace = .ok compilation ended) ∨
      ∃ source fault ended, compiler.readText workspace.tree path [] none = .ok source ∧
        (compiler.compile file none).run workspace = .error fault ended ∧
        place.EscapesFrom path source fault) ∧
    ∀ source,
      (∃ compilation ended,
        (compiler.compileSource source file none).run workspace = .ok compilation ended) ∨
      ∃ fault ended, (compiler.compileSource source file none).run workspace = .error fault ended ∧
        place.EscapesFrom path source fault := by
  intro place path
  refine ⟨?_, fun source => ?_⟩
  · rw [Compiler.run_compile]
    refine (compiler.cases_of_complete _ _).imp_right ?_
    rintro ⟨fault, context, ended, hexpansion, hfault, hrun⟩
    rcases cases_of_compileFile rfl hexpansion with
      hread | ⟨source, start, ended', hread, hstart, hpieces⟩
    · obtain ⟨error, htemplate⟩ := exists_template_of_readText hencoding hread
      exact absurd htemplate (hfault error)
    · exact ⟨source, fault, ended, hread, hrun,
        escapesFrom_of_run hencoding hextension hstart.1 hstart.2 hpieces hfault⟩
  · rw [Compiler.run_compileSource]
    refine (compiler.cases_of_complete _ _).imp_right ?_
    rintro ⟨fault, context, ended, hexpansion, hfault, hrun⟩
    rcases run_inside_eq_error hexpansion with ⟨hopen, -⟩ | ⟨reached, hinside⟩
    · cases hopen
    obtain ⟨ended', htagged⟩ := run_tagged_eq_error hinside
    obtain ⟨start, hstart, hpieces⟩ := exists_of_expandText htagged
    exact ⟨fault, ended, hrun,
      escapesFrom_of_run hencoding hextension hstart.1 hstart.2 hpieces hfault⟩

/-- The import of the root comes from the source that is compiled. -/
theorem compilation_answers_or_escapes_root :
    let compiler : Compiler := { postsDirectory := ⟨.root, ["posts".toList]⟩ }
    let workspace := Workspace.ofFiles [("a.kit".toList, "<!-- @import / -->".toList)]
    let path := Path.absolute workspace.tree.workingDirectory ⟨.root, ["a.kit".toList]⟩
    ∃ source fault ended, compiler.readText workspace.tree path [] none = .ok source ∧
      (compiler.compile ⟨.root, ["a.kit".toList]⟩ none).run workspace = .error fault ended ∧
      EscapesFrom ⟨compiler, workspace.tree⟩ path source fault := by
  intro compiler workspace path
  have hfault : Compiler.fault?
      ((compiler.compile ⟨.root, ["a.kit".toList]⟩ none).run workspace) =
        some (.rename (.unnamed ⟨.root, []⟩)) := by decide +kernel
  obtain ⟨left, hrun⟩ := Compiler.exists_of_fault? hfault
  have houtcome := (compilation_answers_or_escapes compiler workspace ⟨.root, ["a.kit".toList]⟩
    ⟨.utf8, by decide⟩ (by decide)).1
  refine houtcome.resolve_left ?_
  rintro ⟨compilation, ended, hanswer⟩
  rw [hrun] at hanswer
  cases hanswer

/-- An import of the root has no answer. -/
theorem compile_escapes_at_root :
    let compiler : Compiler := { postsDirectory := ⟨.root, ["posts".toList]⟩ }
    let workspace := Workspace.ofFiles [("a.kit".toList, "<!-- @import / -->".toList)]
    Charset.named? compiler.settings.encoding = some .utf8 ∧
      compiler.settings.templateExtension = ".kit".toList ∧
      ∃ ended, (compiler.compile ⟨.root, ["a.kit".toList]⟩ none).run workspace =
        .error (.rename (.unnamed ⟨.root, []⟩)) ended := by
  intro compiler workspace
  refine ⟨by decide, by decide, Compiler.exists_of_fault? ?_⟩
  decide +kernel

end KitTemplate
