import Mathlib
import KitTemplate.Proofs.Expansion.Blame

/-! The errors of compilations. An error with a line names the file and the line of a directive that
has failed, be it in the file that is compiled, in the source that stands in for it, or in a
template imported on the way. An error without a line says that a file that was to be expanded
cannot be read, or that the output cannot be written. -/

namespace KitTemplate

namespace Workplace

open Expansion

/-- A source is expanded in the course of a compilation that begins with another one. -/
def ExpandedFrom (place : Workplace) (path : Path) (source : Text) (inner : Expanding) : Prop :=
  ∃ start, start.bindings = [] ∧ start.ancestry = [path] ∧
    Relation.ReflTransGen place.Opens ⟨path, source, start⟩ inner

/-- Where the error of a compilation comes from that begins with a source of `begins`, unless that
cannot be read. -/
structure LocatesError (place : Workplace) (path : Path) (begins : Text → Prop) (unread : Prop)
    (output : Option Path) (error : TemplateError) : Prop where
  directive : ∀ number, error.line = some number →
    ∃ source inner, begins source ∧ place.ExpandedFrom path source inner ∧
      place.BlamesDirective inner error number
  file : error.line = none → unread ∨
    (∃ source inner, begins source ∧ place.ExpandedFrom path source inner ∧
      place.BlamesTemplate inner error) ∨
    ∃ target text, output = some target ∧
      (place.compiler.writeText place.tree target text).2 = .error (.template error)
  numbered : error.cause.kind = .cyclic ∨ error.cause.kind = .undefined → error.line ≠ none

variable {place : Workplace} {path : Path} {begins : Text → Prop} {unread : Prop}
  {output : Option Path} {error : TemplateError}

theorem kind_ne_of_readText {path : Path} {name : Text} {line : Option Int}
    (hread : place.compiler.readText place.tree path name line = .error (.template error)) :
    error.cause.kind ≠ .cyclic ∧ error.cause.kind ≠ .undefined := by
  rcases Compiler.cases_of_readText_eq_error hread with
    ⟨-, hfault⟩ | ⟨cause, hfault, hkind | ⟨-, hkind | hkind⟩⟩
  · cases hfault
  all_goals
    rw [Fault.template.inj hfault, hkind]
    decide

theorem BlamesTemplate.kind_ne {expanding : Expanding}
    (hblames : place.BlamesTemplate expanding error) :
    error.cause.kind ≠ .cyclic ∧ error.cause.kind ≠ .undefined := by
  obtain ⟨found, reached, -, hread, -⟩ := hblames
  exact kind_ne_of_readText hread

theorem LocatesError.of_unread (hunread : unread) (hline : error.line = none)
    (hkind : error.cause.kind ≠ .cyclic ∧ error.cause.kind ≠ .undefined) :
    place.LocatesError path begins unread output error where
  directive number hnumber := by
    rw [hline] at hnumber
    cases hnumber
  file _ := Or.inl hunread
  numbered hnumbered := absurd hnumbered (not_or.2 hkind)

theorem LocatesError.of_writeText {target : Path} {text : Text} (houtput : output = some target)
    (hwrite : (place.compiler.writeText place.tree target text).2 = .error (.template error)) :
    place.LocatesError path begins unread output error := by
  rcases Compiler.cases_of_writeText_eq_error hwrite with
    hfault | ⟨problem, hfault⟩ | ⟨refusal, hfault⟩
  · cases hfault
  · cases hfault
  obtain rfl := Fault.template.inj hfault
  exact
    { directive := nofun
      file := fun _ => Or.inr (Or.inr ⟨target, text, houtput, hwrite⟩)
      numbered := nofun }

theorem LocatesError.of_expansion {source : Text} {start ended : Context} (hbegins : begins source)
    (hpath : path.name ≠ []) (hbindings : start.bindings = []) (hancestry : start.ancestry = [path])
    (hrun : (concat (place.expandPiece place.compileFile path) (Piece.ofSource source)).run start =
      .error (.template error) ended) :
    place.LocatesError path begins unread output error := by
  have hlocates : place.Locates ⟨path, source, start⟩ error := locates_of_run hpath hrun
  obtain ⟨inner, hinner, ⟨number, hline, hblames⟩ | ⟨hline, hblames⟩⟩ := hlocates
  · exact
      { directive := fun number' hnumber => by
          obtain rfl := Option.some.inj (hline.symm.trans hnumber)
          exact ⟨source, inner, hbegins, ⟨start, hbindings, hancestry, hinner⟩, hblames⟩
        file := fun hnone => by
          rw [hline] at hnone
          cases hnone
        numbered := fun _ hnone => by
          rw [hline] at hnone
          cases hnone }
  · exact
      { directive := fun number hnumber => by
          rw [hline] at hnumber
          cases hnumber
        file := fun _ => Or.inr (Or.inl
          ⟨source, inner, hbegins, ⟨start, hbindings, hancestry, hinner⟩, hblames⟩)
        numbered := fun hnumbered => absurd hnumbered (not_or.2 hblames.kind_ne) }

end Workplace

open Workplace Expansion

/-- The errors of a compilation are located exactly. -/
theorem compilation_locates_errors (compiler : Compiler) (workspace : Workspace) (file : Path)
    (output : Option Path) :
    let place : Workplace := ⟨compiler, workspace.tree⟩
    let path := Path.absolute workspace.tree.workingDirectory file
    (∀ error ended, (compiler.compile file output).run workspace = .ok (.failed error) ended →
      place.LocatesError path
        (fun source => compiler.readText workspace.tree path [] none = .ok source)
        (compiler.readText workspace.tree path [] none = .error (.template error)) output error) ∧
      (path.name ≠ [] → ∀ source error ended,
        (compiler.compileSource source file output).run workspace = .ok (.failed error) ended →
          place.LocatesError path (fun begun => begun = source) False output error) := by
  intro place path
  refine ⟨fun error ended hrun => ?_, fun hname source error ended hrun => ?_⟩
  · have hcompletion := compiler.completion_compile file output workspace
    rw [hrun] at hcompletion
    cases hcompletion with
    | unexpanded hexpansion =>
        rcases cases_of_compileFile rfl hexpansion with
          hread | ⟨source, start, ended, hread, hstart, hpieces⟩
        · exact .of_unread hread (eq_of_readText hread).2 (kind_ne_of_readText hread)
        · obtain ⟨content, hcontent⟩ := Compiler.exists_of_readText_eq_ok hread
          have habsolute := Path.isAbsolute_absolute workspace.tree.isAbsolute file
          have hname : path.name ≠ [] :=
            FileTree.name_ne_nil_of_isFile habsolute (FileTree.isFile_of_read hcontent)
          exact .of_expansion hread hname hstart.1 hstart.2 hpieces
    | unwritten houtput _ hwrite => exact .of_writeText houtput hwrite
  · have hcompletion := compiler.completion_compileSource source file output workspace
    rw [hrun] at hcompletion
    cases hcompletion with
    | unexpanded hexpansion =>
        rcases run_inside_eq_error hexpansion with ⟨hopen, -⟩ | ⟨reached, hinside⟩
        · cases hopen
        obtain ⟨ended, htagged⟩ := run_tagged_eq_error hinside
        obtain ⟨start, hstart, hpieces⟩ := exists_of_expandText htagged
        exact .of_expansion rfl hname hstart.1 hstart.2 hpieces
    | unwritten houtput _ hwrite => exact .of_writeText houtput hwrite

/-- The second line of a source is blamed for an import that leads nowhere. -/
theorem compilation_locates_errors_import :
    let compiler : Compiler := { postsDirectory := ⟨.root, []⟩ }
    let workspace := Workspace.ofFiles []
    ∃ error ended inner,
      (compiler.compileSource "\r\n<!-- @import b -->".toList ⟨.root, ["a.kit".toList]⟩ none).run
        workspace = .ok (.failed error) ended ∧
      ExpandedFrom ⟨compiler, workspace.tree⟩ ⟨.root, ["a.kit".toList]⟩
        "\r\n<!-- @import b -->".toList inner ∧
      BlamesDirective ⟨compiler, workspace.tree⟩ inner error 2 := by
  intro compiler workspace
  have hpath : Path.absolute workspace.tree.workingDirectory ⟨.root, ["a.kit".toList]⟩ =
    ⟨.root, ["a.kit".toList]⟩ := by cbv
  have hfails : (Compiler.templateError? (compiler.expansionFrom
      (Compiler.noted workspace
        ("Compiling source as ".toList ++ Path.toText ⟨.root, ["a.kit".toList]⟩))
      (fun place => inside ⟨.root, ["a.kit".toList]⟩ <| tagged
        (Path.name ⟨.root, ["a.kit".toList]⟩) <| place.expandText ⟨.root, ["a.kit".toList]⟩
          "\r\n<!-- @import b -->".toList))).bind TemplateError.line = some 2 := by cbv
  obtain ⟨error, hfound, hline⟩ := Option.bind_eq_some_iff.1 hfails
  obtain ⟨ended, hrun⟩ := Compiler.exists_failed_of_expandText hpath hfound
  have hlocated := (compilation_locates_errors compiler workspace _ none).2
    (by rw [hpath]; decide) _ error ended hrun
  obtain ⟨begun, inner, rfl, hinner, hblames⟩ := hlocated.directive 2 hline
  rw [hpath] at hinner
  exact ⟨error, ended, inner, hrun, hinner, hblames⟩

end KitTemplate
