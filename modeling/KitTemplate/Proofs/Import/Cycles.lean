import Mathlib
import KitTemplate.Proofs.Compilation.Outcome
import KitTemplate.Proofs.Expansion.Performance
import KitTemplate.Proofs.Import.Graph

/-! Import cycles. The files that are open are a chain of the import graph, so a fault about them
shows a chain that comes to a file twice. Conversely a script that holds no fault walks along every
chain from its file, and the files on the way are open one inside another, so none comes twice. -/

namespace KitTemplate.Workplace

open Expansion

variable {place : Workplace}

/-- No chain of imports from a file comes to a path twice, whatever the letter case. -/
def IsAcyclicFrom (place : Workplace) (entry : Path) : Prop :=
  ∀ rest, List.IsChain place.Imports (entry :: rest) →
    ((entry :: rest).map Context.pathKey).Nodup

theorem isAmong_iff {ancestry : List Path} {path : Path} :
    Context.isAmong ancestry path ↔ Context.pathKey path ∈ ancestry.map Context.pathKey := by
  simp [Context.isAmong]

theorem nodup_concat_iff {ancestry : List Path} {path : Path} :
    ((ancestry ++ [path]).map Context.pathKey).Nodup ↔
      (ancestry.map Context.pathKey).Nodup ∧ ¬ Context.isAmong ancestry path := by
  rw [isAmong_iff, List.map_append, List.map_singleton, List.nodup_append]
  simp

/-! ### Faults of events -/

theorem isNesting_of_expandPartial {file : Path} {line : Int} {name : Text} {fault : Fault}
    {context ended : Context}
    (hrun : (place.expandPartial file line name).run context = .error fault ended) :
    fault.isNesting = false := by
  rcases cases_of_expandPartial hrun with rfl | ⟨value, -, ⟨denial, -, rfl⟩ | rfl | hread⟩
  · rfl
  · rfl
  · rfl
  · exact isNesting_of_readText hread

theorem eq_stop_of_act {event : Event} {fault : Fault} {context ended : Context}
    (hact : (place.act event).run context = .error fault ended) (hfault : fault.isNesting) :
    event = .stop fault := by
  cases event with
  | text text => cases hact
  | note tag level message => cases hact
  | assign name value => cases hact
  | use name file line =>
      rcases run_withValue_eq_error hact with rfl | ⟨value, -, hvalue⟩
      · cases hfault
      · cases hvalue
  | insert tag name file line =>
      obtain ⟨reached, hrun⟩ := run_tagged_eq_error hact
      rw [isNesting_of_expandPartial hrun] at hfault
      cases hfault
  | stop own =>
      obtain ⟨rfl, -⟩ := EStateM.Result.error.inj hact
      rfl

theorem stop_mem_of_run_perform {events : List Event} {fault : Fault} {context ended : Context}
    (hrun : (place.perform events).run context = .error fault ended) (hfault : fault.isNesting) :
    .stop fault ∈ events := by
  obtain ⟨passed, event, rest, text, reached, rfl, -, hact⟩ :=
    exists_of_run_concat hrun
  rw [eq_stop_of_act hact hfault]
  exact List.mem_append_right _ List.mem_cons_self

theorem stop_not_mem_of_run_perform {events : List Event} {text : Text} {context ended : Context}
    (hrun : (place.perform events).run context = .ok text ended) (fault : Fault) :
    .stop fault ∉ events := by
  induction events generalizing text context with
  | nil => nofun
  | cons event rest ih =>
      obtain ⟨first, reached, more, hact, hrest, -⟩ := (run_concat_cons_eq_ok context).1 hrun
      rw [List.mem_cons, not_or]
      refine ⟨?_, ih hrest⟩
      rintro rfl
      cases hact

/-! ### Chains -/

/-- A script without a fault opens its file, and expands what it reads there. -/
theorem scriptWithin_of_no_stop {room : Nat} {ancestry : List Path} {path : Path}
    (hstop : ∀ fault, .stop fault ∉ place.scriptWithin room ancestry path) :
    ∃ inner source, place.compiler.readText place.tree path [] none = .ok source ∧
      ¬ Context.isAmong ancestry path ∧
      place.scriptWithin room ancestry path =
        place.sourceScript (place.scriptWithin inner (ancestry ++ [path])) (ancestry ++ [path])
          path.name path source := by
  cases room with
  | zero => exact absurd (List.mem_singleton_self _) (hstop .tooDeep)
  | succ inner =>
      rw [scriptWithin] at hstop ⊢
      split at hstop
      · exact absurd (List.mem_singleton_self _) (hstop _)
      rename_i hclosed
      rw [if_neg hclosed]
      split at hstop
      · exact absurd (List.mem_singleton_self _) (hstop _)
      · rename_i source hread
        exact ⟨inner, source, hread, hclosed, rfl⟩

theorem nodup_of_no_stop {room : Nat} {ancestry rest : List Path} {path : Path}
    (hstop : ∀ fault, .stop fault ∉ place.scriptWithin room ancestry path)
    (hancestry : (ancestry.map Context.pathKey).Nodup)
    (hchain : List.IsChain place.Imports (path :: rest)) :
    ((ancestry ++ path :: rest).map Context.pathKey).Nodup := by
  induction rest generalizing room ancestry path with
  | nil =>
      obtain ⟨-, -, -, hclosed, -⟩ := scriptWithin_of_no_stop hstop
      exact nodup_concat_iff.2 ⟨hancestry, hclosed⟩
  | cons found rest ih =>
      obtain ⟨inner, source, hread, hclosed, hscript⟩ := scriptWithin_of_no_stop hstop
      rw [hscript] at hstop
      obtain ⟨⟨source', hread', himports⟩, hrest⟩ := List.isChain_cons_cons.1 hchain
      obtain rfl := Except.ok.inj (hread.symm.trans hread')
      have hfound : ¬ Context.isAmong (ancestry ++ [path]) found := by
        intro hamong
        obtain ⟨fault, hmem⟩ := exists_stop_of_isAmong himports hamong
        exact hstop fault hmem
      have hinner (fault : Fault) :
          .stop fault ∉ place.scriptWithin inner (ancestry ++ [path]) found :=
        fun hmem => hstop fault (importScript_subset_sourceScript himports hfound hmem)
      have hnodup := ih hinner (nodup_concat_iff.2 ⟨hancestry, hclosed⟩) hrest
      rwa [List.append_assoc] at hnodup

/-- A fault about open files shows a chain of imports that comes to a file twice. -/
theorem exists_chain_of_stop {room : Nat} {ancestry : List Path} {path : Path} {fault : Fault}
    (hstop : .stop fault ∈ place.scriptWithin room ancestry path) (hfault : fault.isNesting)
    (hroom : fault ≠ .tooDeep) (hchain : List.IsChain place.Imports (ancestry ++ [path])) :
    ∃ rest, List.IsChain place.Imports (ancestry ++ path :: rest) ∧
      ¬ ((ancestry ++ path :: rest).map Context.pathKey).Nodup := by
  induction room generalizing ancestry path with
  | zero => exact absurd (Event.stop.inj (List.mem_singleton.1 hstop)) hroom
  | succ room ih =>
      rw [scriptWithin] at hstop
      split at hstop
      · rename_i hamong
        exact ⟨[], hchain, fun hnodup => (nodup_concat_iff.1 hnodup).2 hamong⟩
      split at hstop
      · rename_i hread
        obtain rfl := Event.stop.inj (List.mem_singleton.1 hstop)
        rw [isNesting_of_readText hread] at hfault
        cases hfault
      · rename_i source hread
        obtain ⟨found, himports, hnests⟩ := stop_mem_sourceScript hstop hfault
        have hedge : place.Imports path found := ⟨source, hread, himports⟩
        have hlonger : List.IsChain place.Imports ((ancestry ++ [path]) ++ [found]) := by
          apply List.IsChain.append hchain (List.isChain_singleton found)
          simpa using hedge
        unfold NestsAt at hnests
        split at hnests
        · rename_i hamong
          rw [List.append_assoc] at hlonger
          refine ⟨[found], hlonger, fun hnodup => ?_⟩
          rw [List.append_cons] at hnodup
          exact (nodup_concat_iff.1 hnodup).2 hamong
        · obtain ⟨rest, hrest, hrepeats⟩ := ih hnests hlonger
          rw [List.append_assoc] at hrest hrepeats
          exact ⟨found :: rest, hrest, hrepeats⟩

/-- Cycles are found exactly. If the compilation of a file succeeds, no chain of imports from the
file comes to a path twice; and if none does, the compilation does not fail with a cycle. -/
theorem compile_detects_cycles (compiler : Compiler) (workspace : Workspace) (file : Path)
    (output : Option Path) :
    let place : Workplace := ⟨compiler, workspace.tree⟩
    let entry := Path.absolute workspace.tree.workingDirectory file
    (∀ text written ended,
      (compiler.compile file output).run workspace = .ok (.compiled text written) ended →
        place.IsAcyclicFrom entry) ∧
      (place.IsAcyclicFrom entry → ∀ error ended,
        (compiler.compile file output).run workspace = .ok (.failed error) ended →
          error.cause.kind ≠ .cyclic) := by
  intro place entry
  have hexpansion (journal : Journal) :
      (place.compileFile entry).run { journal } =
        (place.perform (place.scriptWithin place.room [] entry)).run { journal } :=
    place.run_compileFileWithin place.room entry { journal }
  have hcompletion := compiler.completion_compile file output workspace
  refine ⟨fun text written ended hrun rest hchain => ?_, fun hacyclic error ended hrun => ?_⟩
  · rw [hrun] at hcompletion
    cases hcompletion with
    | compiled hcompiled =>
        have hstop := stop_not_mem_of_run_perform ((hexpansion _).symm.trans hcompiled)
        exact nodup_of_no_stop hstop List.nodup_nil hchain
  · rw [hrun] at hcompletion
    intro hcyclic
    cases hcompletion with
    | unexpanded hfailed =>
        have hnesting : (Fault.template error).isNesting := by simpa [Fault.isNesting] using hcyclic
        have hstop := stop_mem_of_run_perform ((hexpansion _).symm.trans hfailed) hnesting
        have hroom : Fault.template error ≠ .tooDeep := by
          intro hdeep
          cases hdeep
        obtain ⟨rest, hchain, hrepeats⟩ :=
          exists_chain_of_stop hstop hnesting hroom (List.isChain_singleton entry)
        exact hrepeats (hacyclic rest hchain)
    | unwritten houtput hcompiled hwrite =>
        rcases Compiler.cases_of_writeText_eq_error hwrite with
          hfault | ⟨problem, hfault⟩ | ⟨refusal, hfault⟩
        · cases hfault
        · cases hfault
        · obtain rfl := Fault.template.inj hfault
          cases hcyclic

/-- A page that imports another one has no cycle, and a page that is missing fails with none. -/
theorem compile_detects_cycles_pages :
    let compiler : Compiler := { postsDirectory := ⟨.root, []⟩ }
    let workspace := Workspace.ofFiles
      [("a.kit".toList, "<!-- @import b -->".toList), ("b.kit".toList, "text".toList)]
    IsAcyclicFrom ⟨compiler, workspace.tree⟩ ⟨.root, ["a.kit".toList]⟩ ∧
      ∃ error ended, (compiler.compile ⟨.root, ["c.kit".toList]⟩ none).run workspace =
        .ok (.failed error) ended ∧ error.cause.kind ≠ .cyclic := by
  intro compiler workspace
  constructor
  · have hpath : Path.absolute workspace.tree.workingDirectory ⟨.root, ["a.kit".toList]⟩ =
      ⟨.root, ["a.kit".toList]⟩ := by cbv
    have hcompiled : Compiler.isCompiled
        ((compiler.compile ⟨.root, ["a.kit".toList]⟩ none).run workspace) = true := by cbv
    obtain ⟨text, written, ended, hrun⟩ := Compiler.exists_of_isCompiled hcompiled
    have hacyclic := (compile_detects_cycles compiler workspace _ none).1 text written ended hrun
    rwa [hpath] at hacyclic
  · have hpath : Path.absolute workspace.tree.workingDirectory ⟨.root, ["c.kit".toList]⟩ =
      ⟨.root, ["c.kit".toList]⟩ := by cbv
    have hmissing : compiler.readText workspace.tree ⟨.root, ["c.kit".toList]⟩ [] none =
      .error (.template ⟨.fileMissing ⟨.root, ["c.kit".toList]⟩, "c.kit".toList, none⟩) := by cbv
    have hacyclic : IsAcyclicFrom ⟨compiler, workspace.tree⟩ ⟨.root, ["c.kit".toList]⟩ := by
      intro rest hchain
      cases rest with
      | nil => simp
      | cons found rest =>
          obtain ⟨source, hread, -⟩ := (List.isChain_cons_cons.1 hchain).1
          rw [hmissing] at hread
          cases hread
    have hfails : Compiler.templateError? (compiler.expansionFrom
        (Compiler.noted workspace
          ("Compiling ".toList ++ Path.toText ⟨.root, ["c.kit".toList]⟩))
        (·.compileFile ⟨.root, ["c.kit".toList]⟩)) =
      some ⟨.fileMissing ⟨.root, ["c.kit".toList]⟩, "c.kit".toList, none⟩ := by cbv
    obtain ⟨ended, hrun⟩ := Compiler.exists_failed_of_compileFile hpath hfails
    rw [← hpath] at hacyclic
    exact ⟨_, ended, hrun,
      (compile_detects_cycles compiler workspace _ none).2 hacyclic _ ended hrun⟩

end KitTemplate.Workplace
