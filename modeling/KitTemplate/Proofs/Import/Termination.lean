import Mathlib
import KitTemplate.Proofs.Import.Cycles
import KitTemplate.Proofs.Source.Position

/-! Termination of imports. A file that is opened inside another one has been found for an entry of
an import list, and none is opened inside itself. So no more files are open inside one another than
there are paths, letter case aside, under which files can be found, and one more for the file that
an expansion begins with. Room for as many makes an expansion what its recursion says, and more room
changes nothing. -/

namespace KitTemplate

namespace Workplace

open Expansion

variable (place : Workplace)

/-- The paths, letter case aside, under which files are found for entries of import lists. -/
def findable : Set Text :=
  {key | ∃ file entry found, place.LeadsTo file entry found ∧ Context.pathKey found = key}

/-- Those under which no file of `ancestry` is open. -/
def unopened (ancestry : List Path) : Set Text :=
  {key | key ∈ place.findable ∧ key ∉ ancestry.map Context.pathKey}

/-- The paths from the root of everything below it, with one slash in front and with two. -/
def spellings : List Text :=
  place.tree.entries.flatMap fun entry =>
    [Context.pathKey ⟨.root, entry.1⟩, Context.pathKey ⟨.doubleRoot, entry.1⟩]

variable {place}

theorem mem_spellings {key : Text} (hkey : key ∈ place.findable) : key ∈ place.spellings := by
  obtain ⟨file, entry, found, hleads, rfl⟩ := hkey
  have habsolute := hleads.isAbsolute
  obtain ⟨content, changed, hentry⟩ := FileTree.entry?_of_isFile habsolute hleads.isFile
  have hparts := FileTree.parts_ne_nil_of_isFile habsolute hleads.isFile
  refine List.mem_flatMap.2 ⟨_, FileTree.mem_entries hparts hentry, ?_⟩
  obtain ⟨anchor, parts⟩ := found
  cases anchor with
  | relative => exact absurd rfl habsolute.rooted
  | root => exact List.mem_cons_self
  | doubleRoot => exact List.mem_cons_of_mem _ List.mem_cons_self

theorem length_spellings : place.spellings.length = 2 * place.tree.entries.length := by
  simp [spellings, List.length_flatMap, Nat.mul_comm]

theorem findable_subset : place.findable ⊆ ↑place.spellings.toFinset := by
  intro key hkey
  rw [Finset.mem_coe, List.mem_toFinset]
  exact mem_spellings hkey

theorem finite_findable : place.findable.Finite :=
  place.spellings.toFinset.finite_toSet.subset findable_subset

theorem ncard_findable_le : place.findable.ncard ≤ 2 * place.tree.entries.length := by
  calc place.findable.ncard
      ≤ (↑place.spellings.toFinset : Set Text).ncard :=
        Set.ncard_le_ncard findable_subset (Finset.finite_toSet _)
    _ = place.spellings.toFinset.card := Set.ncard_coe_finset _
    _ ≤ place.spellings.length := List.toFinset_card_le _
    _ = 2 * place.tree.entries.length := length_spellings

theorem finite_unopened {ancestry : List Path} : (place.unopened ancestry).Finite :=
  finite_findable.subset fun _ hkey => hkey.1

variable (place) in
theorem ncard_unopened_le (ancestry : List Path) :
    (place.unopened ancestry).ncard ≤ place.findable.ncard :=
  Set.ncard_le_ncard (fun _ hkey => hkey.1) finite_findable

/-- Opening a file that was found leaves fewer to be opened. -/
theorem ncard_unopened_lt {ancestry : List Path} {file found : Path} {source : Text}
    (himports : place.SourceImports file source found)
    (hclosed : ¬ Context.isAmong ancestry found) :
    (place.unopened (ancestry ++ [found])).ncard < (place.unopened ancestry).ncard := by
  obtain ⟨-, -, entry, -, hleads⟩ := himports.leadsTo
  rw [isAmong_iff] at hclosed
  refine Set.ncard_lt_ncard ⟨?_, ?_⟩ finite_unopened
  · rintro key ⟨hkey, hopened⟩
    refine ⟨hkey, fun hmem => hopened ?_⟩
    rw [List.map_append]
    exact List.mem_append_left _ hmem
  · intro hsubset
    have hmem : Context.pathKey found ∈ place.unopened ancestry :=
      ⟨⟨file, entry, found, hleads, rfl⟩, hclosed⟩
    apply (hsubset hmem).2
    rw [List.map_append]
    exact List.mem_append_right _ List.mem_cons_self

/-! ### Scripts with enough room -/

theorem scriptWithin_eq {room other : Nat} {ancestry : List Path} {path : Path}
    (hroom : (place.unopened (ancestry ++ [path])).ncard < room)
    (hother : (place.unopened (ancestry ++ [path])).ncard < other) :
    place.scriptWithin room ancestry path = place.scriptWithin other ancestry path := by
  induction room generalizing other ancestry path with
  | zero => cases hroom
  | succ room ih =>
      obtain ⟨other, rfl⟩ := Nat.exists_eq_add_one_of_ne_zero (Nat.ne_zero_of_lt hother)
      rw [scriptWithin, scriptWithin]
      split
      · rfl
      split
      · rfl
      · apply sourceScript_congr
        intro found himports hclosed
        have hlt := ncard_unopened_lt himports hclosed
        exact ih (by omega) (by omega)

theorem tooDeep_not_mem_scriptWithin {room : Nat} {ancestry : List Path} {path : Path}
    (hroom : (place.unopened (ancestry ++ [path])).ncard < room) :
    .stop .tooDeep ∉ place.scriptWithin room ancestry path := by
  induction room generalizing ancestry path with
  | zero => cases hroom
  | succ room ih =>
      intro hstop
      rw [scriptWithin] at hstop
      split at hstop
      · cases List.mem_singleton.1 hstop
      split at hstop
      · rename_i hread
        obtain rfl := Event.stop.inj (List.mem_singleton.1 hstop)
        cases isNesting_of_readText hread
      · obtain ⟨found, himports, hnests⟩ := stop_mem_sourceScript hstop rfl
        unfold NestsAt at hnests
        split at hnests
        · exact hnests rfl
        · rename_i hclosed
          have hlt := ncard_unopened_lt himports hclosed
          exact ih (by omega) hnests

variable (place) in
theorem ncard_findable_lt_room : place.findable.ncard < place.room :=
  Nat.lt_succ_of_le ncard_findable_le

/-- One file fewer has to be opened for a template that is imported. -/
theorem scriptWithin_eq_of_sourceImports {room : Nat} {ancestry : List Path} {file found : Path}
    {source : Text} (himports : place.SourceImports file source found)
    (hclosed : ¬ Context.isAmong ancestry found) (hroom : place.findable.ncard ≤ room) :
    place.scriptWithin room ancestry found = place.scriptWithin place.room ancestry found := by
  have hlt := ncard_unopened_lt himports hclosed
  have hle := place.ncard_unopened_le ancestry
  have hroom' := place.ncard_findable_lt_room
  exact scriptWithin_eq (by omega) (by omega)

/-! ### Expansions with enough room -/

theorem compileFileWithin_eq {room : Nat} (hroom : place.findable.ncard < room) :
    place.compileFileWithin room = place.compileFile := by
  funext path context
  have hle := place.ncard_unopened_le (context.ancestry ++ [path])
  have hlt := place.ncard_findable_lt_room
  show (place.compileFileWithin room path).run context =
    (place.compileFileWithin place.room path).run context
  rw [run_compileFileWithin, run_compileFileWithin]
  exact congrArg (fun events => (place.perform events).run context)
    (scriptWithin_eq (by omega) (by omega))

theorem run_expandSource (room : Nat) (file : Path) (source : Text) (context : Context) :
    (place.expandSource (place.compileFileWithin room) file source).run context =
      (place.perform (place.sourceScript (place.scriptWithin room context.ancestry)
        context.ancestry context.journal.tag file source)).run context := by
  refine performs_source (fun found inner hancestry _ => ?_) file source context rfl rfl
  rw [run_compileFileWithin, hancestry]

theorem expandSource_eq {room : Nat} (hroom : place.findable.ncard ≤ room) (file : Path)
    (source : Text) :
    place.expandSource (place.compileFileWithin room) file source =
      place.expandText file source := by
  funext context
  show (place.expandSource (place.compileFileWithin room) file source).run context =
    (place.expandSource (place.compileFileWithin place.room) file source).run context
  rw [run_expandSource, run_expandSource]
  apply congrArg fun events => (place.perform events).run context
  apply sourceScript_congr
  intro found himports hclosed
  exact scriptWithin_eq_of_sourceImports himports hclosed hroom

/-- What the expansion of a file is, its recursion without any bound. -/
theorem compileFile_eq (path : Path) :
    place.compileFile path = inside path (tagged path.name do
      let source ← attempt (place.compiler.readText place.tree path [] none)
      place.expandText path source) := by
  rw [compileFile, room, compileFileWithin]
  simp only [expandSource_eq ncard_findable_le]

theorem compileFileWithin_ne_tooDeep {room : Nat} (hroom : place.findable.ncard < room)
    (path : Path) (context ended : Context) :
    (place.compileFileWithin room path).run context ≠ .error .tooDeep ended := by
  intro hrun
  rw [run_compileFileWithin] at hrun
  have hle := place.ncard_unopened_le (context.ancestry ++ [path])
  exact tooDeep_not_mem_scriptWithin (by omega) (stop_mem_of_run_perform hrun rfl)

theorem expandText_ne_tooDeep (file : Path) (source : Text) (context ended : Context) :
    (place.expandText file source).run context ≠ .error .tooDeep ended := by
  intro hrun
  rw [← expandSource_eq le_rfl, run_expandSource] at hrun
  obtain ⟨found, himports, hnests⟩ :=
    stop_mem_sourceScript (stop_mem_of_run_perform hrun rfl) rfl
  unfold NestsAt at hnests
  split at hnests
  · exact hnests rfl
  · rename_i hclosed
    have hlt := ncard_unopened_lt himports hclosed
    have hle := place.ncard_unopened_le context.ancestry
    exact tooDeep_not_mem_scriptWithin (by omega) hnests

theorem compileFile_ne_tooDeep (path : Path) (context ended : Context) :
    (place.compileFile path).run context ≠ .error .tooDeep ended :=
  compileFileWithin_ne_tooDeep place.ncard_findable_lt_room path context ended

end Workplace

namespace Compiler

open Workplace Expansion

theorem ne_tooDeep_of_writeText {compiler : Compiler} {tree : FileTree} {path : Path} {text : Text}
    {fault : Fault} (hwrite : (compiler.writeText tree path text).2 = .error fault) :
    fault ≠ .tooDeep := by
  rcases cases_of_writeText_eq_error hwrite with rfl | ⟨problem, rfl⟩ | ⟨refusal, rfl⟩ <;> nofun

theorem compile_ne_tooDeep (compiler : Compiler) (file : Path) (output : Option Path)
    (workspace ended : Workspace) :
    (compiler.compile file output).run workspace ≠ .error .tooDeep ended := by
  intro hrun
  have hcompletion := compiler.completion_compile file output workspace
  rw [hrun] at hcompletion
  cases hcompletion with
  | fault hfault =>
      rcases hfault with ⟨context, hexpansion⟩ | ⟨path, text, -, hwrite⟩
      · exact compileFile_ne_tooDeep _ _ _ hexpansion
      · exact ne_tooDeep_of_writeText hwrite rfl

theorem compileSource_ne_tooDeep (compiler : Compiler) (source : Text) (file : Path)
    (output : Option Path) (workspace ended : Workspace) :
    (compiler.compileSource source file output).run workspace ≠ .error .tooDeep ended := by
  intro hrun
  have hcompletion := compiler.completion_compileSource source file output workspace
  rw [hrun] at hcompletion
  cases hcompletion with
  | fault hfault =>
      rcases hfault with ⟨context, hexpansion⟩ | ⟨path, text, -, hwrite⟩
      · rcases run_inside_eq_error hexpansion with ⟨-, hcycle⟩ | ⟨reached, hinside⟩
        · cases hcycle
        · obtain ⟨ended, htagged⟩ := run_tagged_eq_error hinside
          exact expandText_ne_tooDeep _ _ _ _ htagged
      · exact ne_tooDeep_of_writeText hwrite rfl

end Compiler

/-- Every expansion ends. A step through a source leaves less of it, also where it stays in the same
token. Files are found under finitely many paths, letter case aside, and room for one file more than
that is enough: an expansion with as much room or more is the one that its recursion describes, and
no expansion and no compilation ever runs out of room. -/
theorem expansion_terminates (compiler : Compiler) (workspace : Workspace) :
    let place : Workplace := ⟨compiler, workspace.tree⟩
    (∀ source passed cursor pieces next, Cursor.Reads source passed cursor →
      cursor.step? = some (pieces, next) →
        next.tokens.flatten.length < cursor.tokens.flatten.length) ∧
      place.findable.Finite ∧
      (∀ room, 1 + place.findable.ncard ≤ room →
        place.compileFileWithin room = place.compileFile ∧
          ∀ path context ended,
            (place.compileFileWithin room path).run context ≠ .error .tooDeep ended) ∧
      (∀ room, place.findable.ncard ≤ room → ∀ file source,
        place.expandSource (place.compileFileWithin room) file source =
          place.expandText file source) ∧
      (∀ path, place.compileFile path =
        Expansion.inside path (Expansion.tagged path.name do
          let source ← Expansion.attempt (place.compiler.readText place.tree path [] none)
          place.expandText path source)) ∧
      (∀ file output ended,
        (compiler.compile file output).run workspace ≠ .error .tooDeep ended) ∧
      (∀ source file output ended,
        (compiler.compileSource source file output).run workspace ≠ .error .tooDeep ended) := by
  intro place
  refine ⟨fun _ _ _ _ _ hreads hstep => hreads.length_flatten_lt hstep,
    Workplace.finite_findable, fun room hroom => ?_,
    fun _ hroom file source => Workplace.expandSource_eq hroom file source,
    Workplace.compileFile_eq,
    fun file output => compiler.compile_ne_tooDeep file output workspace,
    fun source file output => compiler.compileSource_ne_tooDeep source file output workspace⟩
  have hlt : place.findable.ncard < room := by omega
  exact ⟨Workplace.compileFileWithin_eq hlt, Workplace.compileFileWithin_ne_tooDeep hlt⟩

/-- A page that imports itself needs no more room than any other tree, and reading it comes closer
to its end with every step. -/
theorem expansion_terminates_page :
    let compiler : Compiler := { postsDirectory := ⟨.root, []⟩ }
    let workspace := Workspace.ofFiles [("a.kit".toList, "<!-- @import a -->".toList)]
    let place : Workplace := ⟨compiler, workspace.tree⟩
    place.compileFileWithin (1 + place.findable.ncard) = place.compileFile ∧
      ∃ next : Cursor,
        (⟨Token.split "<!-- @import a -->".toList, 1⟩ : Cursor).step? =
          some ([.literal [], .directive
            ⟨"@import".toList, some "a".toList, "<!-- @import a -->".toList, [], 4, 1⟩,
            .literal []], next) ∧
        next.tokens.flatten.length <
          (Token.split "<!-- @import a -->".toList).flatten.length := by
  intro compiler workspace place
  obtain ⟨hshrinks, -, hroom, -⟩ := expansion_terminates compiler workspace
  refine ⟨(hroom _ le_rfl).1, ⟨[], 1⟩, by cbv, ?_⟩
  exact hshrinks "<!-- @import a -->".toList [] _ _ _ .start (by cbv)

end KitTemplate
