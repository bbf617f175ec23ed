import Mathlib.Data.List.Basic
import KitTemplate.Proofs.Expansion.Failure
import KitTemplate.Proofs.Expansion.Script
import KitTemplate.Proofs.Import.Resolution

/-! The import graph. It is read off the sources: an edge goes from a file to every template that an
entry of one of its import lists leads to. Scripts follow it. A script of a source contains the
scripts of the templates that the source imports, unless they are open, and a fault about the
nesting of files comes from an edge (`stop_mem_sourceScript`). -/

namespace KitTemplate

/-- The entries of an import list. -/
def Directive.importEntries (directive : Directive) : List Text :=
  match (Registry.standard.find directive.keyword).category, directive.value with
  | .imports, some value => value.splitOn ','
  | _, _ => []

def Piece.importEntries : Piece → List Text
  | .directive found => found.importEntries
  | .literal _ | .broken _ _ => []

/-- Whether a fault is about files that are open inside one another. -/
def Fault.isNesting : Fault → Bool
  | .template error => error.cause.kind = .cyclic
  | .tooDeep => true
  | _ => false

namespace Workplace

variable (place : Workplace)

/-- An entry of an import list in a file leads to another file. -/
def LeadsTo (file : Path) (entry : Text) (found : Path) : Prop :=
  Import.clean entry ≠ [] ∧ ∃ target, place.target file (Import.clean entry) = .ok target ∧
    Import.resolve place.tree (place.compiler.folders place.tree) target = .ok (some found)

/-- A template is named by an import list of a source that stands in `file`. -/
structure SourceImports (file : Path) (source : Text) (found : Path) : Prop where
  leadsTo : ∃ piece ∈ Piece.ofSource source, ∃ entry ∈ piece.importEntries,
    place.LeadsTo file entry found
  isTemplate : place.compiler.settings.isTemplate found

/-- An edge of the import graph. -/
def Imports (file found : Path) : Prop :=
  ∃ source, place.compiler.readText place.tree file [] none = .ok source ∧
    place.SourceImports file source found

variable {place}

theorem LeadsTo.isFile {file found : Path} {entry : Text}
    (hleads : place.LeadsTo file entry found) : place.tree.isFile found = .ok true := by
  obtain ⟨-, target, -, hresolve⟩ := hleads
  exact (Import.resolve_eq_some hresolve).1

theorem isAbsolute_of_mem_folders {folder : Path}
    (hfolder : folder ∈ place.compiler.folders place.tree) : folder.IsAbsolute := by
  obtain ⟨path, -, rfl⟩ := List.mem_map.1 hfolder
  exact Path.isAbsolute_absolute place.tree.isAbsolute path

theorem applyExtension_of_target {file target : Path} {spec : Text}
    (htarget : place.target file spec = .ok target) :
    place.compiler.settings.applyExtension
      (Path.absolute place.tree.workingDirectory (file.parent.child spec)) = .ok target := by
  rw [Workplace.target] at htarget
  cases hextension : place.compiler.settings.applyExtension
      (Path.absolute place.tree.workingDirectory (file.parent.child spec)) with
  | error problem =>
      rw [hextension] at htarget
      cases htarget
  | ok path =>
      rw [hextension] at htarget
      exact congrArg Except.ok (Except.ok.inj htarget)

theorem LeadsTo.isAbsolute {file found : Path} {entry : Text}
    (hleads : place.LeadsTo file entry found) : found.IsAbsolute := by
  obtain ⟨-, target, htarget, hresolve⟩ := hleads
  have habsolute := Path.isAbsolute_absolute place.tree.isAbsolute
    (file.parent.child (Import.clean entry))
  exact Import.isAbsolute_of_resolve
    (Settings.isCandidate_of_applyExtension habsolute (applyExtension_of_target htarget))
    (fun folder => isAbsolute_of_mem_folders) hresolve

theorem LeadsTo.name_ne_nil {file found : Path} {entry : Text}
    (hleads : place.LeadsTo file entry found) : found.name ≠ [] :=
  FileTree.name_ne_nil_of_isFile hleads.isAbsolute hleads.isFile

/-! ### Scripts along the graph -/

theorem isNesting_of_readText {path : Path} {name : Text} {line : Option Int} {fault : Fault}
    (hread : place.compiler.readText place.tree path name line = .error fault) :
    fault.isNesting = false := by
  rcases Compiler.cases_of_readText_eq_error hread with
    ⟨-, rfl⟩ | ⟨cause, rfl, hkind | ⟨-, hkind | hkind⟩⟩
  · rfl
  all_goals simp [Fault.isNesting, hkind]

section Scripts

variable {importScript : Path → List Event} {ancestry : List Path} {tag : Text} {file : Path}
  {fault : Fault}

/-- Where a fault about the nesting of files comes from: a template that is open already, or the
script of one that is not. -/
def NestsAt (importScript : Path → List Event) (ancestry : List Path) (fault : Fault)
    (found : Path) : Prop :=
  if Context.isAmong ancestry found then fault ≠ .tooDeep else .stop fault ∈ importScript found

theorem stop_mem_foundScript {directive : Directive} {found : Path}
    (hstop : .stop fault ∈ place.foundScript importScript ancestry tag file directive found)
    (hfault : fault.isNesting) :
    place.compiler.settings.isTemplate found ∧ NestsAt importScript ancestry fault found := by
  unfold foundScript at hstop
  split at hstop
  · rename_i htemplate
    refine ⟨htemplate, ?_⟩
    unfold NestsAt
    split at hstop
    · rename_i hamong
      rw [if_pos hamong]
      obtain rfl := Event.stop.inj (List.mem_singleton.1 hstop)
      nofun
    · rename_i hamong
      rw [if_neg hamong]
      exact (List.mem_cons.1 hstop).resolve_left nofun
  · have hread := (List.mem_cons.1 hstop).resolve_left nofun
    split at hread
    · cases List.mem_singleton.1 hread
    · rename_i hrefused
      obtain rfl := Event.stop.inj (List.mem_singleton.1 hread)
      rw [isNesting_of_readText hrefused] at hfault
      cases hfault

theorem stop_mem_entryScript {directive : Directive} {entry : Text}
    (hstop : .stop fault ∈ place.entryScript importScript ancestry tag file directive entry)
    (hfault : fault.isNesting) :
    ∃ found, place.LeadsTo file entry found ∧ place.compiler.settings.isTemplate found ∧
      NestsAt importScript ancestry fault found := by
  rw [entryScript] at hstop
  split at hstop
  · obtain rfl := Event.stop.inj (List.mem_singleton.1 hstop)
    cases hfault
  rename_i hspec
  split at hstop
  · rename_i htarget
    obtain rfl := Event.stop.inj (List.mem_singleton.1 hstop)
    obtain ⟨problem, -, rfl⟩ := exists_of_target_eq_error htarget
    cases hfault
  rename_i target htarget
  split at hstop
  · rename_i hresolve
    obtain rfl := Event.stop.inj (List.mem_singleton.1 hstop)
    rcases Import.cases_of_resolve_eq_error hresolve with
      ⟨denial, -, rfl⟩ | ⟨problem, -, rfl⟩ <;>
      cases hfault
  · obtain rfl := Event.stop.inj (List.mem_singleton.1 hstop)
    cases hfault
  · rename_i found hresolve
    refine ⟨found, ⟨hspec, target, htarget, hresolve⟩, ?_⟩
    rcases List.mem_append.1 hstop with hresolved | hfound
    · unfold resolutionScript at hresolved
      split at hresolved
      · cases List.mem_singleton.1 hresolved
      · cases hresolved
    · exact stop_mem_foundScript hfound hfault

theorem stop_mem_pieceScript {piece : Piece}
    (hstop : .stop fault ∈ place.pieceScript importScript ancestry tag file piece)
    (hfault : fault.isNesting) :
    ∃ entry ∈ piece.importEntries, ∃ found, place.LeadsTo file entry found ∧
      place.compiler.settings.isTemplate found ∧ NestsAt importScript ancestry fault found := by
  cases piece with
  | literal text => cases List.mem_singleton.1 hstop
  | broken problem line =>
      obtain rfl := Event.stop.inj (List.mem_singleton.1 hstop)
      cases hfault
  | directive directive =>
      rw [pieceScript, directiveScript] at hstop
      have hbody := (List.mem_cons.1 hstop).resolve_left nofun
      split at hbody
      · unfold variableScript at hbody
        split at hbody <;> simp at hbody
      · rename_i value hcategory hvalue
        obtain ⟨entry, hentry, hscript⟩ := List.mem_flatMap.1 hbody
        refine ⟨entry, ?_, stop_mem_entryScript hscript hfault⟩
        simpa only [Piece.importEntries, Directive.importEntries, hcategory, hvalue] using hentry
      · cases List.mem_singleton.1 hbody
      · obtain rfl := Event.stop.inj (List.mem_singleton.1 hbody)
        cases hfault

theorem stop_mem_sourceScript {source : Text}
    (hstop : .stop fault ∈ place.sourceScript importScript ancestry tag file source)
    (hfault : fault.isNesting) :
    ∃ found, place.SourceImports file source found ∧ NestsAt importScript ancestry fault found := by
  unfold sourceScript at hstop
  obtain ⟨piece, hpiece, hscript⟩ :=
    List.mem_flatMap.1 ((List.mem_cons.1 hstop).resolve_left nofun)
  obtain ⟨entry, hentry, found, hleads, htemplate, hnests⟩ := stop_mem_pieceScript hscript hfault
  exact ⟨found, ⟨⟨piece, hpiece, entry, hentry, hleads⟩, htemplate⟩, hnests⟩

/-- What the script of a source contains for a template that the source imports. -/
theorem foundScript_subset_sourceScript {source : Text} {found : Path}
    (himports : place.SourceImports file source found) :
    ∃ directive, place.foundScript importScript ancestry tag file directive found ⊆
      place.sourceScript importScript ancestry tag file source := by
  obtain ⟨⟨piece, hpiece, entry, hentry, hspec, target, htarget, hresolve⟩, -⟩ := himports
  cases piece with
  | literal text => cases hentry
  | broken problem line => cases hentry
  | directive directive =>
      refine ⟨directive, fun event hevent => ?_⟩
      have hscript : event ∈ place.entryScript importScript ancestry tag file directive entry := by
        simp only [entryScript, if_neg hspec, htarget, hresolve]
        exact List.mem_append_right _ hevent
      refine List.mem_cons_of_mem _ (List.mem_flatMap.2 ⟨_, hpiece, List.mem_cons_of_mem _ ?_⟩)
      simp only [Piece.importEntries, Directive.importEntries] at hentry
      split at hentry
      · rename_i value hcategory hvalue
        simp only [hcategory, hvalue]
        exact List.mem_flatMap.2 ⟨entry, hentry, hscript⟩
      · cases hentry

/-- A template that is open stops the source that imports it. -/
theorem exists_stop_of_isAmong {source : Text} {found : Path}
    (himports : place.SourceImports file source found) (hamong : Context.isAmong ancestry found) :
    ∃ fault, .stop fault ∈ place.sourceScript importScript ancestry tag file source := by
  obtain ⟨directive, hsubset⟩ := foundScript_subset_sourceScript himports
  rw [foundScript, if_pos himports.isTemplate, if_pos hamong] at hsubset
  exact ⟨_, hsubset (List.mem_singleton_self _)⟩

/-- A template that is not open is expanded by the source that imports it. -/
theorem importScript_subset_sourceScript {source : Text} {found : Path}
    (himports : place.SourceImports file source found)
    (hclosed : ¬ Context.isAmong ancestry found) :
    importScript found ⊆ place.sourceScript importScript ancestry tag file source := by
  obtain ⟨directive, hsubset⟩ := foundScript_subset_sourceScript himports
  refine fun event hevent => hsubset ?_
  rw [foundScript, if_pos himports.isTemplate, if_neg hclosed]
  exact List.mem_cons_of_mem _ hevent

/-- The script of a source depends on which of the templates that it imports are open, on the
scripts of the others, and on nothing else about the files that are open. -/
theorem sourceScript_congr_of_isAmong {source : Text} {first second : Path → List Event}
    {other : List Path}
    (hagree : ∀ found, place.SourceImports file source found →
      Context.isAmong other found = Context.isAmong ancestry found ∧
        (¬ Context.isAmong ancestry found → first found = second found)) :
    place.sourceScript first ancestry tag file source =
      place.sourceScript second other tag file source := by
  have hfound (piece : Piece) (hpiece : piece ∈ Piece.ofSource source) (directive : Directive)
      (entry : Text) (hentry : entry ∈ piece.importEntries) :
      place.entryScript first ancestry tag file directive entry =
        place.entryScript second other tag file directive entry := by
    rw [entryScript, entryScript]
    split
    · rfl
    rename_i hspec
    split
    · rfl
    rename_i target htarget
    split
    · rfl
    · rfl
    · rename_i found hresolve
      rw [foundScript, foundScript]
      by_cases htemplate : place.compiler.settings.isTemplate found
      · obtain ⟨hamong, hscripts⟩ := hagree found
          ⟨⟨piece, hpiece, entry, hentry, hspec, target, htarget, hresolve⟩, htemplate⟩
        rw [if_pos htemplate, if_pos htemplate, hamong]
        split
        · rfl
        · rename_i hclosed
          rw [hscripts hclosed]
      · rw [if_neg htemplate, if_neg htemplate]
  rw [sourceScript, sourceScript]
  refine congrArg _ (List.flatMap_congr fun piece hpiece => ?_)
  cases piece with
  | literal text => rfl
  | broken problem line => rfl
  | directive directive =>
      rw [pieceScript, pieceScript, directiveScript, directiveScript]
      split
      · rfl
      · rename_i value hcategory hvalue
        refine congrArg _ (List.flatMap_congr fun entry hentry => ?_)
        apply hfound _ hpiece directive
        simpa only [Piece.importEntries, Directive.importEntries, hcategory, hvalue] using hentry
      · rfl
      · rfl

theorem sourceScript_congr {source : Text} {first second : Path → List Event}
    (hagree : ∀ found, place.SourceImports file source found →
      ¬ Context.isAmong ancestry found → first found = second found) :
    place.sourceScript first ancestry tag file source =
      place.sourceScript second ancestry tag file source :=
  sourceScript_congr_of_isAmong fun found himports => ⟨rfl, hagree found himports⟩

end Scripts

end Workplace

end KitTemplate
