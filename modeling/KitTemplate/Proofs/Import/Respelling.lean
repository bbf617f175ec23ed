import KitTemplate.Proofs.Compilation.Outcome
import KitTemplate.Proofs.Import.Resolution

/-! Names under which an imported file is looked for. The extension is added to a name without a
suffix, and then the name has one; the underscore is added to the name or taken from it; the name is
carried over to another folder. None of this changes the suffix, by which templates are told from
other files, so a file that is found under another name is treated as the target would be. There is
one exception. The counterpart of a name that is an underscore and a suffix begins with its only
dot, so it has no suffix at all (`suffix_toggleUnderscore`), and it is never a template. -/

namespace KitTemplate

namespace Import

theorem toggleUnderscore_append {name : Text} (hname : name ≠ []) (rest : Text) :
    toggleUnderscore (name ++ rest) = toggleUnderscore name ++ rest := by
  obtain ⟨c, name, rfl⟩ := List.exists_cons_of_ne_nil hname
  by_cases hunderscore : c = '_'
  · rw [hunderscore]
    rfl
  · rw [toggleUnderscore_of_ne (by simpa using hunderscore),
      toggleUnderscore_of_ne (by simpa using hunderscore)]
    rfl

theorem toggleUnderscore_eq_nil_iff {name : Text} :
    toggleUnderscore name = [] ↔ name = ['_'] := by
  unfold toggleUnderscore
  split
  · simp
  · rename_i hname
    exact iff_of_false (List.cons_ne_nil _ _) (hname [])

/-- A name and its counterpart have the same suffix, unless the underscore is the whole stem. -/
theorem suffix_toggleUnderscore {name : Text} (hsuffix : (Path.splitSuffix name).2 ≠ []) :
    (Path.splitSuffix (toggleUnderscore name)).2 =
      if (Path.splitSuffix name).1 = ['_'] then [] else (Path.splitSuffix name).2 := by
  obtain ⟨stem, extension, rfl, hstem, hextension, hdot⟩ := Path.exists_of_suffix_ne_nil hsuffix
  rw [toggleUnderscore_append hstem, Path.splitSuffix_append_cons hdot,
    Path.splitSuffix_append_dot hstem hextension hdot]
  simp only [toggleUnderscore_eq_nil_iff, hextension, or_false]
  split <;> rfl

variable {folders : List Path} {target : Path}

theorem candidates_eq_ok_iff {places : List Path} :
    candidates folders target = .ok places ↔
      ∃ paths, fallbacks folders target = .ok paths ∧ places = target :: paths := by
  rw [candidates]
  cases fallbacks folders target with
  | error problem => exact iff_of_false nofun (by simp)
  | ok paths =>
      refine ⟨fun hplaces => ⟨paths, rfl, (Except.ok.inj hplaces).symm⟩, ?_⟩
      rintro ⟨_, hpaths, rfl⟩
      rw [Except.ok.inj hpaths]
      rfl

/-- The places tried for a target whose name has a suffix go by its name or by the counterpart of
its name, and one of them goes by the counterpart. -/
theorem exists_candidates (folders : List Path) (hsuffix : target.suffix ≠ [])
    (hslash : '/' ∉ target.name) :
    ∃ places, candidates folders target = .ok places ∧
      (∀ place ∈ places, place.name = target.name ∨ place.name = toggleUnderscore target.name) ∧
      ∃ place ∈ places, place.name = toggleUnderscore target.name := by
  have hname : Path.IsPlain target.name := Path.isPlain_of_suffix_ne_nil hsuffix hslash
  have htoggled : Path.IsPlain (toggleUnderscore target.name) :=
    isPlain_toggleUnderscore hsuffix hslash
  refine ⟨_, candidates_eq_ok_iff.2 ⟨_, fallbacks_eq folders hsuffix hslash, rfl⟩, ?_, ?_⟩
  · intro place hplace
    simp only [Path.child_of_plain hname, Path.child_of_plain htoggled, List.mem_cons,
      List.mem_flatMap, List.not_mem_nil, or_false] at hplace
    rcases hplace with rfl | rfl | ⟨folder, -, rfl | rfl⟩
    · exact Or.inl rfl
    · exact Or.inr (Path.name_of_parts rfl)
    · exact Or.inl (Path.name_of_parts rfl)
    · exact Or.inr (Path.name_of_parts rfl)
  · exact ⟨_, List.mem_cons_of_mem _ List.mem_cons_self, Path.name_of_parts rfl⟩

/-- What is found for a target is one of the places tried for it. -/
theorem mem_candidates_of_resolve {tree : FileTree} {found : Path} {places : List Path}
    (hplaces : candidates folders target = .ok places)
    (hresolve : resolve tree folders target = .ok (some found)) : found ∈ places := by
  obtain ⟨paths, hpaths, rfl⟩ := candidates_eq_ok_iff.1 hplaces
  obtain ⟨-, rfl | ⟨paths', hpaths', hmem⟩⟩ := resolve_eq_some hresolve
  · exact List.mem_cons_self
  · obtain rfl := Except.ok.inj (hpaths'.symm.trans hpaths)
    exact List.mem_cons_of_mem _ hmem

end Import

namespace Settings

variable {settings : Settings} {place target : Path}

theorem isTemplate_eq_of_name (hname : place.name = target.name) :
    settings.isTemplate place = settings.isTemplate target := by
  rw [isTemplate, isTemplate, Path.suffix, Path.suffix, hname]

/-- A place that goes by the counterpart of a target's name. -/
theorem isTemplate_eq_of_toggleUnderscore (hextension : settings.templateExtension ≠ [])
    (hsuffix : target.suffix ≠ []) (hname : place.name = Import.toggleUnderscore target.name) :
    settings.isTemplate place = (settings.isTemplate target && target.stem ≠ ['_']) := by
  have htoggled : place.suffix = if target.stem = ['_'] then [] else target.suffix := by
    rw [Path.suffix, hname]
    exact Import.suffix_toggleUnderscore hsuffix
  rw [isTemplate, isTemplate, htoggled]
  by_cases hlone : target.stem = ['_']
  · have hlower : Text.lowerCase [] ≠ settings.templateExtension.lowerCase := fun hlower =>
      hextension (Text.eq_nil_of_lowerCase hlower.symm)
    simp [hlone, hlower]
  · simp [hlone]

/-- The places tried for a target are templates or not as the target is, unless the target is a
template whose name is an underscore and a suffix. -/
theorem forall_isTemplate_candidates_iff (hextension : settings.templateExtension ≠ [])
    {folders : List Path} (hsuffix : target.suffix ≠ []) (hslash : '/' ∉ target.name)
    {places : List Path} (hplaces : Import.candidates folders target = .ok places) :
    (∀ place ∈ places, settings.isTemplate place = settings.isTemplate target) ↔
      target.stem ≠ ['_'] ∨ settings.isTemplate target = false := by
  obtain ⟨places', hplaces', hnames, counterpart, hmem, hcounterpart⟩ :=
    Import.exists_candidates folders hsuffix hslash
  obtain rfl := Except.ok.inj (hplaces'.symm.trans hplaces)
  constructor
  · intro hall
    have hsame := hall counterpart hmem
    rw [isTemplate_eq_of_toggleUnderscore hextension hsuffix hcounterpart] at hsame
    by_cases hlone : target.stem = ['_']
    · exact Or.inr (by simpa [hlone] using hsame.symm)
    · exact Or.inl hlone
  · intro htarget place hplace
    rcases hnames place hplace with hname | hname
    · exact isTemplate_eq_of_name hname
    · rw [isTemplate_eq_of_toggleUnderscore hextension hsuffix hname]
      rcases htarget with hlone | hother
      · simp [hlone]
      · simp [hother]

/-- The counterpart of a target that is named by an underscore and the extension. -/
example :
    (Import.candidates [] ⟨.root, ["_.kit".toList]⟩).map (·.map ({} : Settings).isTemplate) =
      .ok [true, false] :=
  rfl

end Settings

namespace Workplace

open Expansion

variable (place : Workplace) (importFile : Path → Expansion Text) (file : Path)
  (directive : Directive)

/-- What a template that is found for an entry of an import list is replaced by. -/
def importTemplate (found : Path) : Expansion Text := do
  if (← get).isOpen found then
    fail (.importCycle found.name) file directive.line
  else
    note 2 ("importing ".toList ++ found.toText)
    importFile found

/-- What any other file that is found for an entry of an import list is replaced by. -/
def includeFile (found : Path) : Expansion Text := do
  note 2 ("including ".toList ++ found.toText)
  attempt (place.compiler.readText place.tree found file.name (some directive.line))

theorem expandFound_eq (found : Path) :
    place.expandFound importFile file directive found =
      if place.compiler.settings.isTemplate found then
        importTemplate importFile file directive found
      else place.includeFile file directive found :=
  rfl

end Workplace

/-- With an extension that is a dot and a name, a path that has a name has a target, which is its
own target, and a template if the path had no suffix. There are always places to try for the target.
Every one of them is a template or not as the target is, unless the target is a template whose name
is an underscore and a suffix; so what is found for a target is expanded, or included as it is, as
the target itself would be. -/
theorem respelling_keeps_treatment (place : Workplace) {suffix : Text}
    (hextension : place.compiler.settings.templateExtension = '.' :: suffix) (hempty : suffix ≠ [])
    (hdot : '.' ∉ suffix) (hslash : '/' ∉ suffix) (folders : List Path) (text : Text)
    (hname : (Path.ofText text).name ≠ []) :
    ∃ target places, place.compiler.settings.applyExtension (.ofText text) = .ok target ∧
      place.compiler.settings.applyExtension target = .ok target ∧
      ((Path.ofText text).suffix = [] → place.compiler.settings.isTemplate target) ∧
      Import.candidates folders target = .ok places ∧
      ((∀ tried ∈ places, place.compiler.settings.isTemplate tried =
          place.compiler.settings.isTemplate target) ↔
        target.stem ≠ ['_'] ∨ place.compiler.settings.isTemplate target = false) ∧
      (target.stem ≠ ['_'] → ∀ found,
        Import.resolve place.tree folders target = .ok (some found) →
        ∀ importFile file directive, place.expandFound importFile file directive found =
          if place.compiler.settings.isTemplate target then
            Workplace.importTemplate importFile file directive found
          else place.includeFile file directive found) := by
  have hname' : '/' ∉ (Path.ofText text).name :=
    (Path.mem_parts_ofText (Path.mem_parts_of_name hname)).2.2
  obtain ⟨target, happlied, -, hsuffix, htarget, hextended⟩ :=
    Settings.exists_applyExtension hextension hempty hdot hslash hname hname'
  obtain ⟨places, hplaces, -⟩ := Import.exists_candidates folders hsuffix htarget
  have hne : place.compiler.settings.templateExtension ≠ [] := by
    rw [hextension]
    exact List.cons_ne_nil _ _
  have hsame := Settings.forall_isTemplate_candidates_iff hne hsuffix htarget hplaces
  refine ⟨target, places, happlied, ?_, ?_, hplaces, hsame, ?_⟩
  · rw [Settings.applyExtension, if_pos hsuffix]
  · intro hnone
    rw [Settings.isTemplate, hextended hnone, decide_eq_true rfl]
  · intro hstem found hresolve importFile file directive
    rw [Workplace.expandFound_eq,
      hsame.2 (Or.inl hstem) found (Import.mem_candidates_of_resolve hplaces hresolve)]

/-- A template found in a folder, under a name with neither the underscore nor the directory that
the entry has. -/
theorem respelling_keeps_treatment_folder :
    let place : Workplace := ⟨{ postsDirectory := ⟨.root, []⟩ },
      (Workspace.ofFiles [("nav.kit".toList, [])]).tree⟩
    let target : Path := ⟨.root, ["site".toList, "_nav.kit".toList]⟩
    let found : Path := ⟨.root, ["nav.kit".toList]⟩
    place.compiler.settings.applyExtension (.ofText "/site/_nav".toList) = .ok target ∧
      Import.resolve place.tree [⟨.root, []⟩] target = .ok (some found) ∧
      ∀ importFile file directive, place.expandFound importFile file directive found =
        Workplace.importTemplate importFile file directive found := by
  intro place target found
  have happlied : place.compiler.settings.applyExtension (.ofText "/site/_nav".toList) =
      .ok target := rfl
  have hresolve : Import.resolve place.tree [⟨.root, []⟩] target = .ok (some found) :=
    rfl
  obtain ⟨target', places, happlied', -, htemplate, -, -, htreated⟩ :=
    respelling_keeps_treatment place (show _ = '.' :: "kit".toList by decide) (by decide)
      (by decide) (by decide) [⟨.root, []⟩] "/site/_nav".toList (by decide)
  obtain rfl := Except.ok.inj (happlied.symm.trans happlied')
  refine ⟨happlied, hresolve, fun importFile file directive => ?_⟩
  rw [htreated (by decide) found hresolve, if_pos (htemplate (by decide))]

end KitTemplate
