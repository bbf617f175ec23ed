import KitTemplate.Proofs.FileTree.Likeness

/-! Trees that agree outside of a directory. A path of plain names is walked from the root through
the locations above its own, so nothing below a directory is looked at on the way to what does not
stand below it. Trees that agree outside of what is no directory agree everywhere. -/

namespace KitTemplate.FileTree

variable {tree after : FileTree} {location : Location} {path : Path}

/-! ### Walks through the same entries -/

theorem walk_eq_of_entries {names : List Text} (hnames : ∀ name ∈ names, Path.IsPlain name)
    (hentries : ∀ place, place <+: location ++ names → after.entry? place = tree.entry? place) :
    after.walk location names = tree.walk location names := by
  induction names generalizing location with
  | nil => rfl
  | cons name rest ih =>
      have hassoc : location ++ name :: rest = location ++ [name] ++ rest := by simp
      have hlocation := hentries location (List.prefix_append _ _)
      have hname := hentries (location ++ [name]) (by rw [hassoc]; exact List.prefix_append _ _)
      have hstep : after.stepInto location name = tree.stepInto location name := by
        rw [stepInto, stepInto, hlocation, hname]
      rw [walk, walk, hstep]
      cases hreached : tree.stepInto location name with
      | error refusal => rfl
      | ok reached =>
          obtain rfl := stepInto_of_plain (hnames name List.mem_cons_self) hreached
          refine ih (fun other hother => hnames other (List.mem_cons_of_mem _ hother)) ?_
          rw [← hassoc]
          exact hentries

theorem inspect_eq_of_entries (hpath : path.IsAbsolute)
    (hentries : ∀ place, place <+: path.parts → after.entry? place = tree.entry? place) :
    after.inspect path = tree.inspect path := by
  have hlocate : after.locate path = tree.locate path := by
    have horigin (tree : FileTree) : tree.origin path = [] := if_neg hpath.rooted
    rw [locate, locate, horigin, horigin, route_of_plain hpath.plain,
      walk_eq_of_entries hpath.plain (by simpa using hentries)]
  rw [inspect, inspect, hlocate]
  cases hfound : tree.locate path with
  | error refusal => cases refusal <;> rfl
  | ok found =>
      dsimp only
      rw [locate_of_isAbsolute hpath hfound, hentries path.parts List.prefix_rfl]

/-! ### Directories that are there -/

/-- The way to what is there is passable, unless one of its names is too long. -/
theorem cases_of_walk {names : List Text} (hnames : ∀ name ∈ names, Path.IsPlain name)
    (hentry : tree.entry? (location ++ names) ≠ none) :
    tree.walk location names = .ok (location ++ names) ∨
      tree.walk location names = .error .nameTooLong := by
  induction names generalizing location with
  | nil => exact Or.inl (by rw [List.append_nil]; rfl)
  | cons name rest ih =>
      have hassoc : location ++ name :: rest = location ++ [name] ++ rest := by simp
      obtain ⟨-, hdot, hdots, -⟩ := hnames name List.mem_cons_self
      have hlocation : tree.entry? location = some .directory :=
        entry?_of_above (List.prefix_append _ _) (by simp) hentry
      have hname : tree.entry? (location ++ [name]) ≠ none := by
        by_cases hrest : rest = []
        · rwa [hrest] at hentry
        · rw [hassoc] at hentry
          rw [entry?_of_above (List.prefix_append _ _) (by simpa using hrest) hentry]
          exact Option.some_ne_none _
      rw [walk]
      by_cases hsize : longestName < nameSize name
      · have hstep : tree.stepInto location name = .error .nameTooLong := by
          rw [stepInto, if_neg (Decidable.not_not.2 hlocation), if_neg hdot, if_neg hdots,
            if_pos hsize]
        rw [hstep]
        exact Or.inr rfl
      · have hstep : tree.stepInto location name = .ok (location ++ [name]) :=
          stepInto_eq_ok_iff.2 ⟨hlocation, Or.inr (Or.inr ⟨hdot, hdots, hsize, hname, rfl⟩)⟩
        rw [hstep, hassoc]
        rw [hassoc] at hentry
        exact ih (fun other hother => hnames other (List.mem_cons_of_mem _ hother)) hentry

/-- A path that can be looked at and names no directory spells the location of none. -/
theorem entry?_of_isDirectory (hpath : path.IsAbsolute)
    (hdirectory : tree.isDirectory path = .ok false) :
    tree.entry? path.parts ≠ some .directory := by
  intro hentry
  rw [isDirectory, inspect] at hdirectory
  split at hdirectory
  · rename_i location hlocate
    rw [locate_of_isAbsolute hpath hlocate, hentry] at hdirectory
    cases hdirectory
  · cases hdirectory
  · rename_i refusal hshort hlocate
    rw [locate] at hlocate
    split at hlocate
    · exact hshort (Except.error.inj hlocate).symm
    · rw [origin, if_neg hpath.rooted, route_of_plain hpath.plain] at hlocate
      have hthere : tree.entry? ([] ++ path.parts) ≠ none := by
        rw [List.nil_append, hentry]
        exact Option.some_ne_none _
      rcases cases_of_walk hpath.plain hthere with hwalk | hwalk
      · rw [hwalk] at hlocate
        cases hlocate
      · rw [hwalk] at hlocate
        exact hshort (Except.error.inj hlocate).symm

/-! ### Agreement outside of a location -/

namespace AgreesOutside

/-- Nothing is different below what is no directory. -/
theorem same (hagrees : AgreesOutside location tree after)
    (hlocation : tree.entry? location ≠ some .directory) : tree.Same after := by
  have hbelow {tree : FileTree} (hlocation : tree.entry? location ≠ some .directory)
      {place : Location} (habove : location <+: place) (hne : place ≠ location) :
      tree.entry? place = none :=
    Decidable.byContradiction fun hthere =>
      hlocation (entry?_of_above habove hne.symm hthere)
  have hlocation' : after.entry? location ≠ some .directory := by
    rwa [hagrees.entries location fun _ => rfl]
  have hentries (place : Location) : after.entry? place = tree.entry? place := by
    by_cases hplace : location <+: place ∧ place ≠ location
    · rw [hbelow hlocation hplace.1 hplace.2, hbelow hlocation' hplace.1 hplace.2]
    · exact hagrees.entries place fun habove =>
        Decidable.byContradiction fun hne => hplace ⟨habove, hne⟩
  refine ⟨hagrees.workingDirectory, hagrees.clock, hagrees.zone, hentries, fun place => ?_⟩
  by_cases hplace : location <+: place
  · have hnone : tree.entry? place ≠ some .directory := fun hdirectory => by
      by_cases hne : place = location
      · exact hlocation (hne ▸ hdirectory)
      · rw [hbelow hlocation hplace hne] at hdirectory
        cases hdirectory
    rw [names_eq_nil hnone, names_eq_nil (by rwa [hentries])]
  · exact hagrees.names place hplace

/-- What stands nowhere below the location is looked at in the same way. -/
theorem isDirectory_eq (hagrees : AgreesOutside location tree after) (hpath : path.IsAbsolute)
    (hbelow : location <+: path.parts → path.parts = location) :
    after.isDirectory path = tree.isDirectory path := by
  have hinspect : after.inspect path = tree.inspect path := by
    refine inspect_eq_of_entries hpath fun place hplace => hagrees.entries place fun habove => ?_
    have hparts : path.parts = location := hbelow (habove.trans hplace)
    rw [hparts] at hplace
    exact hplace.eq_of_length_le habove.length_le
  rw [FileTree.isDirectory, FileTree.isDirectory, hinspect]

/-- An entry put below the location makes no difference outside. -/
theorem of_put {place : Location} (hplace : tree.IsPlace place)
    (hfree : tree.entry? place ≠ some .directory) (hbelow : location <+: place)
    (hne : place ≠ location) (entry : Entry) :
    AgreesOutside location tree (tree.put place entry) := by
  refine ⟨rfl, rfl, rfl, fun other hother => entry?_put_of_ne hplace hfree ?_,
    fun other hother => ?_⟩
  · rintro rfl
    exact hne (hother hbelow)
  · rw [names_put_of_ne hplace hfree]
    rintro rfl
    obtain ⟨rest, rfl⟩ := hbelow
    have hrest : rest ≠ [] := fun hnil => hne (by rw [hnil, List.append_nil])
    rw [List.dropLast_append_of_ne_nil hrest] at hother
    exact hother (List.prefix_append _ _)

end AgreesOutside

end KitTemplate.FileTree
