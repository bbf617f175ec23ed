import KitTemplate.Proofs.FileTree.Outside
import KitTemplate.Proofs.FileTree.Within

/-! Emptying a directory. Its entries are removed one after another, and each of them takes with it
what stands below it (`Loses`). An entry is looked at by its path before it is removed, so the work
ends at the first entry whose path is too long (`HaltsAt`): those listed before it are gone, and it
stays with those listed after it. If there is no such entry, nothing is left below the directory,
and trees that differed only there are the same to every reader. -/

namespace KitTemplate.FileTree

variable {tree before middle after : FileTree} {location place reached : Location} {name : Text}
  {names more : List Text} {directory : Path}

/-! ### Entries that can be looked at -/

theorem mem_names_of_entry? (hentry : tree.entry? (location ++ [name]) ≠ none) :
    name ∈ tree.names location := by
  obtain ⟨inner, hinner⟩ := exists_of_entry?_directory
    (entry?_of_above (List.prefix_append location [name]) (by simp) hentry)
  have hlookup : inner.lookup name ≠ none := by
    intro hnone
    refine hentry ?_
    unfold entry?
    rw [node?_concat hinner, hnone]
    rfl
  rw [names_eq, hinner]
  refine Decidable.byContradiction fun hname => hlookup ?_
  refine List.lookup_eq_none_iff.2 fun child hchild => ?_
  rw [bne_iff_ne, ne_eq]
  rintro rfl
  exact hname (List.mem_map_of_mem hchild)

theorem not_longestName_lt_of_walk (hwalk : tree.walk location names = .ok reached)
    (hname : name ∈ names) : ¬ longestName < nameSize name := by
  induction names generalizing location with
  | nil => cases hname
  | cons first rest ih =>
      obtain ⟨next, hstep, hrest⟩ := walk_cons_eq_ok_iff.1 hwalk
      rcases List.mem_cons.1 hname with rfl | hmore
      · obtain ⟨-, ⟨rfl, -⟩ | ⟨rfl, -⟩ | ⟨-, -, hfits, -⟩⟩ := stepInto_eq_ok_iff.1 hstep
        · decide
        · decide
        · exact hfits
      · exact ih hrest hmore

theorem route_entry (hname : Path.IsPlain name) :
    route (directory.entry name) = route directory ++ [name] := by
  rw [route_eq, route_eq, Path.entry, List.flatMap_append, List.filter_append,
    List.flatMap_singleton, Text.splitOn_of_not_mem hname.2.2.2]
  simp [hname.1]

/-- An entry of a directory that is there can be looked at, unless its path is too long. -/
theorem inspect_entry_eq_error_iff (hlocate : tree.locate directory = .ok location)
    (hlocation : tree.entry? location = some .directory) (hname : Path.IsPlain name) :
    tree.inspect (directory.entry name) = .error ⟨.nameTooLong, directory.entry name⟩ ↔
      IsTooLong (directory.entry name) := by
  refine ⟨fun hdenied => (isTooLong_of_inspect hdenied).1, fun hlong => ?_⟩
  rw [locate] at hlocate
  split at hlocate
  · cases hlocate
  have hentry : tree.locate (directory.entry name) = .error .nameTooLong := by
    rw [locate]
    split
    · rfl
    · rename_i hsize
      obtain ⟨part, hpart, hpartLong⟩ := hlong.resolve_left hsize
      rw [route_entry hname] at hpart
      -- the names of the directory's own path have been passed
      rcases List.mem_append.1 hpart with habove | hlast
      · exact absurd hpartLong (not_longestName_lt_of_walk hlocate habove)
      · obtain rfl := List.mem_singleton.1 hlast
        rw [route_entry hname, walk_concat,
          show tree.origin (directory.entry part) = tree.origin directory from rfl, hlocate]
        show tree.stepInto location part = _
        rw [stepInto, if_neg (Decidable.not_not.2 hlocation), if_neg hname.2.1, if_neg hname.2.2.1,
          if_pos hpartLong]
  rw [inspect, hentry]

/-! ### Trees that have lost entries -/

/-- Whether a place is that of one of some entries of a directory, or below it. -/
def BelongsTo (location : Location) (names : List Text) (place : Location) : Prop :=
  ∃ name ∈ names, location ++ [name] <+: place

theorem BelongsTo.below (hplace : BelongsTo location names place) :
    location <+: place ∧ place ≠ location := by
  obtain ⟨name, -, hbelow⟩ := hplace
  refine ⟨(List.prefix_append location [name]).trans hbelow, ?_⟩
  rintro rfl
  exact absurd hbelow.length_le (by simp)

theorem belongsTo_append :
    BelongsTo location (names ++ more) place ↔
      BelongsTo location names place ∨ BelongsTo location more place := by
  simp [BelongsTo, or_and_right, exists_or]

/-- One tree comes from another by the loss of some entries of the directory at a location, with all
that stands below them. -/
structure Loses (location : Location) (names : List Text) (before after : FileTree) : Prop where
  workingDirectory : after.workingDirectory = before.workingDirectory
  clock : after.clock = before.clock
  zone : after.zone = before.zone
  gone : ∀ place, BelongsTo location names place → after.entry? place = none
  kept : ∀ place, ¬ BelongsTo location names place → after.entry? place = before.entry? place
  listed : ∀ place, ¬ location <+: place → after.names place = before.names place

namespace Loses

theorem refl (location : Location) (tree : FileTree) : Loses location [] tree tree :=
  ⟨rfl, rfl, rfl, nofun, fun _ _ => rfl, fun _ _ => rfl⟩

theorem trans (hfirst : Loses location names before middle)
    (hsecond : Loses location more middle after) : Loses location (names ++ more) before after where
  workingDirectory := hsecond.workingDirectory.trans hfirst.workingDirectory
  clock := hsecond.clock.trans hfirst.clock
  zone := hsecond.zone.trans hfirst.zone
  gone place hplace := by
    by_cases hmore : BelongsTo location more place
    · exact hsecond.gone place hmore
    · rw [hsecond.kept place hmore]
      exact hfirst.gone place ((belongsTo_append.1 hplace).resolve_right hmore)
  kept place hplace := by
    obtain ⟨hnames, hmore⟩ := not_or.1 (mt belongsTo_append.2 hplace)
    rw [hsecond.kept place hmore, hfirst.kept place hnames]
  listed place hplace := (hsecond.listed place hplace).trans (hfirst.listed place hplace)

theorem erase (hlocation : tree.entry? location = some .directory) (name : Text) :
    Loses location [name] tree (tree.erase (location ++ [name])) where
  workingDirectory := rfl
  clock := rfl
  zone := rfl
  gone place := by
    rintro ⟨own, hown, hbelow⟩
    obtain rfl := List.mem_singleton.1 hown
    exact entry?_erase_of_above ⟨by simp, by rwa [List.dropLast_concat]⟩ hbelow
  kept place hplace := entry?_update_of_not_prefix _ fun hbelow =>
    hplace ⟨name, List.mem_singleton_self name, hbelow⟩
  listed place hplace := by
    refine names_update _ ?_ fun hbelow =>
      hplace ((List.prefix_append location [name]).trans hbelow)
    rw [List.dropLast_concat]
    rintro rfl
    exact hplace List.prefix_rfl

variable (hloses : Loses location names before after)

include hloses

/-- What does not stand below the directory is kept. -/
theorem entry?_of_not_below (hplace : location <+: place → place = location) :
    after.entry? place = before.entry? place :=
  hloses.kept place fun hbelongs => hbelongs.below.2 (hplace hbelongs.below.1)

theorem changesWithin (others : Location → Prop) : ChangesWithin location others before after := by
  intro place
  by_cases hplace : BelongsTo location names place
  · exact Or.inr (Or.inl hplace.below)
  · exact Or.inl (hloses.kept place hplace)

theorem isWellNamed (hbefore : before.IsWellNamed) : after.IsWellNamed := by
  intro place hentry
  by_cases hplace : BelongsTo location names place
  · exact absurd (hloses.gone place hplace) hentry
  · rw [hloses.kept place hplace] at hentry
    exact hbefore place hentry

end Loses

theorem Loses.isDirectory_eq (hdirectory : directory.IsAbsolute)
    (hloses : Loses directory.parts names before after) :
    after.isDirectory directory = before.isDirectory directory := by
  have hinspect : after.inspect directory = before.inspect directory :=
    inspect_eq_of_entries hdirectory fun place hplace =>
      hloses.entry?_of_not_below fun hbelow => hplace.eq_of_length_le hbelow.length_le
  rw [isDirectory, isDirectory, hinspect]

/-! ### Directories that have lost all entries -/

section Emptied

variable (hloses : Loses location (before.names location) before after)

include hloses

theorem Loses.entry?_below (hbelow : location <+: place) (hne : place ≠ location) :
    after.entry? place = none := by
  refine Decidable.byContradiction fun hthere => ?_
  have hplace : ¬ BelongsTo location (before.names location) place := fun hbelongs =>
    hthere (hloses.gone place hbelongs)
  rw [hloses.kept place hplace] at hthere
  obtain ⟨_ | ⟨name, rest⟩, rfl⟩ := hbelow
  · exact hne (List.append_nil location)
  have habove : location ++ [name] <+: location ++ name :: rest := ⟨rest, by simp⟩
  have hentry : before.entry? (location ++ [name]) ≠ none := by
    by_cases hrest : rest = []
    · rwa [hrest] at hthere
    · rw [entry?_of_above habove (by simpa using Ne.symm hrest) hthere]
      exact Option.some_ne_none _
  exact hplace ⟨name, mem_names_of_entry? hentry, habove⟩

theorem Loses.names_below (hbelow : location <+: place) : after.names place = [] := by
  refine List.eq_nil_iff_forall_not_mem.2 fun name hname => entry?_of_mem_names hname ?_
  refine hloses.entry?_below (hbelow.trans (List.prefix_append place [name])) ?_
  rintro heq
  have hlength := hbelow.length_le
  rw [← heq, List.length_append, List.length_singleton] at hlength
  omega

end Emptied

/-- Trees that agree outside of a directory are the same once all its entries are gone. -/
theorem AgreesOutside.same_of_loses {first second : FileTree}
    (hagrees : AgreesOutside location before first)
    (hbefore : Loses location (before.names location) before after)
    (hfirst : Loses location (first.names location) first second) : after.Same second where
  workingDirectory := by
    rw [hfirst.workingDirectory, hbefore.workingDirectory, hagrees.workingDirectory]
  clock := by rw [hfirst.clock, hbefore.clock, hagrees.clock]
  zone := by rw [hfirst.zone, hbefore.zone, hagrees.zone]
  entries place := by
    by_cases hplace : location <+: place ∧ place ≠ location
    · rw [hfirst.entry?_below hplace.1 hplace.2, hbefore.entry?_below hplace.1 hplace.2]
    · have houtside : location <+: place → place = location := fun hbelow =>
        Decidable.byContradiction fun hne => hplace ⟨hbelow, hne⟩
      rw [hfirst.entry?_of_not_below houtside, hbefore.entry?_of_not_below houtside,
        hagrees.entries place houtside]
  names place := by
    by_cases hbelow : location <+: place
    · rw [hfirst.names_below hbelow, hbefore.names_below hbelow]
    · rw [hfirst.listed place hbelow, hbefore.listed place hbelow]
      exact hagrees.names place hbelow

/-! ### Removing entries one after another -/

theorem removeEntries_append (tree : FileTree) (directory : Path) (location : Location)
    (names more : List Text) (hall : (tree.removeEntries directory location names).2 = none) :
    tree.removeEntries directory location (names ++ more) =
      (tree.removeEntries directory location names).1.removeEntries directory location more := by
  induction names generalizing tree with
  | nil => rfl
  | cons name rest ih =>
      rw [removeEntries] at hall
      rw [List.cons_append, removeEntries, removeEntries]
      split
      · rename_i hdenied
        rw [hdenied] at hall
        cases hall
      · rename_i hfound
        rw [hfound] at hall
        exact ih _ hall

/-- Entries are lost in their order, and all of them unless one is refused. -/
theorem loses_removeEntries (directory : Path) (names : List Text)
    (hlocation : tree.entry? location = some .directory) :
    ∃ removed, removed <+: names ∧
      Loses location removed tree (tree.removeEntries directory location names).1 ∧
      ((tree.removeEntries directory location names).2 = none → removed = names) := by
  induction names generalizing tree with
  | nil => exact ⟨[], List.prefix_rfl, .refl location tree, fun _ => rfl⟩
  | cons name rest ih =>
      rw [removeEntries]
      split
      · exact ⟨[], List.nil_prefix, .refl location tree, nofun⟩
      · have herase := Loses.erase hlocation name
        obtain ⟨removed, hbelow, hrest, hall⟩ :=
          ih ((herase.entry?_of_not_below fun _ => rfl).trans hlocation)
        exact ⟨name :: removed, List.cons_prefix_cons.2 ⟨rfl, hbelow⟩, herase.trans hrest,
          fun hnone => by rw [hall hnone]⟩

/-! ### Where the work ends -/

/-- The first entry of a directory whose path is too long, and those that are listed before it. -/
structure HaltsAt (tree : FileTree) (directory : Path) (removed : List Text) (name : Text) :
    Prop where
  listed : removed ++ [name] <+: tree.names directory.parts
  fit : ∀ earlier ∈ removed, ¬ IsTooLong (directory.entry earlier)
  tooLong : IsTooLong (directory.entry name)

/-- No entry of a directory has a path that is too long. -/
def IsClearable (tree : FileTree) (directory : Path) : Prop :=
  ∀ name ∈ tree.names directory.parts, ¬ IsTooLong (directory.entry name)

instance (tree : FileTree) (directory : Path) : Decidable (tree.IsClearable directory) :=
  inferInstanceAs (Decidable (∀ name ∈ _, _))

theorem exists_haltsAt (hclearable : ¬ tree.IsClearable directory) :
    ∃ removed name, tree.HaltsAt directory removed name := by
  obtain ⟨name, hname, hlong⟩ : ∃ name ∈ tree.names directory.parts,
      IsTooLong (directory.entry name) := by
    simpa [IsClearable] using hclearable
  obtain ⟨first, hfirst⟩ := Option.isSome_iff_exists.1 (List.find?_isSome.2
    ⟨name, hname, decide_eq_true hlong⟩ :
      ((tree.names directory.parts).find? fun name => IsTooLong (directory.entry name)).isSome)
  obtain ⟨hfirstLong, removed, rest, hnames, hfit⟩ := List.find?_eq_some_iff_append.1 hfirst
  refine ⟨removed, first, ⟨rest, ?_⟩, fun earlier hearlier => ?_, of_decide_eq_true hfirstLong⟩
  · rw [hnames, List.append_assoc]
    rfl
  · simpa using hfit earlier hearlier

section Ending

variable (hdirectory : directory.IsAbsolute) (hthere : tree.isDirectory directory = .ok true)

include hdirectory hthere

theorem removeEntries_of_fit (hfit : ∀ name ∈ names, ¬ IsTooLong (directory.entry name)) :
    ∃ emptied, tree.removeEntries directory directory.parts names = (emptied, none) ∧
      Loses directory.parts names tree emptied := by
  induction names generalizing tree with
  | nil => exact ⟨tree, rfl, .refl _ tree⟩
  | cons name rest ih =>
      obtain ⟨location, hlocate, hentry⟩ := exists_of_isDirectory hthere
      obtain rfl := locate_of_isAbsolute hdirectory hlocate
      have herase := Loses.erase hentry name
      rw [removeEntries]
      split
      · rename_i denial hdenied
        exact absurd (isTooLong_of_inspect hdenied).1 (hfit name List.mem_cons_self)
      · obtain ⟨emptied, hrest, hloses⟩ := ih ((herase.isDirectory_eq hdirectory).trans hthere)
          fun other hother => hfit other (List.mem_cons_of_mem _ hother)
        exact ⟨emptied, hrest, herase.trans hloses⟩

/-- A directory is emptied if the path of none of its entries is too long. -/
theorem emptyDirectory_of_isClearable (hclearable : tree.IsClearable directory) :
    ∃ emptied, tree.emptyDirectory directory directory.parts = (emptied, none) ∧
      Loses directory.parts (tree.names directory.parts) tree emptied :=
  removeEntries_of_fit hdirectory hthere hclearable

/-- Emptying a directory ends at the first entry whose path is too long. -/
theorem emptyDirectory_of_haltsAt (hnames : tree.IsWellNamed) {removed : List Text}
    (hhalts : tree.HaltsAt directory removed name) :
    ∃ reached, tree.emptyDirectory directory directory.parts =
        (reached, some ⟨.nameTooLong, directory.entry name⟩) ∧
      Loses directory.parts removed tree reached := by
  obtain ⟨rest, hlisted⟩ := hhalts.listed
  obtain ⟨reached, hremoved, hloses⟩ := removeEntries_of_fit hdirectory hthere hhalts.fit
  have hname : Path.IsPlain name :=
    hnames _ (entry?_of_mem_names (hlisted ▸ by simp : name ∈ tree.names directory.parts)) name
      (by simp)
  have hstill := (hloses.isDirectory_eq hdirectory).trans hthere
  obtain ⟨location, hlocate, hentry⟩ := exists_of_isDirectory hstill
  have hdenied := (inspect_entry_eq_error_iff hlocate hentry hname).2 hhalts.tooLong
  refine ⟨reached, ?_, hloses⟩
  rw [emptyDirectory, ← hlisted, List.append_assoc,
    removeEntries_append tree directory _ removed _ (by rw [hremoved]), hremoved]
  show removeEntries reached directory directory.parts (name :: rest) = _
  rw [removeEntries, hdenied]

end Ending

/-- In a directory with a path of 4060 bytes, the first entry is removed, and the work ends at the
second one, whose name has 57. -/
example :
    let directory : Path :=
      ⟨.root, List.replicate 15 (List.replicate 255 'x') ++ [List.replicate 219 'x']⟩
    let long := List.replicate 57 'y'
    let tree := ofEntries
      ((List.range 17).tail.map (fun length => (directory.parts.take length, .directory)) ++
        [(directory.parts ++ [['a']], .directory),
         (directory.parts ++ [['a'], ['b']], .file [] ⟨0⟩),
         (directory.parts ++ [long], .file [] ⟨0⟩), (directory.parts ++ [['c']], .file [] ⟨0⟩)])
      ⟨.root, []⟩
    let left := tree.emptyDirectory directory directory.parts
    tree.names directory.parts = [['a'], long, ['c']] ∧
      left.1.names directory.parts = [long, ['c']] ∧
      left.2 = some ⟨.nameTooLong, directory.entry long⟩ := by
  decide +kernel

end KitTemplate.FileTree
