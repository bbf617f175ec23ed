import KitTemplate.FileTree.Change
import KitTemplate.Proofs.FileTree.Update

/-! Trees that grow. Making directories puts a directory into places that were free and does nothing
else, also where it is refused half way; opening a file for writing changes the one place that its
path names. A walk that succeeds in a tree succeeds in every tree that has the directories of the
first one and something wherever the first one has something, so a file that was opened is found
again under its path. -/

namespace KitTemplate.FileTree

variable {tree : FileTree} {path : Path} {location reached : Location} {name : Text}

/-! ### Trees that extend others -/

/-- A tree that has the directories of another one, and something wherever that has something. -/
structure Extends (before after : FileTree) : Prop where
  workingDirectory : after.workingDirectory = before.workingDirectory
  directory : ∀ location, before.entry? location = some .directory →
    after.entry? location = some .directory
  present : ∀ location, before.entry? location ≠ none → after.entry? location ≠ none

namespace Extends

variable {before middle after : FileTree}

theorem refl (tree : FileTree) : tree.Extends tree := ⟨rfl, fun _ => id, fun _ => id⟩

theorem trans (hfirst : before.Extends middle) (hsecond : middle.Extends after) :
    before.Extends after where
  workingDirectory := hsecond.workingDirectory.trans hfirst.workingDirectory
  directory location hdirectory := hsecond.directory location (hfirst.directory location hdirectory)
  present location hpresent := hsecond.present location (hfirst.present location hpresent)

theorem stepInto (hextends : before.Extends after)
    (hstep : before.stepInto location name = .ok reached) :
    after.stepInto location name = .ok reached := by
  obtain ⟨hlocation, hreached⟩ := stepInto_eq_ok_iff.1 hstep
  refine stepInto_eq_ok_iff.2 ⟨hextends.directory _ hlocation, ?_⟩
  refine hreached.imp_right (Or.imp_right ?_)
  rintro ⟨hdot, hdots, hsize, hentry, rfl⟩
  exact ⟨hdot, hdots, hsize, hextends.present _ hentry, rfl⟩

theorem walk (hextends : before.Extends after) {names : List Text}
    (hwalk : before.walk location names = .ok reached) :
    after.walk location names = .ok reached := by
  induction names generalizing location with
  | nil => exact hwalk
  | cons name rest ih =>
      obtain ⟨next, hstep, hrest⟩ := walk_cons_eq_ok_iff.1 hwalk
      exact walk_cons_eq_ok_iff.2 ⟨next, hextends.stepInto hstep, ih hrest⟩

theorem locate (hextends : before.Extends after) (hlocate : before.locate path = .ok location) :
    after.locate path = .ok location := by
  rw [FileTree.locate] at hlocate ⊢
  split at hlocate
  · cases hlocate
  · rename_i hsize
    have horigin : after.origin path = before.origin path := by
      rw [origin, origin, hextends.workingDirectory]
    rw [if_neg hsize, horigin]
    exact hextends.walk hlocate

end Extends

/-! ### New places -/

/-- How a path leads to a place: by all names but the last, and then by that one or to it. -/
theorem cases_of_locateNew (hnew : tree.locateNew path = .ok location) :
    route path = [] ∧ location = tree.origin path ∧ tree.entry? location ≠ none ∨
      ∃ above name directory, route path = above ++ [name] ∧
        tree.walk (tree.origin path) above = .ok directory ∧
        (tree.stepInto directory name = .ok location ∨
          tree.stepInto directory name = .error .missing ∧ location = directory ++ [name]) := by
  rw [locateNew] at hnew
  split at hnew
  · cases hnew
  split at hnew
  · rename_i hroute
    split at hnew
    · cases hnew
    · rename_i hentry
      obtain rfl := Except.ok.inj hnew
      exact Or.inl ⟨List.getLast?_eq_none_iff.1 hroute, rfl, hentry⟩
  · rename_i name hroute
    obtain ⟨above, habove⟩ := List.getLast?_eq_some_iff.1 hroute
    rw [habove, List.dropLast_concat] at hnew
    cases hwalk : tree.walk (tree.origin path) above with
    | error refusal =>
        rw [hwalk] at hnew
        cases hnew
    | ok directory =>
        rw [hwalk] at hnew
        refine Or.inr ⟨above, name, directory, habove, hwalk, ?_⟩
        simp only [bind, Except.bind] at hnew
        split at hnew
        · rename_i hmissing
          exact Or.inr ⟨hmissing, (Except.ok.inj hnew).symm⟩
        · exact Or.inl hnew

/-- A path that names nothing yet leads to a free place. -/
theorem isPlace_of_locateNew (hnew : tree.locateNew path = .ok location)
    (hentry : tree.entry? location ≠ some .directory) : tree.IsPlace location := by
  have hne : location ≠ [] := by
    rintro rfl
    exact hentry rfl
  rcases cases_of_locateNew hnew with
    ⟨-, -, hpresent⟩ | ⟨above, name, directory, -, -, hstep | ⟨hmissing, rfl⟩⟩
  · exact isPlace_of_entry? hne hpresent
  · exact isPlace_of_entry? hne (entry?_of_stepInto hstep)
  · refine ⟨hne, ?_⟩
    rw [List.dropLast_concat]
    exact (stepInto_eq_missing_iff.1 hmissing).1

/-- A path that goes by names alone leads to the place that it spells. -/
theorem locateNew_of_isAbsolute (hpath : path.IsAbsolute)
    (hnew : tree.locateNew path = .ok location) : location = path.parts := by
  have hroute := route_of_plain hpath.plain
  have horigin : tree.origin path = [] := if_neg hpath.rooted
  rcases cases_of_locateNew hnew with
    ⟨hnil, rfl, -⟩ | ⟨above, name, directory, hnames, hwalk, hstep⟩
  · rw [horigin, ← hroute, hnil]
  · rw [hroute] at hnames
    have habove : directory = above := by
      rw [horigin] at hwalk
      refine walk_of_plain (fun part hpart => hpath.plain part ?_) hwalk
      rw [hnames]
      exact List.mem_append_left _ hpart
    have hname : Path.IsPlain name := hpath.plain name (by rw [hnames]; simp)
    rw [hnames, ← habove]
    rcases hstep with hstep | ⟨-, rfl⟩
    · exact stepInto_of_plain hname hstep
    · rfl

/-- What was put at the place of a path is found under the path. -/
theorem locate_of_locateNew {before after : FileTree} (hextends : before.Extends after)
    (hnew : before.locateNew path = .ok location) (hentry : after.entry? location ≠ none) :
    after.locate path = .ok location := by
  have horigin : after.origin path = before.origin path := by
    rw [origin, origin, hextends.workingDirectory]
  have hsize : ¬ longestPath < nameSize path.toText := by
    intro hlong
    rw [locateNew, if_pos hlong] at hnew
    cases hnew
  rw [locate, if_neg hsize, horigin]
  rcases cases_of_locateNew hnew with
    ⟨hnil, rfl, -⟩ | ⟨above, name, directory, hnames, hwalk, hstep⟩
  · rw [hnil]
    rfl
  · rw [hnames]
    refine walk_concat_eq_ok_iff.2 ⟨directory, hextends.walk hwalk, ?_⟩
    rcases hstep with hstep | ⟨hmissing, rfl⟩
    · exact hextends.stepInto hstep
    · obtain ⟨hdirectory, hdot, hdots, hlength, -⟩ := stepInto_eq_missing_iff.1 hmissing
      exact stepInto_eq_ok_iff.2 ⟨hextends.directory _ hdirectory,
        Or.inr (Or.inr ⟨hdot, hdots, hlength, hentry, rfl⟩)⟩

/-! ### Making directories -/

/-- One tree comes from another by directories put into free places, all of them among some. -/
structure Adds (places : Location → Prop) (before after : FileTree) : Prop where
  workingDirectory : after.workingDirectory = before.workingDirectory
  entries : ∀ location, after.entry? location = before.entry? location ∨
    places location ∧ before.entry? location = none ∧ after.entry? location = some .directory

namespace Adds

variable {places : Location → Prop} {before middle after : FileTree}

theorem refl (tree : FileTree) : Adds places tree tree := ⟨rfl, fun _ => Or.inl rfl⟩

theorem trans (hfirst : Adds places before middle) (hsecond : Adds places middle after) :
    Adds places before after where
  workingDirectory := hsecond.workingDirectory.trans hfirst.workingDirectory
  entries location := by
    rcases hfirst.entries location with hsame | ⟨hplace, hnone, hmade⟩
    · rw [← hsame]
      exact hsecond.entries location
    · refine Or.inr ⟨hplace, hnone, ?_⟩
      rcases hsecond.entries location with hsame | ⟨-, hnone', -⟩
      · rw [hsame, hmade]
      · rw [hmade] at hnone'
        cases hnone'

end Adds

variable {places : Location → Prop} {before after : FileTree}

theorem extends_of_adds (hadds : Adds places before after) :
    before.Extends after where
  workingDirectory := hadds.workingDirectory
  directory location hdirectory := by
    rcases hadds.entries location with hsame | ⟨-, hnone, -⟩
    · rwa [hsame]
    · rw [hdirectory] at hnone
      cases hnone
  present location hpresent := by
    rcases hadds.entries location with hsame | ⟨-, hnone, -⟩
    · rwa [hsame]
    · exact absurd hnone hpresent

theorem exists_of_makeDirectory {made : FileTree} (hmake : tree.makeDirectory path = .ok made) :
    ∃ location, tree.locateNew path = .ok location ∧ tree.entry? location = none ∧
      made = tree.put location .directory := by
  rw [makeDirectory] at hmake
  cases hnew : tree.locateNew path with
  | error refusal =>
      rw [hnew] at hmake
      cases hmake
  | ok location =>
      rw [hnew] at hmake
      change (if tree.entry? location ≠ none then Except.error Refusal.alreadyThere
        else .ok (tree.put location .directory)) = .ok made at hmake
      split at hmake
      · cases hmake
      · rename_i hnone
        exact ⟨location, rfl, Decidable.not_not.1 hnone, (Except.ok.inj hmake).symm⟩

theorem adds_of_makeDirectory {made : FileTree} (hmake : tree.makeDirectory path = .ok made)
    (hplaces : ∀ location, tree.locateNew path = .ok location → places location) :
    Adds places tree made := by
  obtain ⟨location, hnew, hnone, rfl⟩ := exists_of_makeDirectory hmake
  have hfree : tree.entry? location ≠ some .directory := by rw [hnone]; nofun
  have hplace := isPlace_of_locateNew hnew hfree
  refine ⟨rfl, fun other => ?_⟩
  by_cases hother : other = location
  · rw [hother]
    exact Or.inr ⟨hplaces location hnew, hnone, entry?_put_self hplace⟩
  · exact Or.inl (entry?_put_of_ne hplace hfree hother)

/-- How the making of one directory is settled: it is made, or it is there, or it is refused. -/
theorem cases_of_settle (tree : FileTree) (path : Path) (existing : Bool) :
    (∃ made, tree.makeDirectory path = .ok made ∧
        settle tree path existing (tree.makeDirectory path) = (made, none)) ∨
      (∃ location, tree.locate path = .ok location ∧ tree.entry? location = some .directory ∧
        settle tree path existing (tree.makeDirectory path) = (tree, none)) ∨
      ∃ denial, settle tree path existing (tree.makeDirectory path) = (tree, some denial) := by
  cases hmake : tree.makeDirectory path with
  | ok made => exact Or.inl ⟨made, rfl, rfl⟩
  | error refusal =>
      unfold settle
      dsimp only
      split
      · rename_i location hlocate
        split
        · rename_i hentry
          exact Or.inr (Or.inl ⟨location, hlocate, hentry, rfl⟩)
        · exact Or.inr (Or.inr ⟨_, rfl⟩)
      · exact Or.inr (Or.inr ⟨_, rfl⟩)

/-- Directories are made for the parents of a path, and then for the path unless a parent has been
refused. `among` are the paths that this goes through. -/
theorem cases_of_makeDirectoriesFrom {among : Path → Prop}
    (hparent : ∀ path, among path → among path.parent)
    (hplaces : ∀ path (tree : FileTree) location, among path →
      tree.locateNew path = .ok location → places location)
    (existing : Bool) (depth : Nat) (tree : FileTree) {path : Path} (hpath : among path) :
    ∃ reached, Adds places tree reached ∧
      (tree.makeDirectoriesFrom path existing depth =
          settle reached path existing (reached.makeDirectory path) ∨
        ∃ denial, tree.makeDirectoriesFrom path existing depth = (reached, some denial)) := by
  induction depth generalizing path existing with
  | zero => exact ⟨tree, .refl tree, Or.inl rfl⟩
  | succ depth ih =>
      rw [makeDirectoriesFrom]
      split
      · obtain ⟨reached, hadds, hsettle | ⟨denial, hdenied⟩⟩ := ih true (hparent path hpath)
        · rcases cases_of_settle reached path.parent true with
            ⟨made, hmade, hmakes⟩ | ⟨location, -, -, hthere⟩ | ⟨denial, hdenied⟩
          · have hmore := adds_of_makeDirectory hmade fun location =>
              hplaces path.parent reached location (hparent path hpath)
            refine ⟨made, hadds.trans hmore, Or.inl ?_⟩
            rw [hsettle, hmakes]
          · refine ⟨reached, hadds, Or.inl ?_⟩
            rw [hsettle, hthere]
          · refine ⟨reached, hadds, Or.inr ⟨denial, ?_⟩⟩
            rw [hsettle, hdenied]
        · refine ⟨reached, hadds, Or.inr ⟨denial, ?_⟩⟩
          rw [hdenied]
      · exact ⟨tree, .refl tree, Or.inl rfl⟩

theorem cases_of_makeDirectories (places : Location → Prop) (among : Path → Prop)
    (hparent : ∀ path, among path → among path.parent)
    (hplaces : ∀ path (tree : FileTree) location, among path →
      tree.locateNew path = .ok location → places location)
    (tree : FileTree) {path : Path} (existing : Bool) (hpath : among path) :
    Adds places tree (tree.makeDirectories path existing).1 ∧
      ((tree.makeDirectories path existing).2 = none → ∃ reached location,
        (locate reached path = .ok location ∨ locateNew reached path = .ok location) ∧
          entry? (tree.makeDirectories path existing).1 location = some .directory) := by
  rw [makeDirectories]
  obtain ⟨reached, hadds, hsettle | ⟨denial, hdenied⟩⟩ :=
    cases_of_makeDirectoriesFrom hparent hplaces existing path.parts.length tree hpath
  · rw [hsettle]
    rcases cases_of_settle reached path existing with
      ⟨made, hmade, hmakes⟩ | ⟨location, hlocate, hentry, hthere⟩ | ⟨denial, hdenied⟩
    · obtain ⟨location, hnew, hnone, rfl⟩ := exists_of_makeDirectory hmade
      have hmore := adds_of_makeDirectory hmade fun location =>
        hplaces path reached location hpath
      have hplace := isPlace_of_locateNew hnew (by rw [hnone]; nofun)
      rw [hmakes]
      exact ⟨hadds.trans hmore, fun _ => ⟨reached, location, Or.inr hnew, entry?_put_self hplace⟩⟩
    · rw [hthere]
      exact ⟨hadds, fun _ => ⟨reached, location, Or.inl hlocate, hentry⟩⟩
    · rw [hdenied]
      exact ⟨hadds, nofun⟩
  · rw [hdenied]
    exact ⟨hadds, nofun⟩

theorem adds_makeDirectories (tree : FileTree) (path : Path) (existing : Bool) :
    Adds (fun _ => True) tree (tree.makeDirectories path existing).1 :=
  (cases_of_makeDirectories _ (fun _ => True) (fun _ _ => trivial)
    (fun _ _ _ _ _ => trivial) tree existing trivial).1

/-- The directories for a path that goes by names alone stand at that path and above it. -/
theorem makeDirectories_of_isAbsolute (tree : FileTree) (existing : Bool)
    (hpath : path.IsAbsolute) :
    Adds (· <+: path.parts) tree (tree.makeDirectories path existing).1 ∧
      ((tree.makeDirectories path existing).2 = none →
        entry? (tree.makeDirectories path existing).1 path.parts = some .directory) := by
  obtain ⟨hadds, hmade⟩ := cases_of_makeDirectories (· <+: path.parts)
    (fun above => above.IsAbsolute ∧ above.parts <+: path.parts)
    (fun above ⟨habsolute, habove⟩ =>
      ⟨habsolute.parent, (List.dropLast_prefix above.parts).trans habove⟩)
    (fun above tree location ⟨habsolute, habove⟩ hnew => by
      rwa [locateNew_of_isAbsolute habsolute hnew])
    tree existing ⟨hpath, List.prefix_rfl⟩
  refine ⟨hadds, fun hdenial => ?_⟩
  obtain ⟨reached, location, hlocate | hnew, hentry⟩ := hmade hdenial
  · rwa [locate_of_isAbsolute hpath hlocate] at hentry
  · rwa [locateNew_of_isAbsolute hpath hnew] at hentry

/-! ### Files -/

/-- What the file at a location holds, with its time of change. -/
def file? (tree : FileTree) (location : Location) : Option (Bytes × Instant) :=
  match tree.entry? location with
  | some (.file content changed) => some (content, changed)
  | _ => none

theorem file?_eq_some_iff {content : Bytes} {changed : Instant} :
    tree.file? location = some (content, changed) ↔
      tree.entry? location = some (.file content changed) := by
  rw [file?]
  split
  · rename_i found time hentry
    rw [hentry]
    simp
  · rename_i hnone
    constructor
    · nofun
    · intro hentry
      exact absurd hentry (hnone content changed)

/-- New directories are no files, and they take the place of none. -/
theorem file?_of_adds (hadds : Adds places before after) (location : Location) :
    after.file? location = before.file? location := by
  rw [file?, file?]
  rcases hadds.entries location with hsame | ⟨-, hnone, hmade⟩
  · rw [hsame]
  · rw [hnone, hmade]

/-! ### Writing a file -/

/-- One tree comes from another by a file that is put in a place where no directory stands. -/
structure Writes (location : Location) (content : Bytes) (before after : FileTree) : Prop where
  workingDirectory : after.workingDirectory = before.workingDirectory
  free : before.entry? location ≠ some .directory
  written : ∃ changed, after.entry? location = some (.file content changed)
  others : ∀ other, other ≠ location → after.entry? other = before.entry? other

theorem writes_put {content : Bytes} {changed : Instant} (hplace : tree.IsPlace location)
    (hfree : tree.entry? location ≠ some .directory) :
    Writes location content tree (tree.put location (.file content changed)) where
  workingDirectory := rfl
  free := hfree
  written := ⟨changed, entry?_put_self hplace⟩
  others _ hother := entry?_put_of_ne hplace hfree hother

namespace Writes

variable {content more : Bytes} {middle : FileTree}

theorem ne_nil (hwrites : Writes location content before after) : location ≠ [] := by
  rintro rfl
  exact hwrites.free rfl

theorem free_after (hwrites : Writes location content before after) :
    after.entry? location ≠ some .directory := by
  obtain ⟨changed, hwritten⟩ := hwrites.written
  rw [hwritten]
  nofun

theorem isPlace (hwrites : Writes location content before after) : after.IsPlace location := by
  obtain ⟨changed, hwritten⟩ := hwrites.written
  exact isPlace_of_entry? hwrites.ne_nil (by rw [hwritten]; nofun)

theorem file?_of_ne (hwrites : Writes location content before after) {other : Location}
    (hother : other ≠ location) : after.file? other = before.file? other := by
  rw [file?, file?, hwrites.others other hother]

theorem trans (hfirst : Writes location content before middle)
    (hsecond : Writes location more middle after) : Writes location more before after where
  workingDirectory := hsecond.workingDirectory.trans hfirst.workingDirectory
  free := hfirst.free
  written := hsecond.written
  others other hother := (hsecond.others other hother).trans (hfirst.others other hother)

end Writes

theorem extends_of_writes {content : Bytes} (hwrites : Writes location content before after) :
    before.Extends after where
  workingDirectory := hwrites.workingDirectory
  directory other hother := by
    rwa [hwrites.others other fun hsame => hwrites.free (hsame ▸ hother)]
  present other hother := by
    by_cases hsame : other = location
    · obtain ⟨changed, hwritten⟩ := hwrites.written
      rw [hsame, hwritten]
      nofun
    · rwa [hwrites.others other hsame]

/-- A file that is opened for writing is empty. -/
theorem writes_of_truncate {opened : FileTree}
    (htruncate : tree.truncate path = .ok (opened, location)) :
    tree.locateNew path = .ok location ∧ Writes location [] tree opened := by
  rw [truncate] at htruncate
  cases hnew : tree.locateNew path with
  | error refusal =>
      rw [hnew] at htruncate
      cases htruncate
  | ok place =>
      rw [hnew] at htruncate
      simp only [bind, Except.bind] at htruncate
      split at htruncate
      · cases htruncate
      · rename_i hfree
        obtain ⟨rfl, rfl⟩ := Prod.mk.inj (Except.ok.inj htruncate)
        exact ⟨rfl, writes_put (isPlace_of_locateNew hnew hfree) hfree⟩

end KitTemplate.FileTree
