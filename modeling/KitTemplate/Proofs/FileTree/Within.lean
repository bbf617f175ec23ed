import KitTemplate.Proofs.FileTree.Growth

/-! Changes within a directory. Most work on a site changes what stands below one directory, and
makes that directory and those above it where they are missing. Such changes may follow one another,
and each of the basic changes of a tree is one of them if its place is. -/

namespace KitTemplate.FileTree

/-- One tree comes from another by changes below a location, by directories that are made there and
above it in free places, and by changes in some other places. -/
def ChangesWithin (output : Location) (others : Location → Prop) (before after : FileTree) : Prop :=
  ∀ location, after.entry? location = before.entry? location ∨
    (output <+: location ∧ location ≠ output) ∨
    (location <+: output ∧ before.entry? location = none ∧
      after.entry? location = some .directory) ∨
    others location

/-- Every name in a tree can be the name of an entry. -/
def IsWellNamed (tree : FileTree) : Prop :=
  ∀ location, tree.entry? location ≠ none → ∀ name ∈ location, Path.IsPlain name

theorem isWellNamed_of_entries {tree : FileTree}
    (hentries : ∀ entry ∈ tree.entries, ∀ name ∈ entry.1, Path.IsPlain name) :
    tree.IsWellNamed := by
  intro location hentry name hname
  obtain ⟨entry, hentry⟩ := Option.ne_none_iff_exists'.1 hentry
  exact hentries _ (mem_entries (List.ne_nil_of_mem hname) hentry) name hname

variable {output location : Location} {others places : Location → Prop}
  {before middle after tree : FileTree}

namespace ChangesWithin

theorem refl (tree : FileTree) : ChangesWithin output others tree tree := fun _ => Or.inl rfl

theorem trans (hfirst : ChangesWithin output others before middle)
    (hsecond : ChangesWithin output others middle after) :
    ChangesWithin output others before after := by
  intro location
  rcases hfirst location with hsame | hbelow | ⟨habove, hnone, hmade⟩ | hother
  · rw [← hsame]
    exact hsecond location
  · exact Or.inr (Or.inl hbelow)
  · rcases hsecond location with hsame | hbelow | ⟨-, hnone', -⟩ | hother
    · exact Or.inr (Or.inr (Or.inl ⟨habove, hnone, hsame.trans hmade⟩))
    · exact Or.inr (Or.inl hbelow)
    · rw [hmade] at hnone'
      cases hnone'
    · exact Or.inr (Or.inr (Or.inr hother))
  · exact Or.inr (Or.inr (Or.inr hother))

theorem of_adds (hadds : Adds places before after)
    (hplaces : ∀ location, places location → location <+: output ∨ output <+: location) :
    ChangesWithin output others before after := by
  intro location
  rcases hadds.entries location with hsame | ⟨hplace, hnone, hmade⟩
  · exact Or.inl hsame
  · by_cases heq : location = output
    · exact Or.inr (Or.inr (Or.inl ⟨heq ▸ List.prefix_rfl, hnone, hmade⟩))
    · rcases hplaces location hplace with habove | hbelow
      · exact Or.inr (Or.inr (Or.inl ⟨habove, hnone, hmade⟩))
      · exact Or.inr (Or.inl ⟨hbelow, heq⟩)

theorem of_writes {content : Bytes} (hwrites : Writes location content before after)
    (hlocation : (output <+: location ∧ location ≠ output) ∨ others location) :
    ChangesWithin output others before after := by
  intro other
  by_cases hother : other = location
  · subst hother
    exact Or.inr (hlocation.imp_right Or.inr)
  · exact Or.inl (hwrites.others other hother)

end ChangesWithin

namespace IsWellNamed

theorem of_adds (hbefore : before.IsWellNamed) (hadds : Adds places before after)
    (hplaces : ∀ location, places location → ∀ name ∈ location, Path.IsPlain name) :
    after.IsWellNamed := by
  intro location hentry
  rcases hadds.entries location with hsame | ⟨hplace, -, -⟩
  · rw [hsame] at hentry
    exact hbefore location hentry
  · exact hplaces location hplace

end IsWellNamed

/-- What is listed in a directory stands there. -/
theorem entry?_of_mem_names {name : Text} (hname : name ∈ tree.names location) :
    tree.entry? (location ++ [name]) ≠ none := by
  rw [names] at hname
  cases hnode : tree.node? location with
  | none =>
      rw [hnode] at hname
      cases hname
  | some node =>
      rw [hnode] at hname
      obtain ⟨child, hchild, rfl⟩ := List.mem_map.1 hname
      have hlookup : node.children.lookup child.1 ≠ none := by
        rw [ne_eq, List.lookup_eq_none_iff]
        intro hnone
        simpa using hnone child hchild
      unfold entry? node?
      rw [Node.at?_append]
      rw [node?] at hnode
      rw [hnode]
      simpa [Node.at?] using hlookup

/-! ### Paths through a double dot -/

theorem walk_dots {names : List Text} (hnames : ∀ name ∈ names, Path.IsPlain name)
    (hwalk : tree.walk [] (names ++ [['.', '.']]) = .ok location) : location = names.dropLast := by
  obtain ⟨reached, hreached, hstep⟩ := walk_concat_eq_ok_iff.1 hwalk
  obtain rfl : names = reached := (walk_of_plain hnames hreached).symm
  obtain ⟨-, ⟨hdot, -⟩ | ⟨-, hnext⟩ | ⟨-, hdots, -⟩⟩ := stepInto_eq_ok_iff.1 hstep
  · cases hdot
  · exact hnext
  · exact absurd rfl hdots

variable {base : Path} (hbase : base.IsAbsolute)

include hbase

/-- The place of a path that ends in a double dot. -/
theorem locateNew_dots
    (hnew : tree.locateNew { base with parts := base.parts ++ [['.', '.']] } = .ok location) :
    location = base.parts.dropLast := by
  have hroute : route { base with parts := base.parts ++ [['.', '.']] } =
      base.parts ++ [['.', '.']] := by
    rw [route_of_names]
    intro part hpart
    rcases List.mem_append.1 hpart with habove | hlast
    · exact ⟨(hbase.plain part habove).1, (hbase.plain part habove).2.2.2⟩
    · rw [List.mem_singleton.1 hlast]
      decide
  have horigin : tree.origin { base with parts := base.parts ++ [['.', '.']] } = [] :=
    if_neg hbase.rooted
  rcases cases_of_locateNew hnew with
    ⟨hnil, -, -⟩ | ⟨above, name, directory, hnames, hwalk, hstep⟩
  · rw [hroute] at hnil
    simp at hnil
  · rw [hroute] at hnames
    obtain ⟨rfl, hname⟩ := List.append_inj' hnames rfl
    obtain rfl := (List.cons.inj hname).1
    rw [horigin] at hwalk
    rcases hstep with hstep | ⟨hmissing, -⟩
    · exact walk_dots hbase.plain (walk_concat_eq_ok_iff.2 ⟨directory, hwalk, hstep⟩)
    · exact absurd rfl (stepInto_eq_missing_iff.1 hmissing).2.2.1

/-- The place of a path that goes through a double dot before its name. -/
theorem locateNew_behind_dots {name : Text} (hname : Path.IsPlain name)
    (hnew : tree.locateNew { base with parts := base.parts ++ [['.', '.']] ++ [name] } =
      .ok location) :
    location = base.parts.dropLast ++ [name] := by
  have hroute : route { base with parts := base.parts ++ [['.', '.']] ++ [name] } =
      base.parts ++ [['.', '.']] ++ [name] := by
    rw [route_of_names]
    intro part hpart
    rcases List.mem_append.1 hpart with habove | hlast
    · rcases List.mem_append.1 habove with habove | hdots
      · exact ⟨(hbase.plain part habove).1, (hbase.plain part habove).2.2.2⟩
      · rw [List.mem_singleton.1 hdots]
        decide
    · rw [List.mem_singleton.1 hlast]
      exact ⟨hname.1, hname.2.2.2⟩
  have horigin : tree.origin { base with parts := base.parts ++ [['.', '.']] ++ [name] } = [] :=
    if_neg hbase.rooted
  rcases cases_of_locateNew hnew with
    ⟨hnil, -, -⟩ | ⟨above, last, directory, hnames, hwalk, hstep⟩
  · rw [hroute] at hnil
    simp at hnil
  · rw [hroute] at hnames
    obtain ⟨rfl, hlast⟩ := List.append_inj' hnames rfl
    obtain rfl := (List.cons.inj hlast).1
    rw [horigin] at hwalk
    obtain rfl := walk_dots hbase.plain hwalk
    rcases hstep with hstep | ⟨-, rfl⟩
    · exact stepInto_of_plain hname hstep
    · rfl

end KitTemplate.FileTree
