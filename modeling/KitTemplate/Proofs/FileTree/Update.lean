import KitTemplate.Proofs.FileTree.Lookup

/-! Changes of one place. What a change of the node at a location does is settled by what stands at
the location and above it: everything that is not below the location stays as it was, and below it
stands what the changed node holds. So an entry that is put where no directory is changes no other
place, and an entry that is erased takes with it what stood below it and nothing else. -/

namespace KitTemplate.FileTree

theorem lookup_filter_self (name : Text) (children : Children) :
    (children.filter (·.1 ≠ name)).lookup name = none := by
  rw [List.lookup_eq_none_iff]
  intro child hchild
  have hne : child.1 ≠ name := by simpa using (List.mem_filter.1 hchild).2
  simpa using Ne.symm hne

theorem lookup_filter_of_ne {name other : Text} (hother : other ≠ name) (children : Children) :
    (children.filter (·.1 ≠ name)).lookup other = children.lookup other := by
  induction children with
  | nil => rfl
  | cons child rest ih =>
      obtain ⟨key, node⟩ := child
      by_cases hkey : key = name
      · have hbeq : (other == key) = false := beq_eq_false_iff_ne.2 (hkey ▸ hother)
        simpa [hkey, List.lookup_cons, hkey ▸ hbeq] using ih
      · simp only [ne_eq, decide_not] at ih
        simp [hkey, List.lookup_cons, ih]

namespace Node

variable {change : Option Node → Option Node}

/-- What stands at the locations that are not below the one changed. -/
theorem entry_at?_alter {location other : Location} (hother : ¬ location <+: other)
    (children : Children) :
    ((directory (alter change location children)).at? other).map entry =
      ((directory children).at? other).map entry := by
  cases other with
  | nil => rfl
  | cons first more =>
      -- a child of another name is not touched, and neither is one that holds nothing
      fun_induction alter change location children generalizing first more with
      | case1 => exact absurd List.nil_prefix hother
      | case2 name children node hchange =>
          have hfirst : first ≠ name := by
            rintro rfl
            exact hother (List.prefix_append [first] more)
          simp only [at?, Node.children, Table.lookup_put_of_ne hfirst]
      | case3 name children hchange =>
          have hfirst : first ≠ name := by
            rintro rfl
            exact hother (List.prefix_append [first] more)
          simp only [at?, Node.children, lookup_filter_of_ne hfirst]
      | case4 name rest children hrest inner hlookup ih =>
          by_cases hfirst : first = name
          · subst hfirst
            have hmore : ¬ rest <+: more := fun habove =>
              hother (List.cons_prefix_cons.2 ⟨rfl, habove⟩)
            simp only [at?, Node.children, Table.lookup_put_self, hlookup, Option.bind_eq_bind,
              Option.bind_some]
            cases more with
            | nil => rfl
            | cons second more => exact ih second more hmore
          · simp only [at?, Node.children, Table.lookup_put_of_ne hfirst]
      | case5 => rfl

/-- What stands at the location changed and below it, if the location is in a directory. -/
theorem at?_alter_append {location : Location} (hlocation : location ≠ []) {children : Children}
    (habove : ((directory children).at? location.dropLast).map entry = some .directory)
    (rest : Location) :
    (directory (alter change location children)).at? (location ++ rest) =
      (change ((directory children).at? location)).bind (·.at? rest) := by
  fun_induction alter change location children with
  | case1 => exact absurd rfl hlocation
  | case2 name children node hchange =>
      have hnode : (directory children).at? [name] = children.lookup name := by
        simp [at?, Node.children]
      rw [hnode, hchange]
      simp [at?, Node.children, Table.lookup_put_self]
  | case3 name children hchange =>
      have hnode : (directory children).at? [name] = children.lookup name := by
        simp [at?, Node.children]
      rw [hnode, hchange, List.singleton_append, at?, Node.children, lookup_filter_self]
      rfl
  | case4 name names children hnames inner hlookup ih =>
      have hnames' : names ≠ [] := hnames
      rw [List.dropLast_cons_of_ne_nil hnames', at?, Node.children, hlookup] at habove
      rw [List.cons_append, at?, at?, Node.children, Node.children, Table.lookup_put_self, hlookup]
      exact ih hnames' habove
  | case5 name names children hnames hlookup =>
      have hnames' : names ≠ [] := hnames
      rw [List.dropLast_cons_of_ne_nil hnames', at?, Node.children] at habove
      -- what stands above the location is no directory
      cases hchild : children.lookup name with
      | none =>
          rw [hchild] at habove
          cases habove
      | some child =>
          cases child with
          | directory inner => exact absurd hchild (hlookup inner)
          | file content changed =>
              rw [hchild] at habove
              cases hnames : names.dropLast with
              | nil =>
                  rw [hnames] at habove
                  cases habove
              | cons next more =>
                  rw [hnames] at habove
                  cases habove

end Node

/-- A location at which an entry can be put: a directory stands above it. -/
structure IsPlace (tree : FileTree) (location : Location) : Prop where
  ne_nil : location ≠ []
  above : tree.entry? location.dropLast = some .directory

variable {tree : FileTree} {location other : Location} {entry : Entry}

theorem isPlace_of_entry? (hlocation : location ≠ []) (hentry : tree.entry? location ≠ none) :
    tree.IsPlace location :=
  ⟨hlocation, entry?_dropLast hentry⟩

/-- Whatever has something below it is a directory. -/
theorem entry?_of_above (habove : location <+: other) (hne : location ≠ other)
    (hother : tree.entry? other ≠ none) : tree.entry? location = some .directory := by
  obtain ⟨rest, rfl⟩ := habove
  unfold entry? node? at hother
  rw [Node.at?_append] at hother
  unfold entry? node?
  cases hnode : (Node.directory tree.children).at? location with
  | none =>
      rw [hnode] at hother
      exact absurd rfl hother
  | some node =>
      cases node with
      | directory children => rfl
      | file content changed =>
          rw [hnode] at hother
          cases rest with
          | nil => exact absurd (List.append_nil location).symm hne
          | cons name rest => exact absurd rfl hother

theorem entry?_update_of_not_prefix (change : Option Node → Option Node)
    (hother : ¬ location <+: other) :
    entry? (tree.update change location) other = tree.entry? other :=
  Node.entry_at?_alter hother tree.children

theorem node?_update_append {change : Option Node → Option Node} (hplace : tree.IsPlace location)
    (rest : Location) :
    (tree.update change location).node? (location ++ rest) =
      (change (tree.node? location)).bind (·.at? rest) :=
  Node.at?_alter_append hplace.ne_nil hplace.above rest

/-! ### Putting an entry -/

theorem node?_put_append (hplace : tree.IsPlace location) (rest : Location) :
    (tree.put location entry).node? (location ++ rest) =
      (Node.replaced entry (tree.node? location)).at? rest :=
  node?_update_append hplace rest

theorem entry?_put_self (hplace : tree.IsPlace location) :
    entry? (tree.put location entry) location = some entry := by
  have hnode : (tree.put location entry).node? (location ++ []) = _ := node?_put_append hplace []
  rw [List.append_nil] at hnode
  unfold entry?
  rw [hnode]
  exact congrArg some (Node.entry_replaced entry _)

/-- An entry that takes the place of no directory changes no other place. -/
theorem entry?_put_of_ne (hplace : tree.IsPlace location)
    (hlocation : tree.entry? location ≠ some .directory) (hother : other ≠ location) :
    entry? (tree.put location entry) other = tree.entry? other := by
  by_cases habove : location <+: other
  · have hnone : tree.entry? other = none := Decidable.byContradiction fun hsome =>
      hlocation (entry?_of_above habove hother.symm hsome)
    obtain ⟨rest, rfl⟩ := habove
    obtain ⟨name, rest, rfl⟩ := List.exists_cons_of_ne_nil (l := rest) fun hrest =>
      hother (by rw [hrest, List.append_nil])
    rw [hnone, entry?, node?_put_append hplace]
    -- neither a file nor a new directory holds anything
    cases hnode : tree.node? location with
    | none => cases entry <;> rfl
    | some node =>
        cases node with
        | directory children =>
            unfold entry? at hlocation
            rw [hnode] at hlocation
            exact absurd rfl hlocation
        | file content changed => cases entry <;> rfl
  · exact entry?_update_of_not_prefix _ habove

/-! ### Erasing an entry -/

/-- Nothing stands where an entry has been erased, and nothing below. -/
theorem entry?_erase_of_above (hplace : tree.IsPlace location) (habove : location <+: other) :
    entry? (tree.erase location) other = none := by
  obtain ⟨rest, rfl⟩ := habove
  unfold entry?
  rw [erase, node?_update_append hplace]
  rfl

end KitTemplate.FileTree
