import KitTemplate.FileTree.Basic
import KitTemplate.Proofs.Text.Splitting

/-! Looking up paths. A path is walked through the parts of its text, dots among them. Plain names
lead straight down, so a path of plain names leads to the location that its parts spell, and a walk
that ends in dots ends in a directory. A path that names a file can be read, and every path can be
looked at unless it is too long or goes through a name that is. -/

namespace KitTemplate.FileTree

variable {tree : FileTree}

theorem route_eq (path : Path) :
    route path = (path.parts.flatMap (Text.splitOn '/')).filter (· ≠ []) := by
  rw [route]
  by_cases hparts : path.parts = []
  · rw [hparts]
    rfl
  · rw [Text.splitOn_join hparts]

theorem flatMap_splitOn_of_not_mem {parts : List Text} (hparts : ∀ part ∈ parts, '/' ∉ part) :
    parts.flatMap (Text.splitOn '/') = parts := by
  induction parts with
  | nil => rfl
  | cons part rest ih =>
      rw [List.flatMap_cons, ih fun next hnext => hparts next (List.mem_cons_of_mem _ hnext),
        Text.splitOn_of_not_mem (hparts part List.mem_cons_self)]
      rfl

theorem filter_of_ne_nil {parts : List Text} (hparts : ∀ part ∈ parts, part ≠ []) :
    parts.filter (· ≠ []) = parts := by
  rw [List.filter_eq_self]
  intro part hpart
  simpa using hparts part hpart

/-- A path goes through its parts, if each of them is one name. -/
theorem route_of_names {path : Path} (hnames : ∀ part ∈ path.parts, part ≠ [] ∧ '/' ∉ part) :
    route path = path.parts := by
  rw [route_eq, flatMap_splitOn_of_not_mem fun part hpart => (hnames part hpart).2,
    filter_of_ne_nil fun part hpart => (hnames part hpart).1]

theorem route_of_plain {path : Path} (hplain : ∀ part ∈ path.parts, Path.IsPlain part) :
    route path = path.parts :=
  route_of_names fun part hpart => ⟨(hplain part hpart).1, (hplain part hpart).2.2.2⟩

theorem route_of_parts {path : Path} {above : List Text} {last : Text}
    (hparts : path.parts = above ++ [last]) (habove : ∀ part ∈ above, Path.IsPlain part) :
    route path = above ++ (Text.splitOn '/' last).filter (· ≠ []) := by
  rw [route_eq, hparts, List.flatMap_append,
    flatMap_splitOn_of_not_mem fun part hpart => (habove part hpart).2.2.2, List.filter_append,
    filter_of_ne_nil fun part hpart => (habove part hpart).1, List.flatMap_singleton]

variable {location reached : Location} {name : Text} {names : List Text}

/-! ### Steps -/

theorem stepInto_eq_ok_iff :
    tree.stepInto location name = .ok reached ↔
      tree.entry? location = some .directory ∧
        (name = ['.'] ∧ reached = location ∨ name = ['.', '.'] ∧ reached = location.dropLast ∨
          name ≠ ['.'] ∧ name ≠ ['.', '.'] ∧ ¬ longestName < nameSize name ∧
            tree.entry? (location ++ [name]) ≠ none ∧ reached = location ++ [name]) := by
  rw [stepInto]
  split
  · simp_all
  split
  · simp_all [eq_comm]
  split
  · simp_all [eq_comm]
  split
  · simp_all
  split <;> simp_all [eq_comm]

theorem stepInto_eq_missing_iff :
    tree.stepInto location name = .error .missing ↔
      tree.entry? location = some .directory ∧ name ≠ ['.'] ∧ name ≠ ['.', '.'] ∧
        ¬ longestName < nameSize name ∧ tree.entry? (location ++ [name]) = none := by
  rw [stepInto]
  split
  · simp_all
  split
  · simp_all
  split
  · simp_all
  split
  · simp_all
  split <;> simp_all

theorem longestName_lt_of_stepInto (hstep : tree.stepInto location name = .error .nameTooLong) :
    longestName < nameSize name := by
  rw [stepInto] at hstep
  split at hstep
  · cases hstep
  split at hstep
  · cases hstep
  split at hstep
  · cases hstep
  split at hstep
  · assumption
  · split at hstep <;> cases hstep

theorem stepInto_of_plain (hname : Path.IsPlain name)
    (hstep : tree.stepInto location name = .ok reached) : reached = location ++ [name] := by
  obtain ⟨-, ⟨hdot, -⟩ | ⟨hdots, -⟩ | ⟨-, -, -, -, hreached⟩⟩ := stepInto_eq_ok_iff.1 hstep
  · exact absurd hdot hname.2.1
  · exact absurd hdots hname.2.2.1
  · exact hreached

/-- What stands above a node is a directory. -/
theorem entry?_dropLast (hentry : tree.entry? location ≠ none) :
    tree.entry? location.dropLast = some .directory := by
  rcases List.eq_nil_or_concat location with rfl | ⟨above, name, rfl⟩
  · rfl
  · unfold entry? node? at hentry
    rw [List.concat_eq_append, Node.at?_append] at hentry
    unfold entry? node?
    rw [List.concat_eq_append, List.dropLast_concat]
    cases habove : (Node.directory tree.children).at? above with
    | none =>
        rw [habove] at hentry
        exact absurd rfl hentry
    | some node =>
        cases node with
        | directory children => rfl
        | file content changed =>
            rw [habove] at hentry
            exact absurd rfl hentry

theorem entry?_of_stepInto (hstep : tree.stepInto location name = .ok reached) :
    tree.entry? reached ≠ none := by
  obtain ⟨hlocation, ⟨-, rfl⟩ | ⟨-, rfl⟩ | ⟨-, -, -, hentry, rfl⟩⟩ := stepInto_eq_ok_iff.1 hstep
  · rw [hlocation]
    nofun
  · rw [entry?_dropLast (by rw [hlocation]; nofun)]
    nofun
  · exact hentry

/-- A step by a dot ends in a directory. -/
theorem entry?_of_stepInto_dots (hname : name = ['.'] ∨ name = ['.', '.'])
    (hstep : tree.stepInto location name = .ok reached) :
    tree.entry? reached = some .directory := by
  obtain ⟨hlocation, ⟨-, rfl⟩ | ⟨-, rfl⟩ | ⟨hdot, hdots, -⟩⟩ := stepInto_eq_ok_iff.1 hstep
  · exact hlocation
  · exact entry?_dropLast (by rw [hlocation]; nofun)
  · exact absurd hname (not_or.2 ⟨hdot, hdots⟩)

/-! ### Walks -/

theorem walk_cons_eq_ok_iff :
    tree.walk location (name :: names) = .ok reached ↔
      ∃ next, tree.stepInto location name = .ok next ∧ tree.walk next names = .ok reached := by
  rw [walk]
  cases tree.stepInto location name <;> simp [bind, Except.bind]

theorem walk_concat :
    tree.walk location (names ++ [name]) =
      tree.walk location names >>= fun above => tree.stepInto above name := by
  induction names generalizing location with
  | nil =>
      show (tree.stepInto location name >>= fun next => .ok next) = tree.stepInto location name
      cases tree.stepInto location name <;> rfl
  | cons first rest ih =>
      rw [List.cons_append, walk, walk]
      cases tree.stepInto location first with
      | error refusal => rfl
      | ok next => exact ih

theorem walk_concat_eq_ok_iff :
    tree.walk location (names ++ [name]) = .ok reached ↔
      ∃ above, tree.walk location names = .ok above ∧ tree.stepInto above name = .ok reached := by
  rw [walk_concat]
  cases tree.walk location names <;> simp [bind, Except.bind]

theorem walk_of_plain (hnames : ∀ name ∈ names, Path.IsPlain name)
    (hwalk : tree.walk location names = .ok reached) : reached = location ++ names := by
  induction names generalizing location with
  | nil => rw [← Except.ok.inj hwalk, List.append_nil]
  | cons name rest ih =>
      obtain ⟨next, hstep, hrest⟩ := walk_cons_eq_ok_iff.1 hwalk
      have hnext := stepInto_of_plain (hnames name List.mem_cons_self) hstep
      rw [ih (fun other hother => hnames other (List.mem_cons_of_mem _ hother)) hrest, hnext,
        List.append_assoc]
      rfl

theorem entry?_of_walk_dots (hname : name = ['.'] ∨ name = ['.', '.'])
    (hwalk : tree.walk location (names ++ [name]) = .ok reached) :
    tree.entry? reached = some .directory := by
  obtain ⟨above, -, hstep⟩ := walk_concat_eq_ok_iff.1 hwalk
  exact entry?_of_stepInto_dots hname hstep

theorem exists_of_walk_nameTooLong (hwalk : tree.walk location names = .error .nameTooLong) :
    ∃ name ∈ names, longestName < nameSize name := by
  induction names generalizing location with
  | nil => cases hwalk
  | cons name rest ih =>
      rw [walk] at hwalk
      cases hstep : tree.stepInto location name with
      | error refusal =>
          rw [hstep] at hwalk
          obtain rfl := Except.error.inj hwalk
          exact ⟨name, List.mem_cons_self, longestName_lt_of_stepInto hstep⟩
      | ok next =>
          rw [hstep] at hwalk
          obtain ⟨long, hmem, hlong⟩ := ih hwalk
          exact ⟨long, List.mem_cons_of_mem _ hmem, hlong⟩

/-! ### What paths lead to -/

theorem locate_of_isAbsolute {path : Path} (hpath : path.IsAbsolute)
    (hlocate : tree.locate path = .ok location) : location = path.parts := by
  rw [locate] at hlocate
  split at hlocate
  · cases hlocate
  · rw [route_of_plain hpath.plain, origin, if_neg hpath.rooted] at hlocate
    exact walk_of_plain hpath.plain hlocate

/-- A path longer than paths may be, or through a name longer than names may be. -/
def IsTooLong (path : Path) : Prop :=
  longestPath < nameSize path.toText ∨ ∃ name ∈ route path, longestName < nameSize name

instance (path : Path) : Decidable (IsTooLong path) := inferInstanceAs (Decidable (_ ∨ _))

theorem isTooLong_of_locate {path : Path} (hlocate : tree.locate path = .error .nameTooLong) :
    IsTooLong path := by
  rw [locate] at hlocate
  split at hlocate
  · exact Or.inl ‹_›
  · exact Or.inr (exists_of_walk_nameTooLong hlocate)

/-- Only a path that is too long cannot be looked at. -/
theorem isTooLong_of_inspect {path : Path} {denial : Denial}
    (hdenied : tree.inspect path = .error denial) :
    IsTooLong path ∧ denial = ⟨.nameTooLong, path⟩ := by
  rw [inspect] at hdenied
  split at hdenied
  · cases hdenied
  · rename_i hlocate
    exact ⟨isTooLong_of_locate hlocate, (Except.error.inj hdenied).symm⟩
  · cases hdenied

theorem isTooLong_of_isFile {path : Path} {denial : Denial}
    (hdenied : tree.isFile path = .error denial) :
    IsTooLong path ∧ denial = ⟨.nameTooLong, path⟩ := by
  apply isTooLong_of_inspect
  rw [isFile] at hdenied
  cases hinspect : tree.inspect path with
  | error own =>
      rw [hinspect] at hdenied
      rw [← Except.error.inj hdenied]
  | ok entry =>
      rw [hinspect] at hdenied
      rcases entry with _ | _ | _ <;> cases hdenied

theorem isTooLong_of_isDirectory {path : Path} {denial : Denial}
    (hdenied : tree.isDirectory path = .error denial) :
    IsTooLong path ∧ denial = ⟨.nameTooLong, path⟩ := by
  apply isTooLong_of_inspect
  rw [isDirectory] at hdenied
  cases hinspect : tree.inspect path with
  | error own =>
      rw [hinspect] at hdenied
      rw [← Except.error.inj hdenied]
  | ok entry =>
      rw [hinspect] at hdenied
      cases hdenied

theorem exists_of_inspect {path : Path} {entry : Entry}
    (hinspect : tree.inspect path = .ok (some entry)) :
    ∃ location, tree.locate path = .ok location ∧ tree.entry? location = some entry := by
  rw [inspect] at hinspect
  split at hinspect
  · rename_i location hlocate
    exact ⟨location, hlocate, Except.ok.inj hinspect⟩
  · cases hinspect
  · cases hinspect

theorem exists_of_isDirectory {path : Path}
    (hdirectory : tree.isDirectory path = .ok true) :
    ∃ location, tree.locate path = .ok location ∧ tree.entry? location = some .directory := by
  rw [isDirectory] at hdirectory
  cases hinspect : tree.inspect path with
  | error denial =>
      rw [hinspect] at hdirectory
      cases hdirectory
  | ok entry =>
      rw [hinspect] at hdirectory
      have hentry : entry = some .directory := of_decide_eq_true (Except.ok.inj hdirectory)
      rw [hentry] at hinspect
      exact exists_of_inspect hinspect

theorem exists_file_of_isFile {path : Path} (hfile : tree.isFile path = .ok true) :
    ∃ location content changed, tree.locate path = .ok location ∧
      tree.entry? location = some (.file content changed) := by
  rw [isFile] at hfile
  cases hinspect : tree.inspect path with
  | error denial =>
      rw [hinspect] at hfile
      cases hfile
  | ok entry =>
      rw [hinspect] at hfile
      rcases entry with _ | _ | ⟨content, changed⟩
      · cases hfile
      · cases hfile
      · obtain ⟨location, hlocate, hentry⟩ := exists_of_inspect hinspect
        exact ⟨location, content, changed, hlocate, hentry⟩

theorem read_of_entry? {path : Path} {location : Location} {content : Bytes} {changed : Instant}
    (hlocate : tree.locate path = .ok location)
    (hentry : tree.entry? location = some (.file content changed)) :
    tree.read path = .ok content := by
  rw [read, hlocate]
  simp only [bind, Except.bind, hentry]

theorem read_of_isFile {path : Path} (hfile : tree.isFile path = .ok true) :
    ∃ content, tree.read path = .ok content := by
  obtain ⟨location, content, changed, hlocate, hentry⟩ := exists_file_of_isFile hfile
  exact ⟨content, read_of_entry? hlocate hentry⟩

theorem isFile_of_read {path : Path} {content : Bytes} (hread : tree.read path = .ok content) :
    tree.isFile path = .ok true := by
  rw [read] at hread
  cases hlocate : tree.locate path with
  | error refusal =>
      rw [hlocate] at hread
      cases hread
  | ok location =>
      rw [hlocate] at hread
      simp only [bind, Except.bind] at hread
      split at hread
      · rename_i hentry
        simp only [isFile, inspect, hlocate, hentry, bind, Except.bind]
        rfl
      · cases hread
      · cases hread

/-- A file is found by names alone where its path spells its location. -/
theorem entry?_of_isFile {path : Path} (hpath : path.IsAbsolute)
    (hfile : tree.isFile path = .ok true) :
    ∃ content changed, tree.entry? path.parts = some (.file content changed) := by
  obtain ⟨location, content, changed, hlocate, hentry⟩ := exists_file_of_isFile hfile
  rw [locate_of_isAbsolute hpath hlocate] at hentry
  exact ⟨content, changed, hentry⟩

theorem parts_ne_nil_of_isFile {path : Path} (hpath : path.IsAbsolute)
    (hfile : tree.isFile path = .ok true) : path.parts ≠ [] := by
  intro hparts
  obtain ⟨content, changed, hentry⟩ := entry?_of_isFile hpath hfile
  rw [hparts] at hentry
  cases hentry

theorem name_ne_nil_of_isFile {path : Path} (hpath : path.IsAbsolute)
    (hfile : tree.isFile path = .ok true) : path.name ≠ [] := by
  have hparts := parts_ne_nil_of_isFile hpath hfile
  rw [Path.name, List.getLast?_eq_some_getLast hparts]
  exact (hpath.plain _ (List.getLast_mem hparts)).1

theorem Node.mem_entriesBelow {location : Location} {children : Children} {name : Text}
    {child : Node} (hchild : children.lookup name = some child) {found : Location × Entry}
    (hfound : found ∈ child.entriesAt (location ++ [name])) :
    found ∈ Node.entriesBelow location children := by
  induction children with
  | nil => cases hchild
  | cons first rest ih =>
      obtain ⟨other, node⟩ := first
      rw [Node.entriesBelow, List.mem_append]
      by_cases hname : name = other
      · subst hname
        rw [List.lookup_cons_self] at hchild
        obtain rfl := Option.some.inj hchild
        exact Or.inl hfound
      · rw [List.lookup_cons, beq_eq_false_iff_ne.2 hname] at hchild
        exact Or.inr (ih hchild)

theorem Node.mem_entriesAt {node found : Node} (above : Location) {location : Location}
    (hfound : node.at? location = some found) :
    (above ++ location, found.entry) ∈ node.entriesAt above := by
  induction location generalizing node above with
  | nil =>
      obtain rfl := Option.some.inj hfound
      rw [List.append_nil]
      cases node <;> exact List.mem_cons_self
  | cons name rest ih =>
      cases hchild : node.children.lookup name with
      | none =>
          rw [Node.at?, hchild] at hfound
          cases hfound
      | some child =>
          rw [Node.at?, hchild] at hfound
          have hbelow := ih (above ++ [name]) hfound
          rw [List.append_assoc] at hbelow
          cases node with
          | file content changed => cases hchild
          | directory children =>
              exact List.mem_cons_of_mem _ (Node.mem_entriesBelow hchild hbelow)

/-- What stands below the root is listed. -/
theorem mem_entries {location : Location} {entry : Entry} (hlocation : location ≠ [])
    (hentry : tree.entry? location = some entry) : (location, entry) ∈ tree.entries := by
  obtain ⟨node, hnode, rfl⟩ := Option.map_eq_some_iff.1 hentry
  have hmem := Node.mem_entriesAt [] hnode
  rw [List.nil_append] at hmem
  rcases List.mem_cons.1 hmem with hroot | hbelow
  · exact absurd (Prod.mk.inj hroot).1 hlocation
  · exact hbelow

end KitTemplate.FileTree
