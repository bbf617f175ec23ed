import KitTemplate.Compiler
import KitTemplate.Proofs.FileTree.Growth

/-! Trees that are alike. Two trees are the same to every reader if the same stands at each location
and each directory lists the same names, in whatever order (`Same`). Whatever is read of one is read
of the other, and what is done to both leaves them the same. Work on trees is compared along any
relation of that kind (`IsLikeness`): equality is one, and to be the same to every reader is
another. -/

namespace KitTemplate.FileTree

/-! ### The names in a directory -/

namespace Node

variable {change : Option Node → Option Node}

/-- The names that stand directly in a node. -/
def names (node : Node) : List Text := node.children.map (·.1)

/-- A change at a location leaves the names in every directory that the location is not in. -/
theorem names_at?_alter {location other : Location} (habove : other ≠ location.dropLast)
    (hother : ¬ location <+: other) (children : Children) :
    ((directory (alter change location children)).at? other).map names =
      ((directory children).at? other).map names := by
  fun_induction alter change location children generalizing other with
  | case1 => exact absurd List.nil_prefix hother
  | case2 name children node hchange =>
      cases other with
      | nil => exact absurd rfl habove
      | cons first more =>
          have hfirst : first ≠ name := by
            rintro rfl
            exact hother (List.prefix_append [first] more)
          simp only [at?, Node.children, Table.lookup_put_of_ne hfirst]
  | case3 name children hchange =>
      cases other with
      | nil => exact absurd rfl habove
      | cons first more =>
          have hfirst : first ≠ name := by
            rintro rfl
            exact hother (List.prefix_append [first] more)
          simp only [at?, Node.children, lookup_filter_of_ne hfirst]
  | case4 name rest children hrest inner hlookup ih =>
      have hrest' : rest ≠ [] := hrest
      cases other with
      | nil =>
          -- the child on the way is put in its own place
          have hthere : children.lookup name ≠ none := hlookup ▸ Option.some_ne_none _
          simp only [at?, Option.map_some, names, Node.children, Table.keys_put, if_neg hthere]
      | cons first more =>
          by_cases hfirst : first = name
          · subst hfirst
            rw [List.dropLast_cons_of_ne_nil hrest', ne_eq, List.cons.injEq, not_and] at habove
            have hmore : ¬ rest <+: more := fun hrest =>
              hother (List.cons_prefix_cons.2 ⟨rfl, hrest⟩)
            simp only [at?, Node.children, Table.lookup_put_self, hlookup, Option.bind_eq_bind,
              Option.bind_some]
            exact ih (habove rfl) hmore
          · simp only [at?, Node.children, Table.lookup_put_of_ne hfirst]
  | case5 => rfl

/-- A change at a location is a change in the directory that the location is in. -/
theorem at?_alter_concat {above : Location} {name : Text} {children inner : Children}
    (habove : (directory children).at? above = some (directory inner)) :
    (directory (alter change (above ++ [name]) children)).at? above =
      some (directory (alter change [name] inner)) := by
  induction above generalizing children with
  | nil =>
      obtain rfl := Node.directory.inj (Option.some.inj habove)
      rfl
  | cons first rest ih =>
      rw [at?, Node.children] at habove
      cases hchild : children.lookup first with
      | none =>
          rw [hchild] at habove
          cases habove
      | some child =>
          rw [hchild] at habove
          cases child with
          | file content changed =>
              cases rest with
              | nil => cases habove
              | cons second more => cases habove
          | directory own =>
              have hstep : alter change (first :: (rest ++ [name])) children =
                  Table.put first (directory (alter change (rest ++ [name]) own)) children := by
                rw [alter, hchild]
                simp
              rw [List.cons_append, hstep, at?, Node.children, Table.lookup_put_self]
              exact ih habove

end Node

variable {tree : FileTree} {location other above : Location} {name : Text} {entry : Entry}

theorem names_eq (tree : FileTree) (location : Location) :
    tree.names location = ((tree.node? location).map Node.names).getD [] := by
  rw [names]
  cases tree.node? location <;> rfl

/-- Nothing stands in what is no directory. -/
theorem names_eq_nil (hlocation : tree.entry? location ≠ some .directory) :
    tree.names location = [] := by
  rw [names_eq]
  unfold entry? at hlocation
  cases hnode : tree.node? location with
  | none => rfl
  | some node =>
      cases node with
      | file content changed => rfl
      | directory children =>
          rw [hnode] at hlocation
          exact absurd rfl hlocation

theorem names_update (change : Option Node → Option Node) (habove : other ≠ location.dropLast)
    (hother : ¬ location <+: other) :
    (tree.update change location).names other = tree.names other := by
  rw [names_eq, names_eq]
  exact congrArg (·.getD []) (Node.names_at?_alter habove hother tree.children)

theorem names_update_concat {inner : Children} (change : Option Node → Option Node)
    (habove : tree.node? above = some (.directory inner)) :
    (tree.update change (above ++ [name])).names above =
      (alter change [name] inner).map (·.1) := by
  rw [names_eq, show (tree.update change (above ++ [name])).node? above = _ from
    Node.at?_alter_concat habove]
  rfl

theorem exists_of_entry?_directory (hentry : tree.entry? location = some .directory) :
    ∃ inner, tree.node? location = some (.directory inner) := by
  obtain ⟨node, hnode, hdirectory⟩ := Option.map_eq_some_iff.1 hentry
  cases node with
  | file content changed => cases hdirectory
  | directory inner => exact ⟨inner, hnode⟩

theorem node?_concat {inner : Children} (habove : tree.node? above = some (.directory inner)) :
    tree.node? (above ++ [name]) = inner.lookup name := by
  rw [node?] at habove ⊢
  rw [Node.at?_append, habove]
  simp [Node.at?, Node.children]

/-- An entry that is put in a free place is listed in its directory. -/
theorem names_put_above (habove : tree.entry? above = some .directory) :
    (tree.put (above ++ [name]) entry).names above =
      if tree.entry? (above ++ [name]) = none then tree.names above ++ [name]
      else tree.names above := by
  obtain ⟨inner, hinner⟩ := exists_of_entry?_directory habove
  have hentry : tree.entry? (above ++ [name]) = none ↔ inner.lookup name = none := by
    unfold entry?
    rw [node?_concat hinner, Option.map_eq_none_iff]
  have hnames : tree.names above = inner.map (·.1) := by rw [names_eq, hinner]; rfl
  rw [put, names_update_concat _ hinner, alter, Table.keys_put, hnames]
  simp only [hentry]

/-- An entry that takes the place of no directory leaves the names in all other directories. -/
theorem names_put_of_ne (hplace : tree.IsPlace location)
    (hlocation : tree.entry? location ≠ some .directory) (hother : other ≠ location.dropLast) :
    (tree.put location entry).names other = tree.names other := by
  by_cases hbelow : location <+: other
  · have hbefore : tree.names other = [] := names_eq_nil fun hentry => by
      by_cases hsame : location = other
      · exact hlocation (hsame ▸ hentry)
      · exact hlocation (entry?_of_above hbelow hsame (hentry ▸ Option.some_ne_none _))
    obtain ⟨rest, rfl⟩ := hbelow
    rw [hbefore, names_eq, node?_put_append hplace]
    -- neither a file nor a new directory lists anything
    cases hnode : tree.node? location with
    | none => cases entry <;> cases rest <;> rfl
    | some node =>
        cases node with
        | directory children =>
            unfold entry? at hlocation
            rw [hnode] at hlocation
            exact absurd rfl hlocation
        | file content changed => cases entry <;> cases rest <;> rfl
  · exact names_update _ hother hbelow

/-! ### Trees that are the same to every reader -/

/-- The same stands at each location, and each directory lists the same names. -/
structure Same (tree other : FileTree) : Prop where
  workingDirectory : other.workingDirectory = tree.workingDirectory
  clock : other.clock = tree.clock
  zone : other.zone = tree.zone
  entries : ∀ location, other.entry? location = tree.entry? location
  names : ∀ location, (other.names location).Perm (tree.names location)

namespace Same

variable {after : FileTree}

theorem refl (tree : FileTree) : tree.Same tree :=
  ⟨rfl, rfl, rfl, fun _ => rfl, fun _ => List.Perm.refl _⟩

theorem put (hsame : tree.Same after) (hplace : tree.IsPlace location)
    (hlocation : tree.entry? location ≠ some .directory) (entry : Entry) :
    (tree.put location entry).Same (after.put location entry) where
  workingDirectory := hsame.workingDirectory
  clock := hsame.clock
  zone := hsame.zone
  entries other := by
    have hplace' : after.IsPlace location :=
      ⟨hplace.ne_nil, (hsame.entries _).trans hplace.above⟩
    have hlocation' : after.entry? location ≠ some .directory := by rwa [hsame.entries]
    by_cases hother : other = location
    · rw [hother, entry?_put_self hplace, entry?_put_self hplace']
    · rw [entry?_put_of_ne hplace hlocation hother, entry?_put_of_ne hplace' hlocation' hother,
        hsame.entries]
  names other := by
    have hplace' : after.IsPlace location :=
      ⟨hplace.ne_nil, (hsame.entries _).trans hplace.above⟩
    have hlocation' : after.entry? location ≠ some .directory := by rwa [hsame.entries]
    by_cases hother : other = location.dropLast
    · have habove := hplace.above
      have habove' := hplace'.above
      obtain ⟨above, name, rfl⟩ := (List.eq_nil_or_concat location).resolve_left hplace.ne_nil
      rw [List.concat_eq_append, List.dropLast_concat] at habove habove' hother
      subst hother
      rw [List.concat_eq_append, names_put_above habove, names_put_above habove', hsame.entries]
      split
      · exact (hsame.names other).append_right _
      · exact hsame.names other
    · rw [names_put_of_ne hplace hlocation hother, names_put_of_ne hplace' hlocation' hother]
      exact hsame.names other

end Same

/-- Trees that agree in all that is not below a location. -/
structure AgreesOutside (location : Location) (tree other : FileTree) : Prop where
  workingDirectory : other.workingDirectory = tree.workingDirectory
  clock : other.clock = tree.clock
  zone : other.zone = tree.zone
  entries : ∀ place, (location <+: place → place = location) →
    other.entry? place = tree.entry? place
  names : ∀ place, ¬ location <+: place → (other.names place).Perm (tree.names place)

/-! ### Reading -/

namespace Same

variable {after : FileTree} (hsame : tree.Same after)

include hsame

theorem stepInto_eq (location : Location) (name : Text) :
    after.stepInto location name = tree.stepInto location name := by
  rw [FileTree.stepInto, FileTree.stepInto, hsame.entries, hsame.entries]

theorem walk_eq (location : Location) (names : List Text) :
    after.walk location names = tree.walk location names := by
  induction names generalizing location with
  | nil => rfl
  | cons name rest ih =>
      rw [FileTree.walk, FileTree.walk, hsame.stepInto_eq]
      exact congrArg (tree.stepInto location name >>= ·) (funext ih)

theorem origin_eq (path : Path) : after.origin path = tree.origin path := by
  rw [FileTree.origin, FileTree.origin, hsame.workingDirectory]

theorem locate_eq (path : Path) : after.locate path = tree.locate path := by
  rw [FileTree.locate, FileTree.locate, hsame.origin_eq, hsame.walk_eq]

theorem locateNew_eq (path : Path) : after.locateNew path = tree.locateNew path := by
  simp only [FileTree.locateNew, hsame.origin_eq, hsame.walk_eq, hsame.stepInto_eq, hsame.entries]

theorem inspect_eq (path : Path) : after.inspect path = tree.inspect path := by
  simp only [FileTree.inspect, hsame.locate_eq, hsame.entries]

theorem isDirectory_eq (path : Path) : after.isDirectory path = tree.isDirectory path := by
  rw [FileTree.isDirectory, FileTree.isDirectory, hsame.inspect_eq]

theorem isFile_eq (path : Path) : after.isFile path = tree.isFile path := by
  rw [FileTree.isFile, FileTree.isFile, hsame.inspect_eq]

theorem read_eq (path : Path) : after.read path = tree.read path := by
  simp only [FileTree.read, hsame.locate_eq, hsame.entries]

theorem readText_eq (compiler : Compiler) (path : Path) (file : Text) (line : Option Int) :
    compiler.readText after path file line = compiler.readText tree path file line := by
  rw [Compiler.readText, Compiler.readText, hsame.read_eq]

end Same

/-! ### Likenesses -/

/-- A relation on trees that are the same to every reader, which the basic changes of both trees
respect. -/
structure IsLikeness (like : FileTree → FileTree → Prop) : Prop where
  same : ∀ {tree other}, like tree other → tree.Same other
  put : ∀ {tree other location}, like tree other → tree.IsPlace location →
    tree.entry? location ≠ some .directory → ∀ entry,
      like (tree.put location entry) (other.put location entry)

theorem isLikeness_eq : IsLikeness Eq where
  same hsame := hsame ▸ .refl _
  put hsame _ _ _ := hsame ▸ rfl

theorem isLikeness_same : IsLikeness Same where
  same hsame := hsame
  put hsame hplace hlocation entry := hsame.put hplace hlocation entry

/-- Answers that are the same problem, or values that are related. -/
inductive Answers {α ε : Type} (relation : α → α → Prop) : Except ε α → Except ε α → Prop
  | ok {value value' : α} (hvalue : relation value value') :
      Answers relation (.ok value) (.ok value')
  | error (problem : ε) : Answers relation (.error problem) (.error problem)

/-- Trees that are alike, each with the same beside it. -/
def Beside {γ : Type} (like : FileTree → FileTree → Prop) (first second : FileTree × γ) : Prop :=
  like first.1 second.1 ∧ second.2 = first.2

namespace IsLikeness

variable {like : FileTree → FileTree → Prop} (hlike : IsLikeness like) {after : FileTree}
  (htrees : like tree after)

include hlike htrees

theorem makeDirectory (path : Path) :
    Answers like (tree.makeDirectory path) (after.makeDirectory path) := by
  have hsame := hlike.same htrees
  rw [FileTree.makeDirectory, FileTree.makeDirectory, hsame.locateNew_eq]
  cases hnew : tree.locateNew path with
  | error refusal => exact .error refusal
  | ok location =>
      simp only [bind, Except.bind, hsame.entries]
      split
      · exact .error _
      · rename_i hnone
        have hfree : tree.entry? location ≠ some .directory := by
          rw [Decidable.not_not.1 hnone]
          exact (Option.some_ne_none _).symm
        exact .ok (hlike.put htrees (isPlace_of_locateNew hnew hfree) hfree _)

theorem settle (path : Path) (existing : Bool) {made made' : Except Refusal FileTree}
    (hmade : Answers like made made') :
    Beside like (FileTree.settle tree path existing made)
      (FileTree.settle after path existing made') := by
  have hsame := hlike.same htrees
  cases hmade with
  | ok hmade => exact ⟨hmade, rfl⟩
  | error refusal =>
      unfold FileTree.settle
      simp only [hsame.locate_eq, hsame.entries]
      split
      · split <;> exact ⟨htrees, rfl⟩
      · exact ⟨htrees, rfl⟩

theorem makeDirectoriesFrom (path : Path) (existing : Bool) (depth : Nat) :
    Beside like (tree.makeDirectoriesFrom path existing depth)
      (after.makeDirectoriesFrom path existing depth) := by
  induction depth generalizing path existing with
  | zero => exact hlike.settle htrees path existing (hlike.makeDirectory htrees path)
  | succ depth ih =>
      have hfirst := hlike.makeDirectory htrees path
      rw [FileTree.makeDirectoriesFrom, FileTree.makeDirectoriesFrom]
      generalize tree.makeDirectory path = made at hfirst
      generalize after.makeDirectory path = made' at hfirst
      have hsettle := hlike.settle htrees path existing hfirst
      cases hfirst with
      | ok hmade => exact hsettle
      | error refusal =>
          cases refusal with
          | missing =>
              have hparent := ih path.parent true
              dsimp only
              generalize tree.makeDirectoriesFrom path.parent true depth = reached at hparent
              generalize after.makeDirectoriesFrom path.parent true depth = reached' at hparent
              obtain ⟨first, denial⟩ := reached
              obtain ⟨second, denial'⟩ := reached'
              obtain ⟨hreached, hdenial⟩ := hparent
              obtain rfl : denial' = denial := hdenial
              cases denial' with
              | none => exact hlike.settle hreached path existing (hlike.makeDirectory hreached path)
              | some denial => exact ⟨hreached, rfl⟩
          | _ => exact hsettle

theorem makeDirectories (path : Path) (existing : Bool) :
    Beside like (tree.makeDirectories path existing) (after.makeDirectories path existing) :=
  hlike.makeDirectoriesFrom htrees path existing path.parts.length

theorem truncate (path : Path) :
    Answers (Beside like) (tree.truncate path) (after.truncate path) := by
  have hsame := hlike.same htrees
  rw [FileTree.truncate, FileTree.truncate, hsame.locateNew_eq]
  cases hnew : tree.locateNew path with
  | error refusal => exact .error refusal
  | ok location =>
      simp only [bind, Except.bind, hsame.entries, hsame.clock]
      split
      · exact .error _
      · rename_i hfree
        exact .ok ⟨hlike.put htrees (isPlace_of_locateNew hnew hfree) hfree _, rfl⟩

theorem writeText (compiler : Compiler) (path : Path) (text : Text) :
    Beside like (compiler.writeText tree path text) (compiler.writeText after path text) := by
  have hmake := hlike.makeDirectories htrees path.parent true
  rw [Compiler.writeText, Compiler.writeText]
  generalize tree.makeDirectories path.parent true = made at hmake
  generalize after.makeDirectories path.parent true = made' at hmake
  obtain ⟨first, denial⟩ := made
  obtain ⟨second, denial'⟩ := made'
  obtain ⟨hmade, hdenial⟩ := hmake
  obtain rfl : denial' = denial := hdenial
  cases denial' with
  | some denial => exact ⟨hmade, rfl⟩
  | none =>
      have hopen := hlike.truncate hmade path
      dsimp only
      cases htruncate : first.truncate path with
      | error refusal =>
          rw [htruncate] at hopen
          generalize second.truncate path = opened' at hopen
          cases hopen
          exact ⟨hmade, rfl⟩
      | ok opened =>
          have hwrites := (writes_of_truncate htruncate).2
          rw [htruncate] at hopen
          generalize second.truncate path = opened' at hopen
          cases hopen with
          | @ok _ opened' hopened =>
              obtain ⟨opened, location⟩ := opened
              obtain ⟨opened', location'⟩ := opened'
              obtain ⟨hopened, hlocation⟩ := hopened
              obtain rfl : location' = location := hlocation
              dsimp only
              split
              · exact ⟨hopened, rfl⟩
              split
              · exact ⟨hopened, rfl⟩
              · rw [show opened'.clock = opened.clock from (hlike.same hopened).clock]
                exact ⟨hlike.put hopened hwrites.isPlace hwrites.free_after _, rfl⟩

end IsLikeness

end KitTemplate.FileTree
