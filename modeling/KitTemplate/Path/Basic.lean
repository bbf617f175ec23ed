import KitTemplate.Text.Quoted

/-! Paths as texts name them, before any directory is looked at. A path is an anchor and a list of
parts; empty parts and single dots are dropped when a text is read, double dots are kept. Two
leading slashes anchor differently from one, three or more are the same as one. The name of a path
is its last part, and the name splits at its last dot into stem and suffix.

A path is absolute if it goes from the root to an entry by names alone. The path that a text names
from an absolute directory is absolute (`isAbsolute_absolute`). -/

namespace KitTemplate

inductive Anchor where
  | relative
  | root
  | doubleRoot
deriving DecidableEq, Repr

def Anchor.toText : Anchor → Text
  | relative => []
  | root => ['/']
  | doubleRoot => ['/', '/']

def Anchor.ofText : Text → Anchor
  | '/' :: '/' :: '/' :: _ => root
  | '/' :: '/' :: _ => doubleRoot
  | '/' :: _ => root
  | _ => relative

structure Path where
  anchor : Anchor
  parts : List Text
deriving DecidableEq, Repr

namespace Path

def ofText (text : Text) : Path :=
  ⟨.ofText text, (text.splitOn '/').filter fun part => part ≠ [] && part ≠ ['.']⟩

def toText (path : Path) : Text :=
  match path.anchor.toText ++ Text.join ['/'] path.parts with
  | [] => ['.']
  | text => text

/-- The second path taken from the directory that the first one names. -/
def append (base path : Path) : Path :=
  if path.anchor = .relative then { base with parts := base.parts ++ path.parts } else path

instance : Append Path := ⟨append⟩

/-- A path written as text, taken from the directory `base`. -/
def child (base : Path) (text : Text) : Path := base ++ ofText text

/-- The path of an entry of the directory at a path. -/
def entry (directory : Path) (name : Text) : Path :=
  { directory with parts := directory.parts ++ [name] }

/-- The last part, empty for a bare anchor. -/
def name (path : Path) : Text := path.parts.getLast?.getD []

def parent (path : Path) : Path := { path with parts := path.parts.dropLast }

/-- Whether the first path is the parent of the second, or of one of its parents. -/
def isAbove (outer inner : Path) : Bool :=
  outer.anchor = inner.anchor && outer.parts.length < inner.parts.length &&
    outer.parts.isPrefixOf inner.parts

/-- A name cut before its last dot. A dot that begins or ends the name does not count, so such a
name has no suffix. -/
def splitSuffix (name : Text) : Text × Text :=
  let suffix := (name.reverse.takeWhile (· ≠ '.')).reverse
  let stem := name.take (name.length - suffix.length - 1)
  if stem = [] ∨ suffix = [] then (name, []) else (stem, '.' :: suffix)

def suffix (path : Path) : Text := (splitSuffix path.name).2

def stem (path : Path) : Text := (splitSuffix path.name).1

/-- Why a path has no counterpart under another name. -/
inductive RenameError where
  | unnamed (path : Path)
  | badName (name : Text)
deriving DecidableEq, Repr

/-- Whether a text can stand as the last part of a path: it names one file, and does so without a
slash at either end. -/
def isSingleName (name : Text) : Bool :=
  name.getLast?.any (· ≠ '/') && (ofText name).anchor = .relative && (ofText name).parts.length = 1

/-- The path with its last part replaced. -/
def withName (path : Path) (name : Text) : Except RenameError Path :=
  if path.name = [] then .error (.unnamed path)
  else if isSingleName name then .ok { path with parts := path.parts.dropLast ++ [name] }
  else .error (.badName name)

/-- Parts with every double dot taken against the part before it. At the top a double dot is
dropped. The parts kept so far are listed from the last on. -/
def collapse (kept : List Text) : List Text → List Text
  | [] => kept.reverse
  | part :: rest =>
    if part = ['.', '.'] then collapse kept.tail rest else collapse (part :: kept) rest

/-- The path from the root of a path taken from the directory `base`, without double dots. Nothing
is looked up: a double dot removes the part before it whatever that names. -/
def absolute (base path : Path) : Path :=
  let joined := base.child path.toText
  { joined with parts := collapse [] joined.parts }

/-- Whether a text can name an entry of a directory. -/
def IsPlain (part : Text) : Prop := part ≠ [] ∧ part ≠ ['.'] ∧ part ≠ ['.', '.'] ∧ '/' ∉ part

instance (part : Text) : Decidable (IsPlain part) := inferInstanceAs (Decidable (_ ∧ _))

structure IsAbsolute (path : Path) : Prop where
  rooted : path.anchor ≠ .relative
  plain : ∀ part ∈ path.parts, IsPlain part

theorem isAbsolute_root : IsAbsolute ⟨.root, []⟩ where
  rooted := by decide
  plain := by simp

theorem IsAbsolute.parent {path : Path} (hpath : path.IsAbsolute) : path.parent.IsAbsolute where
  rooted := hpath.rooted
  plain part hpart := hpath.plain part (List.dropLast_subset _ hpart)

theorem mem_of_mem_collapse {kept parts : List Text} {part : Text}
    (hpart : part ∈ collapse kept parts) : part ∈ kept ∨ part ∈ parts ∧ part ≠ ['.', '.'] := by
  induction parts generalizing kept with
  | nil =>
      rw [collapse, List.mem_reverse] at hpart
      exact Or.inl hpart
  | cons first rest ih =>
      rw [collapse] at hpart
      split at hpart
      · rcases ih hpart with hkept | ⟨hrest, hdots⟩
        · exact Or.inl (List.mem_of_mem_tail hkept)
        · exact Or.inr ⟨List.mem_cons_of_mem _ hrest, hdots⟩
      · rename_i hfirst
        rcases ih hpart with hkept | ⟨hrest, hdots⟩
        · rcases List.mem_cons.1 hkept with rfl | hkept
          · exact Or.inr ⟨List.mem_cons_self, hfirst⟩
          · exact Or.inl hkept
        · exact Or.inr ⟨List.mem_cons_of_mem _ hrest, hdots⟩

theorem mem_parts_ofText {text part : Text} (hpart : part ∈ (ofText text).parts) :
    part ≠ [] ∧ part ≠ ['.'] ∧ '/' ∉ part := by
  simp only [ofText, List.mem_filter, Bool.and_eq_true, decide_eq_true_eq] at hpart
  exact ⟨hpart.2.1, hpart.2.2, Text.not_mem_of_mem_splitOn hpart.1⟩

theorem anchor_child {base : Path} (hbase : base.anchor ≠ .relative) (text : Text) :
    (base.child text).anchor ≠ .relative := by
  show (append base (ofText text)).anchor ≠ .relative
  rw [append]
  split
  · exact hbase
  · assumption

theorem mem_parts_child {base : Path} {text part : Text} (hpart : part ∈ (base.child text).parts) :
    part ∈ base.parts ∨ part ∈ (ofText text).parts := by
  change part ∈ (append base (ofText text)).parts at hpart
  rw [append] at hpart
  split at hpart
  · exact List.mem_append.1 hpart
  · exact Or.inr hpart

theorem isAbsolute_absolute {base : Path} (hbase : base.IsAbsolute) (path : Path) :
    (absolute base path).IsAbsolute where
  rooted := anchor_child hbase.rooted _
  plain := by
    intro part hpart
    rcases mem_of_mem_collapse hpart with hkept | ⟨hjoined, hdots⟩
    · simp at hkept
    · rcases mem_parts_child hjoined with hbase' | htext
      · exact hbase.plain part hbase'
      · obtain ⟨hempty, hdot, hslash⟩ := mem_parts_ofText htext
        exact ⟨hempty, hdot, hdots, hslash⟩

end Path

end KitTemplate
