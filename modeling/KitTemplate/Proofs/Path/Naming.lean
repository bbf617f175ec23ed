import KitTemplate.FileTree.Node
import KitTemplate.Path.Basic
import KitTemplate.Proofs.Text.Splitting

/-! Names of paths. A name that is neither empty nor a dot and has no slash is one part of the path
that it spells. It is its stem and its suffix, one after the other; so the stem of a plain name is
plain, unless dots are all that stands before the last one (`cases_of_stem`). A name that has a
suffix is plain, and is cut at its last dot (`exists_of_suffix_ne_nil`). A single name, which may
take the place of the last part of a path, need not be plain. Written as text and read again, a path
from the root is the same path (`ofText_toText`). -/

namespace KitTemplate.Path

theorem name_of_parts {path : Path} {parts : List Text} {last : Text}
    (hparts : path.parts = parts ++ [last]) : path.name = last := by
  rw [name, hparts, List.getLast?_concat]
  rfl

theorem parts_of_name {path : Path} (hname : path.name ≠ []) :
    path.parts = path.parts.dropLast ++ [path.name] := by
  have hparts : path.parts ≠ [] := by
    intro hparts
    rw [name, hparts] at hname
    exact hname rfl
  rw [name, List.getLast?_eq_some_getLast hparts]
  exact (List.dropLast_concat_getLast hparts).symm

theorem mem_parts_of_name {path : Path} (hname : path.name ≠ []) : path.name ∈ path.parts := by
  rw [parts_of_name hname]
  simp

theorem ofText_of_not_mem {text : Text} (hempty : text ≠ []) (hdot : text ≠ ['.'])
    (hslash : '/' ∉ text) : ofText text = ⟨.relative, [text]⟩ := by
  have hanchor : Anchor.ofText text = .relative := by
    cases text with
    | nil => exact absurd rfl hempty
    | cons first rest =>
        rw [List.mem_cons, not_or] at hslash
        unfold Anchor.ofText
        split <;> simp_all
  rw [ofText, hanchor, Text.splitOn_of_not_mem hslash]
  simp [hempty, hdot]

theorem isSingleName_of_not_mem {text : Text} (hempty : text ≠ []) (hdot : text ≠ ['.'])
    (hslash : '/' ∉ text) : isSingleName text := by
  have hlast : text.getLast? = some (text.getLast hempty) := List.getLast?_eq_some_getLast hempty
  have hne : text.getLast hempty ≠ '/' := fun hsep => hslash (hsep ▸ List.getLast_mem hempty)
  simp [isSingleName, ofText_of_not_mem hempty hdot hslash, hlast, hne]

theorem length_parts_of_isSingleName {name : Text} (hsingle : isSingleName name) :
    (ofText name).parts.length = 1 := by
  simp only [isSingleName, Bool.and_eq_true, decide_eq_true_eq] at hsingle
  exact hsingle.2

/-- What a single name can be. -/
theorem cases_of_isSingleName {name : Text} (hsingle : isSingleName name) :
    IsPlain name ∨ name = ['.', '.'] ∨ (Text.splitOn '/' name).head? = some ['.'] ∨
      (Text.splitOn '/' name).getLast? = some ['.'] := by
  have hlength := length_parts_of_isSingleName hsingle
  simp only [isSingleName, Bool.and_eq_true, decide_eq_true_eq] at hsingle
  obtain ⟨⟨hlast, hanchor⟩, -⟩ := hsingle
  have hempty : name ≠ [] := by
    rintro rfl
    cases hlast
  have hhead : (Text.splitOn '/' name).head? ≠ some [] := by
    intro hhead
    obtain ⟨rest, rfl⟩ := List.head?_eq_some_iff.1 (Text.head?_of_head?_splitOn hempty hhead)
    simp only [ofText] at hanchor
    unfold Anchor.ofText at hanchor
    split at hanchor <;> simp_all
  have hend : (Text.splitOn '/' name).getLast? ≠ some [] := by
    intro hend
    rw [Text.getLast?_of_getLast?_splitOn hempty hend] at hlast
    cases hlast
  simp only [ofText] at hlength
  obtain ⟨first, rest, hparts⟩ := List.exists_cons_of_ne_nil (Text.splitOn_ne_nil '/' name)
  rcases List.eq_nil_or_concat rest with rfl | ⟨middle, last, rfl⟩
  · -- no slash at all
    have hname : first = name := by
      have hjoin : Text.join ['/'] (Text.splitOn '/' name) = name := Text.join_splitOn name
      rw [hparts] at hjoin
      simpa [Text.join, List.intercalate] using hjoin
    have hslash : '/' ∉ name := Text.not_mem_of_mem_splitOn (by rw [hparts, hname]; simp)
    by_cases hdots : name = ['.', '.']
    · exact Or.inr (Or.inl hdots)
    · refine Or.inl ⟨hempty, ?_, hdots, hslash⟩
      rintro rfl
      revert hlength
      decide
  · -- the first part and the last one would both be counted
    rw [hparts, List.concat_eq_append, ← List.cons_append] at hhead hend hlength ⊢
    rw [List.getLast?_concat] at hend ⊢
    by_cases hfirst : first = ['.']
    · exact Or.inr (Or.inr (Or.inl (congrArg some hfirst)))
    by_cases hlast' : last = ['.']
    · exact Or.inr (Or.inr (Or.inr (congrArg some hlast')))
    · have hfirst' : first ≠ [] := fun hnil => hhead (congrArg some hnil)
      have hlast'' : last ≠ [] := fun hnil => hend (congrArg some hnil)
      simp [List.filter_append, hfirst, hfirst', hlast', hlast''] at hlength

/-! ### Stems -/

/-- A name is its stem and its suffix, one after the other. -/
theorem splitSuffix_append (name : Text) : (splitSuffix name).1 ++ (splitSuffix name).2 = name := by
  simp only [splitSuffix]
  split
  · exact List.append_nil name
  rename_i hdotted
  obtain ⟨hstem, -⟩ := not_or.1 hdotted
  have hname :
      name.reverse.takeWhile (· ≠ '.') ++ name.reverse.dropWhile (· ≠ '.') = name.reverse :=
    List.takeWhile_append_dropWhile
  cases hrest : name.reverse.dropWhile (· ≠ '.') with
  | nil =>
      -- without a dot nothing is left for the stem
      rw [hrest, List.append_nil] at hname
      refine absurd ?_ hstem
      rw [hname]
      simp
  | cons dot rest =>
      have hdot : dot = '.' := by
        have hhead := List.head?_dropWhile_not (· ≠ '.') name.reverse
        rw [hrest] at hhead
        simpa using hhead
      have hsplit : name = rest.reverse ++ '.' :: (name.reverse.takeWhile (· ≠ '.')).reverse := by
        rw [hrest, hdot] at hname
        have hreverse := congrArg List.reverse hname
        simpa using hreverse.symm
      generalize (name.reverse.takeWhile (· ≠ '.')).reverse = suffix at hsplit ⊢
      clear hdotted hstem hname hrest
      subst hsplit
      have hlength :
          (rest.reverse ++ '.' :: suffix).length - suffix.length - 1 = rest.reverse.length := by
        simp only [List.length_append, List.length_cons]
        omega
      rw [hlength, List.take_left]

theorem takeWhile_reverse_of_dot {stem suffix : Text} (hdot : '.' ∉ suffix) :
    (stem ++ '.' :: suffix).reverse.takeWhile (· ≠ '.') = suffix.reverse := by
  have hplain : ∀ c ∈ suffix.reverse, decide (c ≠ '.') = true := fun c hc =>
    decide_eq_true fun hdot' => hdot (hdot' ▸ List.mem_reverse.1 hc)
  rw [List.reverse_append, List.reverse_cons, List.append_assoc,
    List.takeWhile_append_of_pos hplain]
  simp

/-- A name is cut before its last dot, unless that dot begins or ends it. -/
theorem splitSuffix_append_cons {stem suffix : Text} (hdot : '.' ∉ suffix) :
    splitSuffix (stem ++ '.' :: suffix) =
      if stem = [] ∨ suffix = [] then (stem ++ '.' :: suffix, []) else (stem, '.' :: suffix) := by
  have hlength : (stem ++ '.' :: suffix).length - suffix.length - 1 = stem.length := by
    simp only [List.length_append, List.length_cons]
    omega
  simp only [splitSuffix, takeWhile_reverse_of_dot hdot, List.reverse_reverse, hlength,
    List.take_left]

theorem splitSuffix_append_dot {stem suffix : Text} (hstem : stem ≠ []) (hsuffix : suffix ≠ [])
    (hdot : '.' ∉ suffix) : splitSuffix (stem ++ '.' :: suffix) = (stem, '.' :: suffix) := by
  rw [splitSuffix_append_cons hdot, if_neg (not_or.2 ⟨hstem, hsuffix⟩)]

/-- A name with a suffix is a stem, a dot and a text without dots. -/
theorem exists_of_suffix_ne_nil {name : Text} (hsuffix : (splitSuffix name).2 ≠ []) :
    ∃ stem extension, name = stem ++ '.' :: extension ∧ stem ≠ [] ∧ extension ≠ [] ∧
      '.' ∉ extension := by
  have hname := splitSuffix_append name
  simp only [splitSuffix] at hsuffix hname
  split at hsuffix
  · exact absurd rfl hsuffix
  rename_i hdotted
  rw [if_neg hdotted] at hname
  obtain ⟨hstem, hextension⟩ := not_or.1 hdotted
  refine ⟨_, _, hname.symm, hstem, hextension, fun hdot => ?_⟩
  simpa using List.all_eq_true.1 List.all_takeWhile _ (List.mem_reverse.1 hdot)

/-- A name with a suffix is more than dots. -/
theorem isPlain_of_suffix_ne_nil {name : Text} (hsuffix : (splitSuffix name).2 ≠ [])
    (hslash : '/' ∉ name) : IsPlain name := by
  refine ⟨?_, ?_, ?_, hslash⟩
  all_goals
    rintro rfl
    exact hsuffix (by decide)

theorem stem_ne_nil {name : Text} (hname : name ≠ []) : (splitSuffix name).1 ≠ [] := by
  simp only [splitSuffix]
  split
  · exact hname
  · rename_i hdotted
    exact (not_or.1 hdotted).1

theorem stem_subset (name : Text) : (splitSuffix name).1 ⊆ name := by
  intro c hc
  rw [← splitSuffix_append name]
  exact List.mem_append_left _ hc

/-- The stem of a plain name is plain, unless it is made of dots. -/
theorem cases_of_stem {name : Text} (hname : IsPlain name) :
    IsPlain (splitSuffix name).1 ∨ (splitSuffix name).1 = ['.'] ∨
      (splitSuffix name).1 = ['.', '.'] := by
  by_cases hdot : (splitSuffix name).1 = ['.']
  · exact Or.inr (Or.inl hdot)
  by_cases hdots : (splitSuffix name).1 = ['.', '.']
  · exact Or.inr (Or.inr hdots)
  · exact Or.inl ⟨stem_ne_nil hname.1, hdot, hdots,
      fun hslash => hname.2.2.2 (stem_subset name hslash)⟩

/-! ### Children -/

theorem child_of_not_mem {name : Text} (hempty : name ≠ []) (hdot : name ≠ ['.'])
    (hslash : '/' ∉ name) (base : Path) :
    base.child name = { base with parts := base.parts ++ [name] } := by
  show append base (ofText name) = _
  rw [append, ofText_of_not_mem hempty hdot hslash]
  rfl

theorem child_of_plain {name : Text} (hname : IsPlain name) (base : Path) :
    base.child name = { base with parts := base.parts ++ [name] } :=
  child_of_not_mem hname.1 hname.2.1 hname.2.2.2 base

theorem child_dot (base : Path) : base.child ['.'] = base := by
  show append base (ofText ['.']) = base
  have hdot : ofText ['.'] = ⟨.relative, []⟩ := by decide
  rw [append, hdot, if_pos rfl, List.append_nil]

theorem IsAbsolute.concat {base : Path} (hbase : base.IsAbsolute) {name : Text}
    (hname : IsPlain name) : IsAbsolute { base with parts := base.parts ++ [name] } := by
  refine ⟨hbase.rooted, fun part hpart => ?_⟩
  rcases List.mem_append.1 hpart with habove | hlast
  · exact hbase.plain part habove
  · rwa [List.mem_singleton.1 hlast]

theorem IsAbsolute.of_parent {path : Path} (hparent : path.parent.IsAbsolute)
    (hname : IsPlain path.name) : path.IsAbsolute := by
  have hpath := hparent.concat hname
  rwa [Path.parent, ← parts_of_name hname.1] at hpath

/-- Only a bare anchor has no name. -/
theorem IsAbsolute.parts_of_name_eq_nil {path : Path} (hpath : path.IsAbsolute)
    (hname : path.name = []) : path.parts = [] := by
  rcases List.eq_nil_or_concat path.parts with hparts | ⟨above, last, hparts⟩
  · exact hparts
  · rw [List.concat_eq_append] at hparts
    rw [name_of_parts hparts] at hname
    refine absurd hname (hpath.plain last ?_).1
    rw [hparts]
    exact List.mem_append_right _ (List.mem_singleton_self last)

theorem IsAbsolute.slash_not_mem_name {path : Path} (hpath : path.IsAbsolute) :
    '/' ∉ path.name := by
  by_cases hname : path.name = []
  · rw [hname]
    exact List.not_mem_nil
  · exact (hpath.plain _ (mem_parts_of_name hname)).2.2.2

theorem IsAbsolute.child {base : Path} (hbase : base.IsAbsolute) {name : Text}
    (hname : IsPlain name) : (base.child name).IsAbsolute := by
  rw [child_of_plain hname]
  exact hbase.concat hname

/-! ### Paths from the root -/

theorem anchor_of_slash {text : Text} (htext : text.head? ≠ some '/') :
    Anchor.ofText ('/' :: text) = .root := by
  rw [Anchor.ofText.eq_def]
  split <;> grind

theorem anchor_of_slashes {text : Text} (htext : text.head? ≠ some '/') :
    Anchor.ofText ('/' :: '/' :: text) = .doubleRoot := by
  rw [Anchor.ofText.eq_def]
  split <;> grind

/-- A path from the root is the one that its text spells. -/
theorem IsAbsolute.ofText_toText {path : Path} (hpath : path.IsAbsolute) :
    ofText path.toText = path := by
  obtain ⟨anchor, parts⟩ := path
  obtain ⟨hrooted, hplain⟩ := hpath
  have hjoined : (Text.splitOn '/' (Text.join ['/'] parts)).filter
      (fun part => part ≠ [] && part ≠ ['.']) = parts := by
    cases parts with
    | nil => rfl
    | cons first rest =>
        have hparts : (first :: rest).flatMap (Text.splitOn '/') = first :: rest := by
          have hpart : ∀ part ∈ first :: rest, Text.splitOn '/' part = [part] := fun part hpart =>
            Text.splitOn_of_not_mem (hplain part hpart).2.2.2
          rw [List.flatMap_def, List.map_congr_left hpart, ← List.flatMap_def,
            List.flatMap_singleton']
        rw [Text.splitOn_join (List.cons_ne_nil _ _), hparts, List.filter_eq_self]
        intro part hpart
        simp [(hplain part hpart).1, (hplain part hpart).2.1]
  have hhead : (Text.join ['/'] parts).head? ≠ some '/' := by
    cases parts with
    | nil => simp [Text.join]
    | cons first rest =>
        obtain ⟨hempty, -, -, hslash⟩ := hplain first List.mem_cons_self
        obtain ⟨c, name, rfl⟩ := List.exists_cons_of_ne_nil hempty
        rw [List.mem_cons, not_or] at hslash
        cases rest with
        | nil => simpa [Text.join, List.intercalate] using Ne.symm hslash.1
        | cons next rest =>
            rw [Text.join_cons_cons]
            simpa using Ne.symm hslash.1
  cases anchor with
  | relative => exact absurd rfl hrooted
  | root =>
      have htext : toText ⟨.root, parts⟩ = '/' :: Text.join ['/'] parts := rfl
      rw [htext, ofText, anchor_of_slash hhead, Text.splitOn, if_pos rfl, List.filter_cons_of_neg (by simp),
        hjoined]
  | doubleRoot =>
      have htext : toText ⟨.doubleRoot, parts⟩ = '/' :: '/' :: Text.join ['/'] parts := rfl
      rw [htext, ofText, anchor_of_slashes hhead, Text.splitOn, if_pos rfl, List.filter_cons_of_neg (by simp),
        Text.splitOn, if_pos rfl, List.filter_cons_of_neg (by simp), hjoined]

theorem collapse_append {parts : List Text} (hparts : ['.', '.'] ∉ parts) (kept rest : List Text) :
    collapse kept (parts ++ rest) = collapse (parts.reverse ++ kept) rest := by
  induction parts generalizing kept with
  | nil => rfl
  | cons part parts ih =>
      rw [List.mem_cons, not_or] at hparts
      rw [List.cons_append, collapse, if_neg (Ne.symm hparts.1), ih hparts.2, List.reverse_cons,
        List.append_assoc]
      rfl

/-- The location that a path names, where a double dot takes back the part before it. -/
def place (path : Path) : Location := collapse [] path.parts

theorem place_of_not_mem {path : Path} (hparts : ['.', '.'] ∉ path.parts) :
    path.place = path.parts := by
  have happend := collapse_append hparts [] []
  rwa [List.append_nil, List.append_nil, collapse, List.reverse_reverse] at happend

theorem IsAbsolute.not_mem_dots {path : Path} (hpath : path.IsAbsolute) :
    ['.', '.'] ∉ path.parts :=
  fun hdots => (hpath.plain _ hdots).2.2.1 rfl

/-- A path from the root names the same file from every directory. -/
theorem IsAbsolute.absolute_eq {path : Path} (hpath : path.IsAbsolute) (base : Path) :
    absolute base path = path := by
  have hchild : base.child path.toText = path := by
    show append base (ofText path.toText) = path
    rw [hpath.ofText_toText, append, if_neg hpath.rooted]
  have hplace : collapse [] path.parts = path.parts := place_of_not_mem hpath.not_mem_dots
  rw [absolute, hchild, hplace]

/-- A slash leads from one child to the next. -/
theorem child_slash {first last : Text} (hfirst : IsPlain first) (hlast : IsPlain last)
    (base : Path) : base.child (first ++ '/' :: last) = (base.child first).child last := by
  have hanchor : Anchor.ofText (first ++ '/' :: last) = .relative := by
    obtain ⟨c, rest, rfl⟩ := List.exists_cons_of_ne_nil hfirst.1
    have hslash := hfirst.2.2.2
    rw [List.mem_cons, not_or] at hslash
    unfold Anchor.ofText
    split <;> simp_all
  have htext : ofText (first ++ '/' :: last) = ⟨.relative, [first, last]⟩ := by
    rw [ofText, hanchor, Text.splitOn_append_separator, Text.splitOn_of_not_mem hfirst.2.2.2,
      Text.splitOn_of_not_mem hlast.2.2.2]
    simp [hfirst.1, hfirst.2.1, hlast.1, hlast.2.1]
  rw [child_of_plain hfirst, child_of_plain hlast]
  show append base (ofText _) = _
  rw [append, htext, if_pos rfl]
  simp

end KitTemplate.Path
