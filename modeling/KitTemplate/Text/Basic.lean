/-! Text as the list of its code points, and the few ways in which templates, paths and messages
cut it: at the first occurrence of a mark, at every occurrence of one character, and at the ends. A
cut loses nothing but the mark itself (`eq_of_cut?`), and it is made wherever the mark occurs
(`isSome_cut?_iff`). The parts between separators hold none (`not_mem_of_mem_splitOn`). -/

namespace KitTemplate

abbrev Text := List Char

namespace Text

/-- The decimal digits of a number. -/
def ofNat (value : Nat) : Text := Nat.toDigits 10 value

def ofInt : Int → Text
  | .ofNat value => ofNat value
  | .negSucc value => '-' :: ofNat (value + 1)

/-- What stands before and after the first occurrence of `mark`, or nothing if there is none. The
end of the text is not searched, so an empty mark is found only in a text that is not empty. -/
def cut? (mark : Text) : Text → Option (Text × Text)
  | [] => none
  | first :: rest =>
    match mark.isPrefixOf? (first :: rest) with
    | some after => some ([], after)
    | none => (cut? mark rest).map fun sides => (first :: sides.1, sides.2)

/-- Whether `mark` occurs in the text. -/
def occursIn (mark : Text) (text : Text) : Bool := (cut? mark text).isSome

/-- The parts of a text between the occurrences of `separator`, one more than there are of those. -/
def splitOn (separator : Char) : Text → List Text
  | [] => [[]]
  | first :: rest =>
    if first = separator then
      [] :: splitOn separator rest
    else
      match splitOn separator rest with
      | [] => [[first]]
      | part :: parts => (first :: part) :: parts

def trimLeft (skipped : Char → Bool) (text : Text) : Text := text.dropWhile skipped

def trimRight (skipped : Char → Bool) (text : Text) : Text :=
  (text.reverse.dropWhile skipped).reverse

def trim (skipped : Char → Bool) (text : Text) : Text := trimRight skipped (trimLeft skipped text)

/-- The maximal runs of characters that are not separators. -/
def words (separates : Char → Bool) : Text → List Text
  | [] => []
  | first :: rest =>
    if separates first then
      words separates rest
    else
      match rest, words separates rest with
      | next :: _, word :: more =>
        if separates next then [first] :: word :: more else (first :: word) :: more
      | _, more => [first] :: more

/-- The parts one after another with `separator` between neighbours. -/
def join (separator : Text) (parts : List Text) : Text := separator.intercalate parts

/-- The order of texts by code points, the shorter first where one begins the other. -/
def le : Text → Text → Bool
  | [], _ => true
  | _ :: _, [] => false
  | first :: rest, first' :: rest' => first < first' || (first = first' && le rest rest')

theorem splitOn_ne_nil (separator : Char) (text : Text) : splitOn separator text ≠ [] := by
  cases text with
  | nil => simp [splitOn]
  | cons first rest =>
      rw [splitOn]
      split
      · simp
      · split <;> simp

/-- A character that is no separator joins the first part. -/
theorem splitOn_cons_of_ne {separator first : Char} (hfirst : first ≠ separator) (rest : Text) :
    ∃ part parts, splitOn separator rest = part :: parts ∧
      splitOn separator (first :: rest) = (first :: part) :: parts := by
  obtain ⟨part, parts, hrest⟩ := List.exists_cons_of_ne_nil (splitOn_ne_nil separator rest)
  exact ⟨part, parts, hrest, by rw [splitOn, if_neg hfirst, hrest]⟩

theorem not_mem_of_mem_splitOn {separator : Char} {part text : Text}
    (hpart : part ∈ splitOn separator text) : separator ∉ part := by
  induction text generalizing part with
  | nil =>
      rw [splitOn, List.mem_singleton] at hpart
      simp [hpart]
  | cons first rest ih =>
      by_cases hfirst : first = separator
      · rw [splitOn, if_pos hfirst, List.mem_cons] at hpart
        rcases hpart with rfl | hpart
        · simp
        · exact ih hpart
      · obtain ⟨head, tail, hrest, hcons⟩ := splitOn_cons_of_ne hfirst rest
        rw [hcons, List.mem_cons] at hpart
        rcases hpart with rfl | hpart
        · have hhead : separator ∉ head := ih (by rw [hrest]; exact List.mem_cons_self)
          simp [hhead, Ne.symm hfirst]
        · exact ih (by rw [hrest]; exact List.mem_cons_of_mem _ hpart)

theorem isPrefixOf?_eq_some_iff {mark text after : Text} :
    mark.isPrefixOf? text = some after ↔ text = mark ++ after := by
  induction mark generalizing text with
  | nil =>
      show some text = some after ↔ text = after
      rw [Option.some_inj]
  | cons first mark ih =>
    cases text with
    | nil =>
        show none = some after ↔ [] = first :: (mark ++ after)
        simp
    | cons second rest =>
        show (if first == second then mark.isPrefixOf? rest else none) = some after ↔
          second :: rest = first :: (mark ++ after)
        by_cases hfirst : first = second
        · simp [hfirst, ih]
        · simp [hfirst, Ne.symm hfirst]

theorem eq_of_cut? {mark text before after : Text} (hcut : cut? mark text = some (before, after)) :
    text = before ++ mark ++ after := by
  induction text generalizing before with
  | nil => simp [cut?] at hcut
  | cons first rest ih =>
    rw [cut?] at hcut
    split at hcut
    · rename_i found hfound
      obtain ⟨rfl, rfl⟩ := Prod.mk.inj (Option.some.inj hcut)
      simpa using isPrefixOf?_eq_some_iff.1 hfound
    · obtain ⟨⟨before', after'⟩, hrest, hsides⟩ := Option.map_eq_some_iff.1 hcut
      obtain ⟨rfl, rfl⟩ := Prod.mk.inj hsides
      simpa using ih hrest

theorem isSome_cut?_iff {mark text : Text} (hmark : mark ≠ []) :
    (cut? mark text).isSome ↔ mark <:+: text := by
  constructor
  · intro hsome
    obtain ⟨⟨before, after⟩, hcut⟩ := Option.isSome_iff_exists.1 hsome
    exact ⟨before, after, (eq_of_cut? hcut).symm⟩
  · rintro ⟨before, after, rfl⟩
    induction before with
    | nil =>
      obtain ⟨first, rest, rfl⟩ := List.exists_cons_of_ne_nil hmark
      have hfound : (first :: rest).isPrefixOf? (first :: (rest ++ after)) = some after :=
        isPrefixOf?_eq_some_iff.2 rfl
      simp [cut?, hfound]
    | cons first before ih =>
      simp only [List.cons_append, cut?]
      split
      · rfl
      · simpa using ih

theorem length_after_lt {mark text before after : Text} (hmark : mark ≠ [])
    (hcut : cut? mark text = some (before, after)) : after.length < text.length := by
  have hpos : 0 < mark.length := List.length_pos_iff.2 hmark
  rw [eq_of_cut? hcut]
  simp only [List.length_append]
  omega

end Text

end KitTemplate
