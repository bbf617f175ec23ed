import KitTemplate.Text.Basic

/-! Marks in joined texts. A text is cut at its first mark: none begins before that one
(`not_isPrefix_of_cut?`), and it stays the first when more text follows (`cut?_append_right`). Text
in front of which no mark begins moves the cut and nothing else (`cut?_append`). -/

namespace KitTemplate.Text

variable {mark before after text : Text}

theorem cut?_of_not_isInfix (hmark : mark ≠ []) (htext : ¬ mark <:+: text) :
    cut? mark text = none :=
  Option.not_isSome_iff_eq_none.1 fun hsome => htext ((isSome_cut?_iff hmark).1 hsome)

theorem exists_cut? (hmark : mark ≠ []) (htext : mark <:+: text) :
    ∃ before after, cut? mark text = some (before, after) := by
  obtain ⟨⟨before, after⟩, hcut⟩ := Option.isSome_iff_exists.1 ((isSome_cut?_iff hmark).2 htext)
  exact ⟨before, after, hcut⟩

theorem cut?_self (hmark : mark ≠ []) (after : Text) :
    cut? mark (mark ++ after) = some ([], after) := by
  have hfound : mark.isPrefixOf? (mark ++ after) = some after := isPrefixOf?_eq_some_iff.2 rfl
  obtain ⟨first, rest, rfl⟩ := List.exists_cons_of_ne_nil hmark
  rw [List.cons_append] at hfound ⊢
  rw [cut?, hfound]

theorem cut?_singleton_cons (c first : Char) (rest : Text) :
    cut? [c] (first :: rest) =
      if first = c then some ([], rest)
      else (cut? [c] rest).map fun sides => (first :: sides.1, sides.2) := by
  by_cases hfirst : first = c
  · rw [if_pos hfirst, hfirst]
    exact cut?_self (List.cons_ne_nil c []) rest
  · have hnone : [c].isPrefixOf? (first :: rest) = none :=
      if_neg (by simpa using Ne.symm hfirst)
    rw [if_neg hfirst, cut?, hnone]

/-- What a text begins with stands before the first place of a character that it does not hold. -/
theorem isPrefix_of_not_mem {c : Char} (hbefore : c ∉ before)
    (hbegins : before <+: text ++ c :: after) : before <+: text := by
  obtain ⟨rest, hrest⟩ := hbegins
  rcases List.append_eq_append_iff.1 hrest with ⟨inner, htext, -⟩ | ⟨inner, hinner, hc⟩
  · exact ⟨inner, htext.symm⟩
  · cases inner with
    | nil => exact ⟨[], by simpa using hinner⟩
    | cons first inner =>
        obtain ⟨rfl, -⟩ := List.cons.inj hc
        exact absurd (by simp [hinner]) hbefore

/-- Text in front of which no mark begins is passed over. -/
theorem cut?_append (hpassed : ∀ rest, rest <:+ before → rest ≠ [] → ¬ mark <+: rest ++ text) :
    cut? mark (before ++ text) =
      (cut? mark text).map fun sides => (before ++ sides.1, sides.2) := by
  induction before with
  | nil => simp
  | cons first rest ih =>
      have hnone : mark.isPrefixOf? (first :: (rest ++ text)) = none := by
        rw [Option.eq_none_iff_forall_ne_some]
        intro found hfound
        exact hpassed _ (List.suffix_refl _) (List.cons_ne_nil _ _)
          ⟨found, (isPrefixOf?_eq_some_iff.1 hfound).symm⟩
      rw [List.cons_append, cut?, hnone,
        ih fun other hother => hpassed other (hother.trans (List.suffix_cons _ _)), Option.map_map]
      rfl

/-- No mark begins before the first one. -/
theorem not_isPrefix_of_cut? (hcut : cut? mark text = some (before, after)) {rest : Text}
    (hrest : rest <:+ before) (hne : rest ≠ []) : ¬ mark <+: rest ++ (mark ++ after) := by
  induction text generalizing before with
  | nil => cases hcut
  | cons first inner ih =>
      rw [cut?] at hcut
      split at hcut
      · obtain ⟨rfl, -⟩ := Prod.mk.inj (Option.some.inj hcut)
        exact absurd (List.suffix_nil.1 hrest) hne
      · rename_i hnone
        obtain ⟨⟨before', after'⟩, hinner, hsides⟩ := Option.map_eq_some_iff.1 hcut
        obtain ⟨rfl, rfl⟩ := Prod.mk.inj hsides
        rcases List.suffix_cons_iff.1 hrest with rfl | hrest
        · rintro ⟨more, hmore⟩
          have hfound : mark.isPrefixOf? (first :: inner) = some more := by
            rw [isPrefixOf?_eq_some_iff, hmore, eq_of_cut? hinner]
            simp
          rw [hnone] at hfound
          cases hfound
        · exact ih hinner hrest

theorem not_isInfix_of_cut? (hmark : mark ≠ []) (hcut : cut? mark text = some (before, after)) :
    ¬ mark <:+: before := by
  rintro ⟨first, rest, rfl⟩
  have hrest : mark ++ rest <:+ first ++ mark ++ rest := ⟨first, by simp⟩
  apply not_isPrefix_of_cut? hcut hrest (by simp [hmark])
  rw [List.append_assoc]
  exact List.prefix_append _ _

theorem cut?_append_right (hmark : mark ≠ []) (hcut : cut? mark text = some (before, after))
    (more : Text) : cut? mark (text ++ more) = some (before, after ++ more) := by
  have hpassed (rest : Text) (hrest : rest <:+ before) (hne : rest ≠ []) :
      ¬ mark <+: rest ++ (mark ++ (after ++ more)) := by
    intro hprefix
    refine not_isPrefix_of_cut? hcut hrest hne (List.prefix_of_prefix_length_le hprefix ?_ ?_)
    · exact ⟨more, by simp⟩
    · simp only [List.length_append]
      omega
  have htext : text ++ more = before ++ (mark ++ (after ++ more)) := by simp [eq_of_cut? hcut]
  rw [htext, cut?_append hpassed, cut?_self hmark]
  simp

/-! ### Places of marks -/

/-- The first place in a text, from `start` on, at which a mark stands. -/
structure IsFirstFrom (start : Nat) (mark text : Text) (place : Nat) : Prop where
  start_le : start ≤ place
  stands : mark <+: text.drop place
  first : ∀ earlier, start ≤ earlier → earlier < place → ¬ mark <+: text.drop earlier

instance (start : Nat) (mark text : Text) (place : Nat) :
    Decidable (IsFirstFrom start mark text place) :=
  decidable_of_iff (start ≤ place ∧ mark <+: text.drop place ∧
      ∀ earlier < place, start ≤ earlier → ¬ mark <+: text.drop earlier)
    ⟨fun ⟨hstart, hstands, hfirst⟩ =>
        ⟨hstart, hstands, fun earlier hle hlt => hfirst earlier hlt hle⟩,
      fun hplace => ⟨hplace.start_le, hplace.stands, fun earlier hlt hle =>
        hplace.first earlier hle hlt⟩⟩

theorem IsFirstFrom.eq {start place other : Nat} (hplace : IsFirstFrom start mark text place)
    (hother : IsFirstFrom start mark text other) : place = other := by
  rcases Nat.lt_trichotomy place other with hlt | heq | hlt
  · exact absurd hplace.stands (hother.first place hplace.start_le hlt)
  · exact heq
  · exact absurd hother.stands (hplace.first other hother.start_le hlt)

theorem isInfix_drop_iff {start : Nat} :
    mark <:+: text.drop start ↔ ∃ place, start ≤ place ∧ mark <+: text.drop place := by
  rw [List.infix_iff_prefix_suffix]
  constructor
  · rintro ⟨rest, hmark, hrest⟩
    obtain ⟨count, rfl⟩ : ∃ count, rest = (text.drop start).drop count :=
      ⟨_, List.suffix_iff_eq_drop.1 hrest⟩
    rw [List.drop_drop] at hmark
    exact ⟨start + count, Nat.le_add_right start count, hmark⟩
  · rintro ⟨place, hstart, hmark⟩
    obtain ⟨count, rfl⟩ := Nat.exists_eq_add_of_le hstart
    rw [← List.drop_drop] at hmark
    exact ⟨_, hmark, List.drop_suffix count _⟩

/-- A text is cut at the first place of the mark. -/
theorem isFirstFrom_of_cut? {start : Nat}
    (hcut : cut? mark (text.drop start) = some (before, after)) :
    IsFirstFrom start mark text (start + before.length) := by
  have htext := eq_of_cut? hcut
  rw [List.append_assoc] at htext
  refine ⟨Nat.le_add_right _ _, ?_, fun earlier hstart hearlier => ?_⟩
  · rw [← List.drop_drop, htext, List.drop_left]
    exact List.prefix_append mark after
  · obtain ⟨count, rfl⟩ := Nat.exists_eq_add_of_le hstart
    have hcount : count < before.length := by omega
    have hne : before.drop count ≠ [] := by simpa using hcount
    rw [← List.drop_drop, htext, List.drop_append_of_le_length (Nat.le_of_lt hcount)]
    exact not_isPrefix_of_cut? hcut (List.drop_suffix count before) hne

theorem exists_isFirstFrom {start place : Nat} (hmark : mark ≠ []) (hstart : start ≤ place)
    (hstands : mark <+: text.drop place) : ∃ first, IsFirstFrom start mark text first := by
  have hinfix : mark <:+: text.drop start := isInfix_drop_iff.2 ⟨place, hstart, hstands⟩
  obtain ⟨before, after, hcut⟩ := exists_cut? hmark hinfix
  exact ⟨start + before.length, isFirstFrom_of_cut? hcut⟩

/-- The first place of a mark is where a text is cut. -/
theorem IsFirstFrom.cut? {start place : Nat} (hmark : mark ≠ [])
    (hplace : IsFirstFrom start mark text place) :
    cut? mark (text.drop start) =
      some ((text.take place).drop start, text.drop (place + mark.length)) := by
  have hsome : mark <:+: text.drop start :=
    isInfix_drop_iff.2 ⟨place, hplace.start_le, hplace.stands⟩
  obtain ⟨before, after, hcut⟩ := exists_cut? hmark hsome
  obtain rfl := hplace.eq (isFirstFrom_of_cut? hcut)
  have htext := eq_of_cut? hcut
  have hbefore : (text.take (start + before.length)).drop start = before := by
    rw [List.drop_take, htext, Nat.add_sub_cancel_left, List.append_assoc, List.take_left]
  have hafter : text.drop (start + before.length + mark.length) = after := by
    rw [Nat.add_assoc, ← List.drop_drop, htext, ← List.length_append, List.drop_left]
  rw [hcut, hbefore, hafter]

/-- What stands before the first place of a mark. -/
theorem IsFirstFrom.length_take_drop {start place : Nat} (hmark : mark ≠ [])
    (hplace : IsFirstFrom start mark text place) :
    ((text.take place).drop start).length + start = place := by
  have hstands : mark <+: text.drop place := hplace.stands
  have hlength := hstands.length_le
  have hpos := List.length_pos_iff.2 hmark
  have hstart := hplace.start_le
  rw [List.length_drop] at hlength
  rw [List.length_drop, List.length_take]
  omega

end KitTemplate.Text
