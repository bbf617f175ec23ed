import KitTemplate.Text.Basic

/-! Splitting a text at a separator. The parts of two texts with a separator between them are the
parts of the one and then those of the other, so joined parts split into the parts of each. -/

namespace KitTemplate.Text

variable {separator : Char}

theorem splitOn_of_not_mem {text : Text} (htext : separator ∉ text) :
    splitOn separator text = [text] := by
  induction text with
  | nil => rfl
  | cons first rest ih =>
      rw [List.mem_cons, not_or] at htext
      rw [splitOn, if_neg (Ne.symm htext.1), ih htext.2]

theorem splitOn_append_separator (before after : Text) :
    splitOn separator (before ++ separator :: after) =
      splitOn separator before ++ splitOn separator after := by
  induction before with
  | nil => simp only [List.nil_append, splitOn, if_true, List.singleton_append]
  | cons first rest ih =>
      by_cases hfirst : first = separator
      · simp only [List.cons_append, splitOn, if_pos hfirst, ih]
      · obtain ⟨part, parts, hparts, hcons⟩ := splitOn_cons_of_ne hfirst rest
        rw [hparts, List.cons_append] at ih
        rw [hcons, List.cons_append, splitOn, if_neg hfirst, ih]
        rfl

/-- Text without a separator joins the first part of what follows it. -/
theorem splitOn_append_of_not_mem {before : Text} (hbefore : separator ∉ before) (after : Text) :
    ∃ part parts, splitOn separator after = part :: parts ∧
      splitOn separator (before ++ after) = (before ++ part) :: parts := by
  induction before with
  | nil =>
      obtain ⟨part, parts, hparts⟩ := List.exists_cons_of_ne_nil (splitOn_ne_nil separator after)
      exact ⟨part, parts, hparts, hparts⟩
  | cons first rest ih =>
      rw [List.mem_cons, not_or] at hbefore
      obtain ⟨part, parts, hparts, happend⟩ := ih hbefore.2
      refine ⟨part, parts, hparts, ?_⟩
      rw [List.cons_append, splitOn, if_neg (Ne.symm hbefore.1), happend]
      rfl

/-- Text without a separator joins the last part of what stands before it. -/
theorem splitOn_append_right {gap : Text} (hgap : separator ∉ gap) (text : Text) :
    ∃ others last, splitOn separator text = others ++ [last] ∧
      splitOn separator (text ++ gap) = others ++ [last ++ gap] := by
  induction text with
  | nil => exact ⟨[], [], rfl, splitOn_of_not_mem hgap⟩
  | cons first rest ih =>
      obtain ⟨others, last, hrest, hjoined⟩ := ih
      by_cases hfirst : first = separator
      · refine ⟨[] :: others, last, ?_, ?_⟩
        · rw [splitOn, if_pos hfirst, hrest, List.cons_append]
        · rw [List.cons_append, splitOn, if_pos hfirst, hjoined, List.cons_append]
      · cases others with
        | nil =>
            refine ⟨[], first :: last, ?_, ?_⟩
            · rw [splitOn, if_neg hfirst, hrest]
              rfl
            · rw [List.cons_append, splitOn, if_neg hfirst, hjoined]
              rfl
        | cons part others =>
            refine ⟨(first :: part) :: others, last, ?_, ?_⟩
            · rw [splitOn, if_neg hfirst, hrest]
              rfl
            · rw [List.cons_append, splitOn, if_neg hfirst, hjoined]
              rfl

theorem join_cons_cons (part next : Text) (rest : List Text) :
    join [separator] (part :: next :: rest) =
      part ++ separator :: join [separator] (next :: rest) := by
  simp [join, List.intercalate, List.intersperse]

theorem splitOn_join {parts : List Text} (hparts : parts ≠ []) :
    splitOn separator (join [separator] parts) = parts.flatMap (splitOn separator) := by
  induction parts with
  | nil => exact absurd rfl hparts
  | cons part rest ih =>
      cases rest with
      | nil => simp [join, List.intercalate]
      | cons next rest =>
          rw [join_cons_cons, splitOn_append_separator, ih (List.cons_ne_nil _ _)]
          rfl

theorem join_splitOn (text : Text) : join [separator] (splitOn separator text) = text := by
  induction text with
  | nil => rfl
  | cons first rest ih =>
      by_cases hfirst : first = separator
      · obtain ⟨part, parts, hparts⟩ := List.exists_cons_of_ne_nil (splitOn_ne_nil separator rest)
        rw [hparts] at ih
        rw [splitOn, if_pos hfirst, hparts, join_cons_cons, ih, hfirst]
        rfl
      · obtain ⟨part, parts, hparts, hcons⟩ := splitOn_cons_of_ne hfirst rest
        rw [hparts] at ih
        rw [hcons]
        cases parts with
        | nil =>
            rw [← ih]
            simp [join, List.intercalate]
        | cons next parts =>
            rw [join_cons_cons] at ih
            rw [join_cons_cons, List.cons_append, ih]

/-- Only a separator at the beginning leaves an empty first part. -/
theorem head?_of_head?_splitOn {text : Text} (htext : text ≠ [])
    (hhead : (splitOn separator text).head? = some []) : text.head? = some separator := by
  cases text with
  | nil => exact absurd rfl htext
  | cons first rest =>
      by_cases hfirst : first = separator
      · rw [hfirst, List.head?_cons]
      · obtain ⟨part, parts, -, hcons⟩ := splitOn_cons_of_ne hfirst rest
        rw [hcons] at hhead
        cases hhead

/-- Only a separator at the end leaves an empty last part. -/
theorem getLast?_of_getLast?_splitOn {text : Text} (htext : text ≠ [])
    (hlast : (splitOn separator text).getLast? = some []) : text.getLast? = some separator := by
  induction text with
  | nil => exact absurd rfl htext
  | cons first rest ih =>
      by_cases hrest : rest = []
      · subst hrest
        by_cases hfirst : first = separator
        · rw [hfirst, List.getLast?_singleton]
        · simp [splitOn, hfirst] at hlast
      · have hlast' : (splitOn separator rest).getLast? = some [] := by
          by_cases hfirst : first = separator
          · rwa [splitOn, if_pos hfirst,
              List.getLast?_cons_of_ne_nil (splitOn_ne_nil separator rest)] at hlast
          · obtain ⟨part, parts, hparts, hcons⟩ := splitOn_cons_of_ne hfirst rest
            rw [hcons] at hlast
            cases parts with
            | nil => simp at hlast
            | cons next parts => rwa [hparts]
        rw [List.getLast?_cons_of_ne_nil hrest]
        exact ih hrest hlast'

end KitTemplate.Text
