import KitTemplate.Text.Lines

/-! Counting line terminators. The count by substrings is the count from left to right, and the
counts of two texts add up unless a pair of carriage return and line feed is cut between them. -/

namespace KitTemplate.Text

/-- Whether two texts meet inside a pair of carriage return and line feed. -/
def CutsPair (before after : Text) : Prop :=
  before.getLast? = some '\r' ∧ after.head? = some '\n'

/-- A character that does not begin a pair is counted by itself. -/
theorem scanLineBreaks_cons {first : Char} {rest : Text}
    (hpair : first = '\r' → rest.head? ≠ some '\n') :
    scanLineBreaks (first :: rest) =
      scanLineBreaks rest + if first = '\n' ∨ first = '\r' then 1 else 0 := by
  rw [scanLineBreaks]
  rintro after rfl rfl
  exact hpair rfl rfl

theorem countPairs_cons {first : Char} {rest : Text}
    (hpair : first = '\r' → rest.head? ≠ some '\n') :
    countPairs (first :: rest) = countPairs rest := by
  rw [countPairs]
  rintro after rfl rfl
  exact hpair rfl rfl

/-- Carriage returns and line feeds are counted once each, but a pair of them once less. -/
theorem scanLineBreaks_add_countPairs (text : Text) :
    scanLineBreaks text + countPairs text = text.count '\n' + text.count '\r' := by
  fun_induction scanLineBreaks text with
  | case1 rest ih =>
      rw [countPairs]
      simp only [List.count_cons]
      simp
      omega
  | case2 first rest hpair ih =>
      have hpair' : first = '\r' → rest.head? ≠ some '\n' := by
        intro hfirst hrest
        obtain ⟨after, rfl⟩ := List.head?_eq_some_iff.1 hrest
        exact hpair after hfirst rfl
      rw [countPairs_cons hpair', List.count_cons, List.count_cons]
      by_cases hfeed : first = '\n'
      · simp [hfeed]
        omega
      · by_cases hreturn : first = '\r'
        · simp [hreturn]
          omega
        · simp [hfeed, hreturn]
          omega
  | case3 => rfl

theorem lineBreaks_eq_scanLineBreaks (text : Text) : lineBreaks text = scanLineBreaks text := by
  have hsum := scanLineBreaks_add_countPairs text
  unfold lineBreaks
  omega

theorem scanLineBreaks_append {before after : Text} (hcut : ¬ CutsPair before after) :
    scanLineBreaks (before ++ after) = scanLineBreaks before + scanLineBreaks after := by
  fun_induction scanLineBreaks before with
  | case1 rest ih =>
      have hrest : ¬ CutsPair rest after := by
        rintro ⟨hlast, hhead⟩
        refine hcut ⟨?_, hhead⟩
        rw [List.getLast?_cons, List.getLast?_cons, hlast]
        rfl
      simp only [List.cons_append, scanLineBreaks, ih hrest]
      omega
  | case2 first rest hpair ih =>
      have hpair' : first = '\r' → (rest ++ after).head? ≠ some '\n' := by
        rintro rfl hhead
        cases rest with
        | nil => exact hcut ⟨rfl, hhead⟩
        | cons next rest => exact hpair rest rfl (by rw [Option.some.inj hhead])
      have hrest : ¬ CutsPair rest after := by
        rintro ⟨hlast, hhead⟩
        refine hcut ⟨?_, hhead⟩
        rw [List.getLast?_cons, hlast]
        rfl
      rw [List.cons_append, scanLineBreaks_cons hpair', ih hrest]
      omega
  | case3 => simp

theorem scanLineBreaks_of_not_mem {text : Text} (hfeed : '\n' ∉ text) (hreturn : '\r' ∉ text) :
    scanLineBreaks text = 0 := by
  induction text with
  | nil => rfl
  | cons first rest ih =>
      rw [List.mem_cons, not_or] at hfeed hreturn
      rw [scanLineBreaks_cons fun hfirst => absurd hfirst.symm hreturn.1, ih hfeed.2 hreturn.2,
        if_neg (not_or.2 ⟨Ne.symm hfeed.1, Ne.symm hreturn.1⟩)]

theorem lineBreaks_append {before after : Text} (hcut : ¬ CutsPair before after) :
    lineBreaks (before ++ after) = lineBreaks before + lineBreaks after := by
  simp only [lineBreaks_eq_scanLineBreaks, scanLineBreaks_append hcut]

/-- Text without a line terminator adds none to the text behind it. -/
theorem lineBreaks_append_left {before : Text} (hbefore : '\n' ∉ before ∧ '\r' ∉ before)
    (after : Text) : lineBreaks (before ++ after) = lineBreaks after := by
  have hcut : ¬ CutsPair before after := fun ⟨hlast, _⟩ =>
    hbefore.2 (List.mem_of_mem_getLast? hlast)
  rw [lineBreaks_append hcut, lineBreaks_eq_scanLineBreaks before,
    scanLineBreaks_of_not_mem hbefore.1 hbefore.2, Nat.zero_add]

/-- Text without a line terminator adds none to the text in front of it. -/
theorem lineBreaks_append_right {after : Text} (hafter : '\n' ∉ after ∧ '\r' ∉ after)
    (before : Text) : lineBreaks (before ++ after) = lineBreaks before := by
  have hcut : ¬ CutsPair before after := fun ⟨_, hhead⟩ =>
    hafter.1 (List.mem_of_mem_head? hhead)
  rw [lineBreaks_append hcut, lineBreaks_eq_scanLineBreaks after,
    scanLineBreaks_of_not_mem hafter.1 hafter.2, Nat.add_zero]

end KitTemplate.Text
