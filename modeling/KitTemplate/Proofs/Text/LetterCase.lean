import KitTemplate.Text.LowerCase

/-! Words in any letter case. A text whose small letters are ASCII characters is their letter by
letter, since the rules for single letters beyond ASCII yield characters beyond ASCII
(`map_smallLetter_of_lowerCase`). But for the Kelvin sign, whose small letter is k, only an ASCII
letter has an ASCII letter as its small letter (`toNat_lt_of_smallLetter`), so a word without a k is
found in the same places by the rules of ASCII alone (`isPrefix_map_smallLetter_iff`). -/

namespace KitTemplate.Text

/-- A capital letter beyond ASCII has a small letter beyond ASCII, or it is the Kelvin sign. -/
def CaseTable.Run.StaysBeyond (run : CaseTable.Run) : Prop :=
  run.last < 128 ∨ 128 ≤ run.small ∨ run.first = run.last ∧ run.small = 'k'.toNat

theorem CaseTable.staysBeyond : ∀ run ∈ CaseTable.capitals, run.StaysBeyond := by
  unfold CaseTable.Run.StaysBeyond
  decide +kernel

/-- An ASCII character other than k. -/
def IsPlainLatin (c : Char) : Prop := 0 < c.toNat ∧ c.toNat < 128 ∧ c ≠ 'k'

instance (c : Char) : Decidable (IsPlainLatin c) :=
  inferInstanceAs (Decidable (0 < c.toNat ∧ c.toNat < 128 ∧ c ≠ 'k'))

/-- A code point gives the character of that code point, or a null character if it is none. -/
theorem toNat_ofNat (code : Nat) :
    (Char.ofNat code).toNat = code ∨ (Char.ofNat code).toNat = 0 := by
  rw [Char.ofNat]
  by_cases hcode : code.isValidChar
  · exact Or.inl (by rw [dif_pos hcode]; rfl)
  · exact Or.inr (by rw [dif_neg hcode]; rfl)

variable {c : Char}

theorem toNat_lt_of_smallLetter (hsmall : IsPlainLatin (smallLetter c)) : c.toNat < 128 := by
  rcases Nat.lt_or_ge c.toNat 128 with hcode | hcode
  · exact hcode
  obtain ⟨hpos, hlt, hkelvin⟩ := hsmall
  simp only [smallLetter, if_neg (Nat.not_lt.2 hcode)] at hpos hlt hkelvin
  split at hpos
  · rename_i run hrun
    rw [hrun] at hlt hkelvin
    dsimp only at hlt hkelvin
    have hcovers := List.find?_some hrun
    simp only [Bool.and_eq_true, decide_eq_true_eq] at hcovers
    rcases toNat_ofNat (run.small + (c.toNat - run.first)) with hnat | hnat
    · rcases CaseTable.staysBeyond run (List.mem_of_find?_eq_some hrun) with
        hlast | hbeyond | ⟨hsingle, hk⟩
      · omega
      · omega
      · have hsame : run.small + (c.toNat - run.first) = 'k'.toNat := by omega
        rw [hsame] at hkelvin
        exact absurd rfl hkelvin
    · omega
  · rename_i hnone
    rw [hnone] at hlt
    exact hlt

theorem smallLetter_of_lt (hcode : c.toNat < 128) :
    smallLetter c = if 65 ≤ c.toNat ∧ c.toNat ≤ 90 then Char.ofNat (c.toNat + 32) else c := by
  simp only [smallLetter, if_pos hcode]

theorem smallLetter_eq_toLower (hcode : c.toNat < 128) : smallLetter c = c.toLower := by
  have hletters : ∀ code < 128, smallLetter (Char.ofNat code) = (Char.ofNat code).toLower := by
    decide +kernel
  simpa [Char.ofNat_toNat] using hletters c.toNat hcode

theorem toLower_of_le (hcode : 128 ≤ c.toNat) : c.toLower = c := by
  refine dif_neg fun hcapital => ?_
  have hupper : c.toNat ≤ 90 := UInt32.le_iff_toNat_le.1 hcapital.2
  omega

/-- Only the rules of ASCII lead to a plain small letter. -/
theorem smallLetter_eq_iff {letter : Char} (hletter : IsPlainLatin letter) :
    smallLetter c = letter ↔ c.toLower = letter := by
  rcases Nat.lt_or_ge c.toNat 128 with hcode | hcode
  · rw [smallLetter_eq_toLower hcode]
  · rw [toLower_of_le hcode]
    refine iff_of_false (fun hsmall => ?_) fun hsame => ?_
    · have hlt := toNat_lt_of_smallLetter (hsmall ▸ hletter)
      omega
    · have hlt := hletter.2.1
      rw [hsame] at hcode
      omega

theorem isPrefix_map_smallLetter_iff {letters text : Text}
    (hletters : ∀ letter ∈ letters, IsPlainLatin letter) :
    letters <+: text.map smallLetter ↔ letters <+: text.map Char.toLower := by
  induction letters generalizing text with
  | nil => simp
  | cons letter letters ih =>
      obtain ⟨hletter, hrest⟩ := List.forall_mem_cons.1 hletters
      cases text with
      | nil => simp
      | cons c rest =>
          rw [List.map_cons, List.map_cons, List.cons_prefix_cons, List.cons_prefix_cons, ih hrest,
            eq_comm, smallLetter_eq_iff hletter, eq_comm]

/-- A character with a plain small letter is that letter itself or an ASCII letter. -/
theorem cases_of_smallLetter (hsmall : IsPlainLatin (smallLetter c)) :
    smallLetter c = c ∨ c.isAlpha ∧ (smallLetter c).isAlpha := by
  rw [smallLetter_of_lt (toNat_lt_of_smallLetter hsmall)]
  split
  · rename_i hupper
    have hletters : ∀ code ≤ 90, 65 ≤ code →
      (Char.ofNat code).isAlpha ∧ (Char.ofNat (code + 32)).isAlpha := by decide
    have hletter := hletters c.toNat hupper.2 hupper.1
    rw [Char.ofNat_toNat] at hletter
    exact Or.inr hletter
  · exact Or.inl rfl

/-- A text with small letters that are plain is a word in any letter case. -/
theorem map_smallLetter_of_lowerCase {text : Text} (htext : ∀ l ∈ text.lowerCase, IsPlainLatin l) :
    text.map smallLetter = text.lowerCase := by
  suffices hafter : ∀ before, (∀ l ∈ lowerCaseAfter before text, IsPlainLatin l) →
      text.map smallLetter = lowerCaseAfter before text from hafter [] htext
  clear htext
  induction text with
  | nil => exact fun _ _ => rfl
  | cons c rest ih =>
      intro before hplain
      rw [lowerCaseAfter] at hplain ⊢
      rw [List.forall_mem_append] at hplain
      by_cases hsigma : c = 'Σ'
      · -- both small letters of a sigma are beyond ASCII
        have hfirst := hplain.1
        rw [if_pos hsigma] at hfirst
        have hsmall := hfirst _ (List.mem_singleton_self _)
        split at hsmall
        · exact absurd hsmall (by decide)
        · exact absurd hsmall (by decide)
      by_cases hdotted : c = 'İ'
      · have hfirst := hplain.1
        rw [if_neg hsigma, if_pos hdotted] at hfirst
        exact absurd (hfirst '\u0307' (by simp)) (by decide)
      · rw [if_neg hsigma, if_neg hdotted, List.map_cons, ih _ hplain.2]
        rfl

end KitTemplate.Text
