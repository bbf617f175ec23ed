import KitTemplate.Rounding

/-! Rounding errors and the order of rounded numbers. Rounding moves a number by half a unit of its
last digit at most (`toDouble_error`), and it keeps the order of numbers (`toDouble_mono`): numbers
of one size are rounded at the same digit, and a power of two that stands between two numbers still
does when they are rounded. -/

namespace KitTemplate.Rounding

/-- A rounded quotient is off by one half at most. -/
theorem nearest_error (numerator : Nat) {denominator : Nat} (hpos : 0 < denominator) :
    2 * (nearest numerator denominator * denominator) ≤ 2 * numerator + denominator ∧
      2 * numerator ≤ 2 * (nearest numerator denominator * denominator) + denominator := by
  have hsplit := Nat.div_add_mod' numerator denominator
  have hlt := Nat.mod_lt numerator hpos
  rw [nearest]
  split
  · omega
  · rw [Nat.add_one_mul (numerator / denominator)]
    omega

theorem nearest_mul (quotient : Nat) {denominator : Nat} (hpos : 0 < denominator) :
    nearest (quotient * denominator) denominator = quotient := by
  rw [nearest, Nat.mul_div_cancel quotient hpos, Nat.mul_mod_left]
  exact if_pos (Or.inl hpos)

theorem nearest_mono {numerator numerator' denominator : Nat} (hle : numerator ≤ numerator') :
    nearest numerator denominator ≤ nearest numerator' denominator := by
  have hquotient : numerator / denominator ≤ numerator' / denominator :=
    Nat.div_le_div_right hle
  have hsplit := Nat.div_add_mod' numerator denominator
  have hsplit' := Nat.div_add_mod' numerator' denominator
  rw [nearest, nearest]
  rcases Nat.lt_or_eq_of_le hquotient with hlt | heq
  · split <;> split <;> omega
  · rw [heq] at hsplit ⊢
    split <;> split <;> omega

/-- The unit at which a number is rounded to double precision. -/
theorem toDouble_eq (value : Nat) :
    toDouble value = nearest value (Nat.pow 2 (value.log2 + 1 - precision)) *
      Nat.pow 2 (value.log2 + 1 - precision) := rfl

/-- A number is not rounded beyond the powers of two below and above it. -/
theorem toDouble_bounds {value : Nat} (hvalue : value ≠ 0) :
    Nat.pow 2 value.log2 ≤ toDouble value ∧ toDouble value ≤ Nat.pow 2 (value.log2 + 1) := by
  have hbelow : Nat.pow 2 value.log2 ≤ value := Nat.log2_self_le hvalue
  have habove : value ≤ Nat.pow 2 (value.log2 + 1) := Nat.le_of_lt Nat.lt_log2_self
  by_cases hdigits : value.log2 + 1 ≤ precision
  · have hlt : value < Nat.pow 2 precision :=
      Nat.lt_of_lt_of_le Nat.lt_log2_self (Nat.pow_le_pow_right (by decide) hdigits)
    rw [toDouble_of_lt hlt]
    exact ⟨hbelow, habove⟩
  · obtain ⟨more, hmore⟩ : ∃ more, value.log2 + 1 = precision + more :=
      ⟨value.log2 + 1 - precision, by omega⟩
    have hunit : 0 < Nat.pow 2 more := Nat.pow_pos (by decide)
    have hlow : Nat.pow 2 value.log2 = Nat.pow 2 52 * Nat.pow 2 more := by
      rw [show value.log2 = 52 + more by rw [precision] at hmore; omega]
      exact Nat.pow_add 2 52 more
    have hhigh : Nat.pow 2 (value.log2 + 1) = Nat.pow 2 precision * Nat.pow 2 more := by
      rw [hmore]
      exact Nat.pow_add 2 precision more
    rw [toDouble_eq, show value.log2 + 1 - precision = more by omega]
    rw [hlow] at hbelow ⊢
    rw [hhigh] at habove ⊢
    refine ⟨Nat.mul_le_mul_right _ ?_, Nat.mul_le_mul_right _ ?_⟩
    · calc Nat.pow 2 52 = nearest (Nat.pow 2 52 * Nat.pow 2 more) (Nat.pow 2 more) :=
          (nearest_mul _ hunit).symm
        _ ≤ nearest value (Nat.pow 2 more) := nearest_mono hbelow
    · calc nearest value (Nat.pow 2 more) ≤
          nearest (Nat.pow 2 precision * Nat.pow 2 more) (Nat.pow 2 more) := nearest_mono habove
        _ = Nat.pow 2 precision := nearest_mul _ hunit

theorem toDouble_mono {value value' : Nat} (hle : value ≤ value') :
    toDouble value ≤ toDouble value' := by
  by_cases hzero : value = 0
  · rw [hzero]
    exact Nat.zero_le _
  have hzero' : value' ≠ 0 := by omega
  have hlog : value.log2 ≤ value'.log2 :=
    (Nat.le_log2 hzero').2 (Nat.le_trans (Nat.log2_self_le hzero) hle)
  rcases Nat.lt_or_eq_of_le hlog with hlt | heq
  · have hpow : Nat.pow 2 (value.log2 + 1) ≤ Nat.pow 2 value'.log2 :=
      Nat.pow_le_pow_right (by decide) hlt
    exact Nat.le_trans (toDouble_bounds hzero).2 (Nat.le_trans hpow (toDouble_bounds hzero').1)
  · rw [toDouble_eq, toDouble_eq, heq]
    exact Nat.mul_le_mul_right _ (nearest_mono hle)

/-- What keeps the order of numbers keeps that of their opposites as well. -/
theorem signed_mono {change : Nat → Nat}
    (hchange : ∀ {value value'}, value ≤ value' → change value ≤ change value') {first second : Int}
    (hle : first ≤ second) :
    first.sign * change first.natAbs ≤ second.sign * change second.natAbs := by
  rcases Int.lt_trichotomy first 0 with hneg | rfl | hpos
  · rw [Int.sign_eq_neg_one_of_neg hneg]
    rcases Int.lt_trichotomy second 0 with hneg' | rfl | hpos'
    · have hsize : change second.natAbs ≤ change first.natAbs := hchange (by omega)
      rw [Int.sign_eq_neg_one_of_neg hneg']
      omega
    · rw [Int.sign_zero]
      omega
    · rw [Int.sign_eq_one_of_pos hpos']
      omega
  · rw [Int.sign_zero, Int.zero_mul]
    rcases Int.lt_or_eq_of_le hle with hpos | rfl
    · rw [Int.sign_eq_one_of_pos hpos]
      omega
    · simp
  · have hsize : change first.natAbs ≤ change second.natAbs := hchange (by omega)
    rw [Int.sign_eq_one_of_pos hpos, Int.sign_eq_one_of_pos (by omega)]
    omega

/-- A number of some more digits than double precision has is rounded at these. -/
theorem toDouble_error {value digits : Nat} (hvalue : value < Nat.pow 2 (precision + digits)) :
    2 * toDouble value ≤ 2 * value + Nat.pow 2 digits ∧
      2 * value ≤ 2 * toDouble value + Nat.pow 2 digits := by
  have hunit : Nat.pow 2 (value.log2 + 1 - precision) ≤ Nat.pow 2 digits := by
    apply Nat.pow_le_pow_right (by decide)
    by_cases hzero : value = 0
    · rw [hzero, Nat.log2_zero]
      exact Nat.zero_le _
    · have := (Nat.log2_lt hzero).2 hvalue
      omega
  have hpos : 0 < Nat.pow 2 (value.log2 + 1 - precision) := Nat.pow_pos (by decide)
  rw [toDouble_eq]
  generalize Nat.pow 2 (value.log2 + 1 - precision) = unit at *
  obtain ⟨hle, hge⟩ := nearest_error value hpos
  omega

theorem signed_toDouble_error {value : Int} {digits : Nat}
    (hvalue : value.natAbs < Nat.pow 2 (precision + digits)) :
    2 * (value.sign * toDouble value.natAbs - value).natAbs ≤ Nat.pow 2 digits := by
  obtain ⟨hle, hge⟩ := toDouble_error hvalue
  rcases Int.lt_trichotomy value 0 with hneg | rfl | hpos
  · rw [Int.sign_eq_neg_one_of_neg hneg]
    omega
  · rw [Int.sign_zero, Int.zero_mul]
    exact Nat.zero_le _
  · rw [Int.sign_eq_one_of_pos hpos]
    omega

end KitTemplate.Rounding
