/-! Rounding of natural numbers: a quotient to the nearest whole number, and a number to as many
binary digits as a number of double precision has. What lies halfway goes to the even neighbour. -/

namespace KitTemplate.Rounding

/-- The whole number nearest to a quotient. -/
def nearest (numerator denominator : Nat) : Nat :=
  let quotient := numerator / denominator
  let excess := 2 * (numerator % denominator)
  if excess < denominator ∨ (excess = denominator ∧ quotient % 2 = 0) then quotient
  else quotient + 1

/-- The binary digits of a number of double precision. -/
def precision : Nat := 53

/-- The number of double precision nearest to a number. -/
def toDouble (value : Nat) : Nat :=
  let unit := Nat.pow 2 (value.log2 + 1 - precision)
  nearest value unit * unit

/-- A number of double precision is what it is rounded to. -/
theorem toDouble_of_lt {value : Nat} (hlt : value < Nat.pow 2 precision) :
    toDouble value = value := by
  have hlog : value.log2 + 1 - precision = 0 := by
    by_cases hzero : value = 0
    · subst hzero
      decide
    · have := (Nat.log2_lt hzero).2 hlt
      omega
  simp [toDouble, nearest, hlog, Nat.mod_one]

end KitTemplate.Rounding
