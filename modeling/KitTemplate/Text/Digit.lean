import KitTemplate.Text.DigitTable
import KitTemplate.Text.Basic

/-! Decimal digits of any script. A digit stands for its distance from the zero of its script. -/

namespace KitTemplate.Text

/-- The value of a digit. -/
def digitValue? (c : Char) : Option Nat :=
  (DigitTable.zeros.find? fun first => first ≤ c.toNat && c.toNat ≤ first + 9).map (c.toNat - ·)

def isDigit (c : Char) : Bool := (digitValue? c).isSome

end KitTemplate.Text
