import KitTemplate.Message.Layout
import KitTemplate.Rounding

/-! Numbers in a message. A whole number is written in one of four bases or as the character of that
code; written with a point, or with an exponent, it is first rounded to double precision. Digits may
stand in groups, and zeros that fill a number up belong to its digits and are grouped with them. -/

namespace KitTemplate.Message

/-- A number as it is written but for its width: its sign, the mark of its base, its digits, and
what follows these. -/
structure Numeral where
  negative : Bool := false
  lead : Text := []
  digits : Text := []
  tail : Text := []
deriving DecidableEq, Repr

/-- The digits in groups of a size counted from the right. -/
def grouped (separator : Char) (size : Nat) (digits : Text) : Text :=
  let count := digits.length
  digits.zipIdx.flatMap fun (digit, place) =>
    let following := count - (place + 1)
    if following ≠ 0 ∧ following % size = 0 then [digit, separator] else [digit]

namespace Layout

/-- The size of the groups of digits. -/
def groupSize (layout : Layout) : Nat := if layout.type ∈ ['b', 'o', 'x', 'X'] then 4 else 3

def signOf (layout : Layout) (negative : Bool) : Text :=
  match negative, layout.sign with
  | true, _ => ['-']
  | false, some .plus => ['+']
  | false, some .space => [' ']
  | false, _ => []

/-- The digits with as many zeros before them as take up the room together with the separators. -/
def zeroFilled (layout : Layout) (room : Nat) (digits : Text) : Text :=
  let count := if layout.separator.isSome then room - (room - 1) / (layout.groupSize + 1) else room
  List.replicate (count - digits.length) '0' ++ digits

def arrangeNumeral (layout : Layout) (numeral : Numeral) : Except Problem Text :=
  let lead := layout.signOf numeral.negative ++ numeral.lead
  let width := layout.width.getD 0
  if mostRoom < width then .error .tooWide
  else
    let digits :=
      if layout.fill = '0' ∧ layout.alignment = .split ∧ numeral.digits ≠ [] then
        layout.zeroFilled (width - (lead.length + numeral.tail.length)) numeral.digits
      else numeral.digits
    let digits :=
      match layout.separator with
      | some separator => grouped separator layout.groupSize digits
      | none => digits
    layout.arrange lead (digits ++ numeral.tail)

end Layout

/-- The base of a type of notation, and the mark of the base. -/
def baseOf : Char → Nat × Text
  | 'b' => (2, ['0', 'b'])
  | 'o' => (8, ['0', 'o'])
  | 'x' => (16, ['0', 'x'])
  | 'X' => (16, ['0', 'X'])
  | _ => (10, [])

/-- The character with a number as its code. -/
def characterNumeral (layout : Layout) (value : Int) : Except Problem Numeral :=
  if layout.sign.isSome then .error .signBeforeCharacter
  else if layout.alternative then .error .alternativeCharacter
  else if value < -Int.pow 2 63 ∨ Int.pow 2 63 ≤ value then .error .tooLargeForCharacter
  else if value < 0 ∨ 0x10FFFF < value then .error .notCharacter
  else .ok { tail := [.ofNat value.toNat] }

def wholeNumeral (layout : Layout) (value : Int) : Except Problem Numeral :=
  if layout.precision.isSome then .error .preciseWhole
  else if layout.zeroSign then .error .zeroSignBeforeWhole
  else if layout.type = 'c' then characterNumeral layout value
  else
    let (base, mark) := baseOf layout.type
    let digits := Nat.toDigits base value.natAbs
    .ok {
      negative := value < 0
      lead := if layout.alternative then mark else []
      digits := if layout.type = 'X' then digits.map Char.toUpper else digits }

/-- So many leading digits of a number, rounded, and the exponent of the first of them. -/
def leadingDigits (count value : Nat) : Text × Nat :=
  let digits := Text.ofNat value
  if digits.length ≤ count then
    (digits ++ List.replicate (count - digits.length) '0', digits.length - 1)
  else
    let rounded := Text.ofNat (Rounding.nearest value (Nat.pow 10 (digits.length - count)))
    (rounded.take count, digits.length - 1 + (rounded.length - count))

/-- A fraction after its point, which is left out before no digit unless it must be shown. -/
def pointed (shown : Bool) (fraction : Text) : Text :=
  if fraction = [] ∧ !shown then [] else '.' :: fraction

def exponentMark (exponent : Nat) : Text :=
  ['e', '+'] ++ (if exponent < 10 then ['0'] else []) ++ Text.ofNat exponent

/-- The digits of a number of double precision and what follows them, without an exponent. -/
def fixedNotation (layout : Layout) (precision value : Nat) : Text × Text :=
  (Text.ofNat value, pointed layout.alternative (List.replicate precision '0'))

def scientificNotation (layout : Layout) (precision value : Nat) : Text × Text :=
  let (digits, exponent) := leadingDigits (precision + 1) value
  (digits.take 1, pointed layout.alternative (digits.drop 1) ++ exponentMark exponent)

/-- The shorter of both notations. Zeros at the end of a fraction are left out unless the layout is
the alternative one. -/
def generalNotation (layout : Layout) (precision value : Nat) : Text × Text :=
  let count := max precision 1
  let (digits, exponent) := leadingDigits count value
  let fraction (digits : Text) : Text :=
    pointed layout.alternative
      (if layout.alternative then digits else Text.trimRight (· = '0') digits)
  if exponent < count then (digits.take (exponent + 1), fraction (digits.drop (exponent + 1)))
  else (digits.take 1, fraction (digits.drop 1) ++ exponentMark exponent)

/-- The least number that double precision does not reach. -/
def doubleBound : Nat := Nat.pow 2 1024

/-- The largest precision of a number with a point. -/
def mostPrecise : Nat := Nat.pow 2 31 - 1

def doubleNumeral (layout : Layout) (value : Int) : Except Problem Numeral :=
  let size := Rounding.toDouble value.natAbs
  let precision := layout.precision.getD 6
  if doubleBound ≤ size then .error .tooLargeForDouble
  else if mostPrecise < precision then .error .tooPrecise
  else
    let negative : Bool := value < 0
    let (digits, tail) :=
      match layout.type.toLower with
      | 'e' => scientificNotation layout precision size
      | 'g' => generalNotation layout precision size
      | '%' =>
        let hundredfold := Rounding.toDouble (size * 100)
        if doubleBound ≤ hundredfold then ([], "inf%".toList)
        else
          let (digits, tail) := fixedNotation layout precision hundredfold
          (digits, tail ++ ['%'])
      | _ => fixedNotation layout precision size
    .ok {
      negative, digits
      tail := if layout.type.isUpper then tail.map Char.toUpper else tail }

/-- A whole number in a layout. The kind is that of the value which stands for the number. -/
def renderWhole (kind : Text) (value : Int) (text : Text) : Except Problem Text := do
  let layout ← Layout.parse kind 'd' .right text
  if layout.type ∈ ['b', 'c', 'd', 'o', 'x', 'X', 'n'] then
    layout.arrangeNumeral (← wholeNumeral layout value)
  else if layout.type ∈ ['e', 'E', 'f', 'F', 'g', 'G', '%'] then
    layout.arrangeNumeral (← doubleNumeral layout value)
  else throw (.unknownType layout.type kind)

end KitTemplate.Message
