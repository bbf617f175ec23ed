import KitTemplate.Message.Field

/-! Layouts of the values in a message: the characters that fill up a value to a width, the side on
which they stand, the sign, the separators between groups of digits, the precision and the type of
notation. Each part is optional, and the parts have one order. -/

namespace KitTemplate.Message

/-- Where a value stands among the characters that fill it up. -/
inductive Alignment where
  | left
  | right
  | center
  /-- The sign stands to the left of the fill and the digits to the right. -/
  | split
deriving DecidableEq, Repr

/-- How a number that is not negative shows its sign. -/
inductive SignStyle where
  | bare
  | plus
  | space
deriving DecidableEq, Repr

structure Layout where
  fill : Char := ' '
  alignment : Alignment
  sign : Option SignStyle := none
  /-- Whether a zero never shows a sign. -/
  zeroSign : Bool := false
  /-- Whether the notation is the longer of two. -/
  alternative : Bool := false
  width : Option Nat := none
  separator : Option Char := none
  precision : Option Nat := none
  type : Char
deriving DecidableEq, Repr

def Alignment.ofMark? : Char → Option Alignment
  | '<' => some .left
  | '>' => some .right
  | '^' => some .center
  | '=' => some .split
  | _ => none

def SignStyle.ofMark? : Char → Option SignStyle
  | '-' => some .bare
  | '+' => some .plus
  | ' ' => some .space
  | _ => none

namespace Layout

/-- The fill and the alignment that a layout begins with, and what follows them. -/
def readAlignment (text : Text) : Option Char × Option Alignment × Text :=
  let plain :=
    match text with
    | mark :: rest =>
      match Alignment.ofMark? mark with
      | some alignment => (none, some alignment, rest)
      | none => (none, none, text)
    | [] => (none, none, text)
  match text with
  | fill :: mark :: rest =>
    match Alignment.ofMark? mark with
    | some alignment => (some fill, some alignment, rest)
    | none => plain
  | _ => plain

def readSign (text : Text) : Option SignStyle × Text :=
  match text.head?.bind SignStyle.ofMark? with
  | some sign => (some sign, text.tail)
  | none => (none, text)

/-- Whether a text begins with a mark, and what follows the mark. -/
def readMark (mark : Char) (text : Text) : Bool × Text :=
  if text.head? = some mark then (true, text.tail) else (false, text)

def readSeparator (text : Text) : Except Problem (Option Char × Text) :=
  match text with
  | ',' :: '_' :: _ | '_' :: ',' :: _ => .error .bothSeparators
  | ',' :: rest => .ok (some ',', rest)
  | '_' :: rest => .ok (some '_', rest)
  | _ => .ok (none, text)

def readPrecision (text : Text) : Except Problem (Option Nat × Text) :=
  match text with
  | '.' :: rest => do
    let (precision, rest) ← readNumber none rest
    if precision.isNone then throw .missingPrecision else return (precision, rest)
  | _ => .ok (none, text)

/-- Whether digits may be grouped in a notation, also where it is one that no value has. -/
def allowsSeparator (separator type : Char) : Bool :=
  type ∈ ['d', 'e', 'f', 'g', 'E', 'G', '%', 'F', '\x00'] ||
    (separator = '_' && type ∈ ['b', 'o', 'x', 'X'])

/-- The layout that a text describes, for a value of a kind that goes by a type of notation and by
an alignment if the text tells none. -/
def parse (kind : Text) (type : Char) (alignment : Alignment) (text : Text) :
    Except Problem Layout := do
  let (fill, given, rest) := readAlignment text
  let (sign, rest) := readSign rest
  let (zeroSign, rest) := readMark 'z' rest
  let (alternative, rest) := readMark '#' rest
  let (padded, rest) := if fill.isNone then readMark '0' rest else (false, rest)
  let splits := padded && given.isNone && alignment = .right
  let (width, rest) ← readNumber none rest
  let (separator, rest) ← readSeparator rest
  let (precision, rest) ← readPrecision rest
  let type ← match rest with
    | [] => pure type
    | [type] => pure type
    | _ => throw (.malformedLayout text kind)
  if let some separator := separator then
    if !allowsSeparator separator type then throw (.unsuitedSeparator separator type)
  return {
    fill := if padded then '0' else fill.getD ' '
    alignment := if splits then .split else given.getD alignment
    sign, zeroSign, alternative, width, separator, precision, type }

/-- The widths that can be filled up. -/
def mostRoom : Nat := Nat.pow 2 40

/-- A value between the characters that fill it up to the width. What stands before the fill where
the alignment splits the value is `lead`. -/
def arrange (layout : Layout) (lead value : Text) : Except Problem Text :=
  let width := layout.width.getD 0
  let missing := width - (lead.length + value.length)
  let filling (count : Nat) : Text := List.replicate count layout.fill
  if mostRoom < width then .error .tooWide
  else
    match layout.alignment with
    | .left => .ok (lead ++ value ++ filling missing)
    | .right => .ok (filling missing ++ lead ++ value)
    | .center => .ok (filling (missing / 2) ++ lead ++ value ++ filling (missing - missing / 2))
    | .split => .ok (lead ++ filling missing ++ value)

end Layout

end KitTemplate.Message
