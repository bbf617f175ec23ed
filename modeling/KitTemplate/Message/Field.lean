import KitTemplate.Message.Problem
import KitTemplate.Text.Digit

/-! The form of a message with fields. A field stands between braces: the name of a value, parts of
that value after points or in brackets, a conversion after an exclamation mark and a layout after a
colon, all but the name optional. A brace that is meant as such is written twice. A message is read
as far as it is well-formed, so that what stands before a mistake can be looked at first. -/

namespace KitTemplate.Message

/-- A field, with the name of the value and its parts still in one text. -/
structure Field where
  subject : Text
  conversion : Option Char := none
  layout : Text := []
deriving DecidableEq, Repr

inductive Segment where
  | literal (text : Text)
  | field (field : Field)
  /-- The message cannot be read from here on. -/
  | broken (problem : Problem)
deriving DecidableEq, Repr

namespace Field

/-- What stands before the mark that ends the subject of a field, that mark, and what follows it.
Within brackets no character is such a mark. -/
def readSubject (bracketed : Bool) : Text → Except Problem (Text × Char × Text)
  | [] => .error .unclosedField
  | c :: rest =>
    if !bracketed && c = '\x7b' then .error .openingInName
    else if !bracketed && (c = '\x7d' || c = ':' || c = '!') then .ok ([], c, rest)
    else do
      let (subject, after) ← readSubject (if bracketed then c ≠ ']' else c = '[') rest
      return (c :: subject, after)

/-- What stands before the brace that closes a field, and what follows it. The layout may hold
fields, of which so many are open. -/
def readLayout (nested : Nat) : Text → Except Problem (Text × Text)
  | [] => .error .unclosedLayout
  | c :: rest =>
    if c = '\x7d' ∧ nested = 0 then .ok ([], rest)
    else do
      let nested := if c = '\x7b' then nested + 1 else if c = '\x7d' then nested - 1 else nested
      let (layout, after) ← readLayout nested rest
      return (c :: layout, after)

/-- The conversion and the layout of a field, and what follows the field. -/
def readConversion : Text → Except Problem (Char × Text × Text)
  | [] => .error .missingConversion
  | [_] => .error .unclosedLayout
  | conversion :: '\x7d' :: rest => .ok (conversion, [], rest)
  | conversion :: ':' :: rest => (readLayout 0 rest).map (conversion, ·)
  | _ => .error .unendedConversion

/-- The field after an opening brace, and what follows it. -/
def read (text : Text) : Except Problem (Field × Text) := do
  let (subject, mark, rest) ← readSubject false text
  if mark = '!' then
    let (conversion, layout, rest) ← readConversion rest
    return ({ subject, conversion := if conversion = '\x00' then none else conversion, layout },
      rest)
  else if mark = ':' then
    let (layout, rest) ← readLayout 0 rest
    return ({ subject, layout }, rest)
  else return ({ subject }, rest)

end Field

/-- The segments of a message of which at most `room` characters are read. -/
def segmentsWithin : (room : Nat) → Text → List Segment
  | 0, _ => []
  | _, [] => []
  | room + 1, c :: rest =>
    if c = '\x7b' ∨ c = '\x7d' then
      if rest.head? = some c then .literal [c] :: segmentsWithin room rest.tail
      else if c = '\x7d' then [.broken .loneClosing]
      else if rest = [] then [.broken .loneOpening]
      else
        match Field.read rest with
        | .error problem => [.broken problem]
        | .ok (field, after) => .field field :: segmentsWithin room after
    else .literal [c] :: segmentsWithin room rest

/-- The segments of a message. -/
def segments (text : Text) : List Segment := segmentsWithin text.length text

/-- One step from a value to a part of it. -/
inductive Part where
  | property (name : Text)
  | item (name : Text)
  | stray
deriving DecidableEq, Repr

/-- The steps that a subject takes after its name. -/
def parts : (room : Nat) → Text → List Part
  | 0, _ => []
  | _, [] => []
  | room + 1, '.' :: rest =>
    let (name, after) := rest.span fun c => c ≠ '.' && c ≠ '['
    .property name :: parts room after
  | room + 1, '[' :: rest =>
    let (name, after) := rest.span (· ≠ ']')
    .item name :: parts room after.tail
  | _, _ => [.stray]

namespace Field

/-- The name of the value that a field shows, or of one that it shows a part of. -/
def name (field : Field) : Text := field.subject.takeWhile fun c => c ≠ '.' && c ≠ '['

/-- The steps from that value to the part shown. -/
def path (field : Field) : List Part :=
  parts field.subject.length (field.subject.dropWhile fun c => c ≠ '.' && c ≠ '[')

/-- Whether the layout holds fields of its own. -/
def hasNested (field : Field) : Bool := field.layout.contains '\x7b'

end Field

/-- The largest number that a message may hold. -/
def largest : Nat := Nat.pow 2 63 - 1

/-- The number that a text begins with, if it begins with a digit, and what follows it. The number
`size` is the one written by the digits before, if there are any. -/
def readNumber (size : Option Nat) : Text → Except Problem (Option Nat × Text)
  | [] => .ok (size, [])
  | c :: rest =>
    match Text.digitValue? c with
    | none => .ok (size, c :: rest)
    | some digit =>
      let size := size.getD 0 * 10 + digit
      if largest < size then .error .tooManyDigits else readNumber (some size) rest

/-- The number that a name is, if it is one. -/
def place? (name : Text) : Except Problem (Option Nat) := do
  let (place, rest) ← readNumber none name
  return if rest = [] then place else none

end KitTemplate.Message
