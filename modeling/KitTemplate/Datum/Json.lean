import KitTemplate.Datum.Basic

/-! The JSON form of data values. The reader is strict about what it takes for a value: no trailing
comma, no control character in a string, nothing after the value, no whole number of more than 4300
digits, and no more than so many lists and tables inside one another. It also knows the three names
for numbers that are not finite. A half of a surrogate pair that lacks its other half is read as the
replacement character. -/

namespace KitTemplate

/-- Why a text is not read as JSON. -/
inductive JsonProblem where
  | malformed
  /-- A list or a table stands inside of too many others. -/
  | listTooDeep
  | tableTooDeep
deriving DecidableEq, Repr

def JsonProblem.message : JsonProblem → Text
  | malformed => "malformed JSON".toList
  | listTooDeep => tooDeep "array"
  | tableTooDeep => tooDeep "object"
where
  tooDeep (what : String) : Text :=
    "maximum recursion depth exceeded while decoding a JSON ".toList ++ what.toList ++
      " from a unicode string".toList

namespace Datum

def isJsonBlank (c : Char) : Bool := c = ' ' || c = '\t' || c = '\n' || c = '\r'

def skipBlanks (content : Text) : Text := content.dropWhile isJsonBlank

def hexValue? (c : Char) : Option Nat :=
  if '0' ≤ c ∧ c ≤ '9' then some (c.toNat - 48)
  else if 'a' ≤ c ∧ c ≤ 'f' then some (c.toNat - 87)
  else if 'A' ≤ c ∧ c ≤ 'F' then some (c.toNat - 55)
  else none

/-- The number written by four hexadecimal digits. -/
def unit? (a b c d : Char) : Option Nat := do
  return ((← hexValue? a) * 16 + (← hexValue? b)) * 256 + (← hexValue? c) * 16 + (← hexValue? d)

def simpleEscape? : Char → Option Char
  | '\x22' => some '\x22'
  | '\\' => some '\\'
  | '/' => some '/'
  | 'b' => some '\x08'
  | 'f' => some '\x0c'
  | 'n' => some '\n'
  | 'r' => some '\r'
  | 't' => some '\t'
  | _ => none

/-- The code points of a string after its opening quote, and what follows its closing quote. -/
def readString? : Text → Option (List Nat × Text)
  | [] => none
  | '\x22' :: rest => some ([], rest)
  | '\\' :: 'u' :: a :: b :: c :: d :: rest => do
    let code ← unit? a b c d
    let (codes, rest) ← readString? rest
    return (code :: codes, rest)
  | '\\' :: c :: rest => do
    let code := (← simpleEscape? c).toNat
    let (codes, rest) ← readString? rest
    return (code :: codes, rest)
  | c :: rest =>
    if c = '\\' ∨ c.toNat < 32 then none
    else do
      let (codes, rest) ← readString? rest
      return (c.toNat :: codes, rest)

/-- The text of some code points, where the two halves of a surrogate pair stand for one
character. -/
def joinPairs : List Nat → Text
  | [] => []
  | [code] => [character code]
  | high :: low :: rest =>
    if 0xD800 ≤ high ∧ high < 0xDC00 ∧ 0xDC00 ≤ low ∧ low < 0xE000 then
      .ofNat (0x10000 + (high - 0xD800) * 1024 + (low - 0xDC00)) :: joinPairs rest
    else character high :: joinPairs (low :: rest)
where
  /-- A code point that is no half of a pair, or else the replacement character. -/
  character (code : Nat) : Char :=
    if 0xD800 ≤ code ∧ code < 0xE000 then '\uFFFD' else .ofNat code

def digits (content : Text) : Text × Text := content.span Char.isDigit

/-- A point with digits, if a text begins so, and what follows. -/
def readPoint (content : Text) : Text × Text :=
  match content with
  | '.' :: rest =>
    match digits rest with
    | ([], _) => ([], content)
    | (decimals, rest) => ('.' :: decimals, rest)
  | _ => ([], content)

/-- The sign that a text may begin with, and what follows. -/
def readSign : Text → Text × Text
  | '+' :: rest => (['+'], rest)
  | '-' :: rest => (['-'], rest)
  | rest => ([], rest)

/-- An exponent, if a text begins with one, and what follows. -/
def readExponent (content : Text) : Text × Text :=
  match content with
  | c :: rest =>
    let (sign, unsigned) := readSign rest
    match digits unsigned with
    | ([], _) => ([], content)
    | (exponent, after) =>
      if c = 'e' ∨ c = 'E' then (c :: sign ++ exponent, after) else ([], content)
  | [] => ([], [])

/-- The digits that a whole number may have. -/
def mostDigits : Nat := 4300

def readNumber? (content : Text) : Option (Datum × Text) :=
  let (sign, unsigned) := match content with
    | '-' :: rest => (['-'], rest)
    | _ => ([], content)
  let (amount, rest) :=
    match unsigned with
    | '0' :: rest => (['0'], rest)
    | _ => digits unsigned
  if amount = [] then none
  else
    let (point, rest) := readPoint rest
    let (exponent, rest) := readExponent rest
    let size : Int := amount.foldl (fun size digit => size * 10 + (digit.toNat - 48)) 0
    if point ++ exponent ≠ [] then some (fraction (sign ++ amount ++ point ++ exponent), rest)
    else if mostDigits < amount.length then none
    else some (whole (if sign = [] then size else -size), rest)

/-- The names of values, and the values. -/
def names : List (Text × Datum) :=
  [("null".toList, null), ("true".toList, flag true), ("false".toList, flag false),
   ("NaN".toList, fraction "nan".toList), ("Infinity".toList, fraction "inf".toList),
   ("-Infinity".toList, fraction "-inf".toList)]

/-- How many lists and tables may stand inside one another. -/
def mostNested : Nat := 980

def orMalformed : Option α → Except JsonProblem α
  | some value => .ok value
  | none => .error .malformed

mutual

/-- The value that a text begins with, and what follows it. The text has at most `room` characters,
and the value stands inside of `depth` others. -/
def readValue : (room depth : Nat) → Text → Except JsonProblem (Datum × Text)
  | 0, _, _ => .error .malformed
  | room + 1, depth, content =>
    match content with
    | '\x22' :: rest => do
      let (codes, rest) ← orMalformed (readString? rest)
      return (text (joinPairs codes), rest)
    | '[' :: rest =>
      if mostNested ≤ depth then .error .listTooDeep
      else
        match skipBlanks rest with
        | ']' :: rest => .ok (list [], rest)
        | rest => do
          let (items, rest) ← readItems room (depth + 1) rest
          return (list items, rest)
    | '\x7b' :: rest =>
      if mostNested ≤ depth then .error .tableTooDeep
      else
        match skipBlanks rest with
        | '\x7d' :: rest => .ok (table [], rest)
        | rest => do
          let (entries, rest) ← readEntries room (depth + 1) rest
          return (table entries, rest)
    | _ =>
      match names.findSome? fun name => (name.1.isPrefixOf? content).map (name.2, ·) with
      | some found => .ok found
      | none => orMalformed (readNumber? content)

/-- The rest of a list that has an item to come. -/
def readItems : (room depth : Nat) → Text → Except JsonProblem (List Datum × Text)
  | 0, _, _ => .error .malformed
  | room + 1, depth, content => do
    let (item, rest) ← readValue room depth content
    match skipBlanks rest with
    | ',' :: rest =>
      let (items, rest) ← readItems room depth (skipBlanks rest)
      return (item :: items, rest)
    | ']' :: rest => return ([item], rest)
    | _ => throw .malformed

/-- The rest of a table that has an entry to come. -/
def readEntries : (room depth : Nat) → Text → Except JsonProblem (List (Text × Datum) × Text)
  | 0, _, _ => .error .malformed
  | room + 1, depth, content => do
    match content with
    | '\x22' :: rest =>
      let (codes, rest) ← orMalformed (readString? rest)
      match skipBlanks rest with
      | ':' :: rest =>
        let (value, rest) ← readValue room depth (skipBlanks rest)
        let entry := (joinPairs codes, value)
        match skipBlanks rest with
        | ',' :: rest =>
          let (entries, rest) ← readEntries room depth (skipBlanks rest)
          return (entry :: entries, rest)
        | '\x7d' :: rest => return ([entry], rest)
        | _ => throw .malformed
      | _ => throw .malformed
    | _ => throw .malformed

end

/-- The value that a JSON text stands for. -/
def parse (content : Text) : Except JsonProblem Datum := do
  let (value, rest) ← readValue (content.length + 1) 0 (skipBlanks content)
  if skipBlanks rest = [] then return value else throw .malformed

end Datum

end KitTemplate
