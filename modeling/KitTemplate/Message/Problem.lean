import KitTemplate.Text.Quoted

/-! Problems with the fields of a message. A message may be malformed, name a value that is not
there, take a part of a value that has none, or ask for a layout that does not suit the value. -/

namespace KitTemplate.Message

inductive Problem where
  | loneOpening
  | loneClosing
  | openingInName
  | unclosedField
  | missingConversion
  | unendedConversion
  | unclosedLayout
  | unknownConversion (conversion : Char)
  | emptyPart
  | strayPart
  | tooManyDigits
  | nestedTooDeeply
  /-- A value without a name, by its place counted from zero. -/
  | unnamedValue (place : Nat)
  /-- A name, or an entry of a table, as it is written. -/
  | unknownKey (key : Text)
  | unknownProperty (kind name : Text)
  /-- A property that a kind taken as a value does not have. -/
  | unknownKindProperty (kind name : Text)
  /-- A property that kinds may have, and this one does not. -/
  | missingProperty (name : Text)
  | withoutParts (kind : Text)
  | kindWithoutParts (kind : Text)
  /-- What a kind holds is said already. -/
  | notGeneral (kind : Text)
  | outsideText
  /-- A place past the items of a value of some kind. -/
  | outsideItems (kind : Text)
  | textPartByName
  | itemByName (kind : Text)
  | malformedLayout (layout kind : Text)
  | missingPrecision
  | bothSeparators
  | unsuitedSeparator (separator type : Char)
  | unknownType (type : Char) (kind : Text)
  | withoutLayouts (kind : Text)
  | spaceBeforeText
  | signBeforeText
  | zeroSignBeforeText
  | alternativeText
  | splitText
  | preciseWhole
  | zeroSignBeforeWhole
  | signBeforeCharacter
  | alternativeCharacter
  | notCharacter
  | tooLargeForCharacter
  | tooLargeForDouble
  | tooPrecise
  | tooWide
deriving DecidableEq, Repr

/-- The families of problems. -/
inductive ProblemKind where
  /-- The message or a layout in it is malformed, or the layout does not suit the value. -/
  | malformed
  | missingPlace
  | missingKey
  | missingProperty
  /-- The value is of the wrong kind. -/
  | unsuited
  | tooLarge
  | noRoom
deriving DecidableEq, Repr

namespace Problem

def kind : Problem → ProblemKind
  | unnamedValue _ | outsideText | outsideItems _ => .missingPlace
  | unknownKey _ => .missingKey
  | unknownProperty .. | unknownKindProperty .. | missingProperty _ => .missingProperty
  | withoutParts _ | kindWithoutParts _ | notGeneral _ | textPartByName | itemByName _
  | withoutLayouts _ => .unsuited
  | notCharacter | tooLargeForCharacter | tooLargeForDouble => .tooLarge
  | tooWide => .noRoom
  | _ => .malformed

/-- A visible ASCII character as such, and any other by its code. -/
def characterName (last : Nat) (c : Char) : Text :=
  if 32 < c.toNat ∧ c.toNat ≤ last then [c]
  else '\\' :: 'x' :: Nat.toDigits 16 c.toNat

def unsuitedText (what : String) : Text :=
  what.toList ++ " not allowed in string format specifier".toList

def unsuitedWhole (what : String) : Text :=
  what.toList ++ " not allowed in integer format specifier".toList

def unsuitedCharacter (what : String) : Text :=
  what.toList ++ " not allowed with integer format specifier 'c'".toList

def message : Problem → Text
  | loneOpening => "Single '\x7b' encountered in format string".toList
  | loneClosing => "Single '\x7d' encountered in format string".toList
  | openingInName => "unexpected '\x7b' in field name".toList
  | unclosedField => "expected '\x7d' before end of string".toList
  | missingConversion => "end of string while looking for conversion specifier".toList
  | unendedConversion => "expected ':' after conversion specifier".toList
  | unclosedLayout => "unmatched '\x7b' in format spec".toList
  | unknownConversion conversion =>
    "Unknown conversion specifier ".toList ++ characterName 126 conversion
  | emptyPart => "Empty attribute in format string".toList
  | strayPart => "Only '.' or '[' may follow ']' in format field specifier".toList
  | tooManyDigits => "Too many decimal digits in format string".toList
  | nestedTooDeeply => "Max string recursion exceeded".toList
  | unnamedValue place =>
    "Replacement index ".toList ++ Text.ofNat place ++
      " out of range for positional args tuple".toList
  | unknownKey key => key
  | unknownProperty kind name =>
    '\x27' :: kind ++ "' object has no attribute '".toList ++ name ++ ['\x27']
  | unknownKindProperty kind name =>
    "type object '".toList ++ kind ++ "' has no attribute '".toList ++ name ++ ['\x27']
  | missingProperty name => name
  | withoutParts kind => '\x27' :: kind ++ "' object is not subscriptable".toList
  | kindWithoutParts kind => "type '".toList ++ kind ++ "' is not subscriptable".toList
  | notGeneral kind => kind ++ " is not a generic class".toList
  | outsideText => "string index out of range".toList
  | outsideItems kind => kind ++ " index out of range".toList
  | textPartByName => "string indices must be integers, not 'str'".toList
  | itemByName kind => kind ++ " indices must be integers or slices, not str".toList
  | malformedLayout layout kind =>
    "Invalid format specifier '".toList ++ layout ++ "' for object of type '".toList ++ kind ++
      ['\x27']
  | missingPrecision => "Format specifier missing precision".toList
  | bothSeparators => "Cannot specify both ',' and '_'.".toList
  | unsuitedSeparator separator type =>
    "Cannot specify '".toList ++ [separator] ++ "' with '".toList ++ characterName 127 type ++
      "'.".toList
  | unknownType type kind =>
    "Unknown format code '".toList ++ characterName 127 type ++ "' for object of type '".toList ++
      kind ++ ['\x27']
  | withoutLayouts kind =>
    "unsupported format string passed to ".toList ++ kind ++ ".__format__".toList
  | spaceBeforeText => unsuitedText "Space"
  | signBeforeText => unsuitedText "Sign"
  | zeroSignBeforeText => unsuitedText "Negative zero coercion (z)"
  | alternativeText => unsuitedText "Alternate form (#)"
  | splitText => unsuitedText "'=' alignment"
  | preciseWhole => unsuitedWhole "Precision"
  | zeroSignBeforeWhole => unsuitedWhole "Negative zero coercion (z)"
  | signBeforeCharacter => unsuitedCharacter "Sign"
  | alternativeCharacter => unsuitedCharacter "Alternate form (#)"
  | notCharacter => "%c arg not in range(0x110000)".toList
  | tooLargeForCharacter => "Python int too large to convert to C long".toList
  | tooLargeForDouble => "int too large to convert to float".toList
  | tooPrecise => "precision too big".toList
  | tooWide => []

end Problem

end KitTemplate.Message
