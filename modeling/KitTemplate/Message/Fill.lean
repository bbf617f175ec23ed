import KitTemplate.Message.Number
import KitTemplate.Message.Property

/-! Messages with their fields filled in. A field shows a value, or a part of one, converted and
laid out as the field says. Its layout may have fields of its own, but theirs may not. Fields are
filled in from the left, so of several mistakes the first is reported. -/

namespace KitTemplate.Message

/-- An item by its place. -/
def item (kind : Text) (items : List Datum) : Option Nat → Except Problem Datum
  | none => .error (.itemByName kind)
  | some place =>
    match items[place]? with
    | some item => .ok item
    | none => .error (.outsideItems kind)

/-- An entry of a value, by its place or by its key. -/
def entry (value : Datum) (name : Text) : Except Problem Datum := do
  match value, ← place? name with
  | .text content, some place =>
    match content[place]? with
    | some c => return .text [c]
    | none => throw .outsideText
  | .text _, none => throw .textPartByName
  | .list items, place | .row items, place => item value.kindName items place
  | .table _, some place => throw (.unknownKey (Text.ofNat place))
  | .table entries, none =>
    match entries.lookup name with
    | some value => return value
    | none => throw (.unknownKey name.quoted)
  | .kind kind, place =>
    if kind.isGeneral then
      return .special kind ((place.map fun place => .whole place).getD (.text name))
    else throw (.kindWithoutParts kind.name)
  | .special .., _ => throw (.notGeneral value.written)
  | .members _, some place => throw (.unknownKey (Text.ofNat place))
  | .members kind, none =>
    match kind.own? name with
    | some member => return standing kind member
    | none => throw (.unknownKey name.quoted)
  | _, _ => throw (.withoutParts value.kindName)

def partOf (value : Datum) : Part → Except Problem Datum
  | .property [] | .item [] => .error .emptyPart
  | .property name => property value name
  | .item name => entry value name
  | .stray => .error .strayPart

/-- The value that a field shows. -/
def Field.value (field : Field) (values : List (Text × Datum)) : Except Problem Datum := do
  match ← place? field.name with
  | some place => throw (.unnamedValue place)
  | none =>
    if field.name = [] then throw (.unnamedValue 0)
    else
      match values.lookup field.name with
      | none => throw (.unknownKey field.name.quoted)
      | some value => field.path.foldlM partOf value

def convert (value : Datum) : Option Char → Except Problem Datum
  | none => .ok value
  | some 'r' => .ok (.text value.written)
  | some 's' => .ok (.text value.shown)
  | some 'a' => .ok (.text value.writtenInAscii)
  | some conversion => .error (.unknownConversion conversion)

/-- A text in a layout, which may cut it to the precision. -/
def renderText (value text : Text) : Except Problem Text := do
  let kind := (Datum.text value).kindName
  let layout ← Layout.parse kind 's' .left text
  if layout.type ≠ 's' then throw (.unknownType layout.type kind)
  match layout.sign with
  | some .space => throw .spaceBeforeText
  | some _ => throw .signBeforeText
  | none =>
    if layout.zeroSign then throw .zeroSignBeforeText
    if layout.alternative then throw .alternativeText
    if layout.alignment = .split then throw .splitText
    layout.arrange [] (value.take (layout.precision.getD value.length))

/-- A value in a layout. Every value has the empty layout. -/
def render (value : Datum) (layout : Text) : Except Problem Text :=
  match layout, value with
  | [], value => .ok value.shown
  | layout, .text content => renderText content layout
  | layout, value =>
    match number? value with
    | some number => renderWhole value.kindName number layout
    | none => .error (.withoutLayouts value.kindName)

/-- A message filled in, where fields may stand inside one another to a depth. -/
def fillWithin (values : List (Text × Datum)) : (depth : Nat) → Text → Except Problem Text
  | 0, _ => .error .nestedTooDeeply
  | depth + 1, text => do
    let shown ← (segments text).mapM fun
      | .literal text => .ok text
      | .broken problem => .error problem
      | .field field => do
        let value ← convert (← field.value values) field.conversion
        let layout ←
          if field.hasNested then fillWithin values depth field.layout else pure field.layout
        render value layout
    return shown.flatten

/-- A message with its fields filled in. -/
def fill (values : List (Text × Datum)) (text : Text) : Except Problem Text :=
  fillWithin values 2 text

end KitTemplate.Message
