import KitTemplate.Datum.Basic
import KitTemplate.Message.Problem

/-! Properties of values. A name is looked up among the members of the value's kind and of all wider
kinds, and what is found is a property of the value: a trait is read, a method is bound to the
value. For a kind that is taken as a value there are two places to look, the members of kinds and
its own members; a special kind leaves most names to the kind that it is made from. -/

namespace KitTemplate.Message

/-- The number that a value stands for. -/
def number? : Datum → Option Int
  | .whole value => some value
  | .flag value => some (if value then 1 else 0)
  | _ => none

/-- A text, or nothing. -/
def optional (text : Option Text) : Datum := (text.map Datum.text).getD .null

/-- A name within a kind. -/
def qualified (kind : Kind) (name : Text) : Text := kind.shortName ++ '.' :: name

/-- What is known of a member: its name and how it is described. -/
def memberTrait (member : Kind.Member) : String → Option Datum
  | "__name__" => some (.text member.name)
  | "__doc__" => some (optional member.text?)
  | "__text_signature__" =>
    some (optional (if member.signature = [] then none else some member.signature))
  | _ => none

/-- The kind within which something that is bound to a value is named. -/
def boundWithin (receiver : Datum) (owner : Kind) (member : Kind.Member) : Kind :=
  if member.sort = .operation then owner
  else
    match receiver with
    | .kind kind => kind
    | other => other.kindOf

/-- What is read of a member that is bound to a value. A function that only stands in a kind is
bound to nothing. -/
def boundTrait (receiver : Datum) (owner : Kind) (member : Kind.Member) :
    String → Option Datum
  | "__self__" => some (if member.sort = .sharedFunction then .null else receiver)
  | "__objclass__" => some (.kind owner)
  | "__module__" => some .null
  | "__qualname__" => some (.text (qualified (boundWithin receiver owner member) member.name))
  | name => memberTrait member name

/-- What is described of a kind. A kind of members has a description for each of its values in place
of one of its own. -/
def description (kind : Kind) : Datum :=
  match kind, kind.own? "__doc__".toList with
  | .kinds, _ =>
    .text ("type(object) -> the object's type\n".toList ++
      "type(name, bases, dict, **kwds) -> a new type".toList)
  | _, some member => if member.isPart then .member kind member else optional member.text?
  | _, none => .null

/-- What is read of a kind. -/
def kindTrait (kind : Kind) : String → Option Datum
  | "__name__" | "__qualname__" => some (.text kind.shortName)
  | "__module__" => some (.text kind.home)
  | "__base__" => some ((kind.wider?.map Datum.kind).getD .null)
  | "__bases__" => some (.row (kind.wider?.toList.map .kind))
  | "__mro__" => some (.row (kind.lineage.map .kind))
  | "__dict__" => some (.members kind)
  | "__doc__" => some (description kind)
  | "__text_signature__" => some (optional kind.signature?)
  | "__basicsize__" => some (.whole kind.shape.size)
  | "__itemsize__" => some (.whole kind.shape.itemSize)
  | "__flags__" => some (.whole kind.shape.flags)
  | "__dictoffset__" => some (.whole kind.shape.ownPlace)
  | "__weakrefoffset__" => some (.whole kind.shape.referencePlace)
  | _ => none

/-- What is read of a number, which is taken for a complex one and for a quotient. -/
def numberTrait (number : Int) : String → Option Datum
  | "real" | "numerator" => some (.whole number)
  | "imag" => some (.whole 0)
  | "denominator" => some (.whole 1)
  | _ => none

/-- What is read of a special kind. -/
def specialTrait (kind : Kind) (content : Datum) : String → Option Datum
  | "__origin__" => some (.kind kind)
  | "__args__" => some (.row [content])
  | "__unpacked__" => some (.flag false)
  | "__parameters__" => some (.row [])
  | "__typing_unpacked_tuple_args__" => some .null
  | _ => none

/-- What is read of a function that stands in a kind. -/
def wrappedTrait (owner : Kind) (member : Kind.Member) : String → Option Datum
  | "__func__" | "__wrapped__" => some (.bound (.kind owner) owner member)
  | "__isabstractmethod__" => some (.flag false)
  | "__dict__" => some (.table [])
  | _ => none

/-- The trait of a name that a value of a suitable kind has. -/
def trait? (value : Datum) (name : String) : Option Datum :=
  if name = "__class__" then some (.kind value.kindOf)
  else
    match value with
    | .kind kind => kindTrait kind name
    | .special kind content => specialTrait kind content name
    | .bound receiver owner member => boundTrait receiver owner member name
    | .member owner member =>
      match member.sort, name with
      | .sharedFunction, _ => wrappedTrait owner member name
      | _, "__objclass__" => some (.kind owner)
      | _, "__qualname__" => some (.text (qualified owner member.name))
      | _, _ => memberTrait member name
    | value => (number? value).bind (numberTrait · name)

/-- A member as a value by itself. -/
def standing (owner : Kind) (member : Kind.Member) : Datum :=
  match member.sort with
  | .constant => optional member.text?
  | .maker => .bound (.kind owner) owner member
  | _ => .member owner member

/-- What a member is for a value of the kind. -/
def ofValue (value : Datum) (owner : Kind) (member : Kind.Member) : Option Datum :=
  match member.sort with
  | .trait | .field => trait? value (String.ofList member.name)
  | .operation | .method => some (.bound value owner member)
  | .sharedMethod => some (.bound (.kind value.kindOf) owner member)
  | .sharedFunction => some (.bound (.kind owner) owner member)
  | _ => some (standing owner member)

/-- What a member is for the kind itself, or for a narrower one. -/
def ofKind (kind owner : Kind) (member : Kind.Member) : Datum :=
  match member.sort with
  | .sharedMethod => .bound (.kind kind) owner member
  | .sharedFunction => .bound (.kind owner) owner member
  | _ => standing owner member

/-- The property of a value that is no kind. -/
def valueProperty (value : Datum) (name : Text) : Except Problem Datum :=
  match (value.kindOf.member? name).bind fun found => ofValue value found.1 found.2 with
  | some found => .ok found
  | none => .error (.unknownProperty value.kindName name)

/-- The property of a kind. What is read of kinds comes first, then the members of the kind, and
last the members of kinds, which are applied to it. -/
def kindProperty (kind : Kind) (name : Text) : Except Problem Datum :=
  let missing : Problem :=
    if name = "__abstractmethods__".toList then .missingProperty name
    else .unknownKindProperty kind.name name
  let general := Kind.kinds.member? name
  match general.filter (·.2.isPart), kind.member? name with
  | none, some (owner, member) => .ok (ofKind kind owner member)
  | _, _ =>
    match general.bind fun found => ofValue (.kind kind) found.1 found.2 with
    | some found => .ok found
    | none => .error missing

/-- The names that a special kind does not leave to the kind that it is made from. -/
def specialNames : List Text :=
  ["__class__", "__origin__", "__args__", "__unpacked__", "__parameters__",
    "__typing_unpacked_tuple_args__", "__mro_entries__", "__reduce_ex__", "__reduce__",
    "__copy__", "__deepcopy__"].map String.toList

def property (value : Datum) (name : Text) : Except Problem Datum :=
  match value with
  | .kind kind => kindProperty kind name
  | .special kind _ =>
    if specialNames.contains name then valueProperty value name else kindProperty kind name
  | value => valueProperty value name

end KitTemplate.Message
