import KitTemplate.Kind.Basic

/-! Members of kinds. The values of a kind share its members and those of all wider kinds. What a
member is for a value depends on its sort: a trait is a value of its own, a method is something
to be applied to the value. -/

namespace KitTemplate.Kind

inductive MemberSort where
  /-- A text that is the same for all values, or nothing. -/
  | constant
  | operation
  | method
  | trait
  | field
  /-- A method of the kind itself. -/
  | sharedMethod
  /-- What makes new values. -/
  | maker
  /-- A function that only stands in the kind. -/
  | sharedFunction
deriving DecidableEq, Repr

/-- The kind of the members of a sort. -/
def MemberSort.kind : MemberSort → Kind
  | constant => .text
  | operation => .operation
  | method => .method
  | trait => .trait
  | field => .field
  | sharedMethod => .sharedMethod
  | maker => .function
  | sharedFunction => .wrapped

structure Member where
  name : Text
  sort : MemberSort
  /-- How it is applied, if that is known. -/
  signature : Text := []
  /-- The lines of its description, or of the text that it is. -/
  description : List Text := []
deriving DecidableEq, Repr

namespace Member

def of (sort : MemberSort) (name signature : String) (description : List String) : Member :=
  { name := name.toList, sort, signature := signature.toList
    description := description.map String.toList }

def constant (name : String) : List String → Member := of .constant name ""

def method : String → String → List String → Member := of .method

def trait (name : String) : List String → Member := of .trait name ""

def field (name : String) : List String → Member := of .field name ""

def sharedMethod : String → String → List String → Member := of .sharedMethod

def sharedFunction : String → String → List String → Member := of .sharedFunction

def maker : Member :=
  of .maker "__new__" "($type, *args, **kwargs)"
    ["Create and return a new object.  See help(type) for accurate signature."]

/-- The text of the description, unless there is none. -/
def text? (member : Member) : Option Text :=
  if member.description = [] then none else some (Text.join ['\n'] member.description)

/-- Whether the member is a value of its own for every value, as traits and fields are. -/
def isPart (member : Member) : Bool := member.sort = .trait || member.sort = .field

/-- A member of a kind as it is written. -/
def written (owner : Kind) (member : Member) : Text :=
  let noun :=
    match member.sort with
    | .operation => "slot wrapper"
    | .trait => "attribute"
    | .field => "member"
    | _ => "method"
  '<' :: noun.toList ++ " '".toList ++ member.name ++ "' of '".toList ++ owner.name ++
    "' objects>".toList

end Member

end KitTemplate.Kind
