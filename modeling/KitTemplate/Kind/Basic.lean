import KitTemplate.Text.Basic

/-! Kinds of data values. A kind goes by a name and belongs to wider kinds, of which the widest
holds every value: a flag is a number, and everything is an object. Kinds are values as well, and so
are their members, such as the methods of texts; so there are kinds of these. -/

namespace KitTemplate

inductive Kind where
  | null
  | flag
  | whole
  | fraction
  | text
  | list
  | table
  /-- A row of values that stand for parts of one thing. -/
  | row
  /-- The kind of kinds. -/
  | kinds
  /-- The kind of all values. -/
  | any
  /-- A kind together with what its values hold. -/
  | special
  /-- The members of a kind by their names. -/
  | members
  | operation
  | method
  | trait
  | field
  /-- A method of a kind itself, and not of its values. -/
  | sharedMethod
  /-- A method together with the value it is to be applied to. -/
  | function
  /-- An operation together with the value it is to be applied to. -/
  | boundOperation
  /-- A function as it stands among the members of a kind. -/
  | wrapped
deriving DecidableEq, Repr

namespace Kind

/-- The name of a kind where it is defined. -/
def shortName : Kind → Text
  | null => "NoneType".toList
  | flag => "bool".toList
  | whole => "int".toList
  | fraction => "float".toList
  | text => "str".toList
  | list => "list".toList
  | table => "dict".toList
  | row => "tuple".toList
  | kinds => "type".toList
  | any => "object".toList
  | special => "GenericAlias".toList
  | members => "mappingproxy".toList
  | operation => "wrapper_descriptor".toList
  | method => "method_descriptor".toList
  | trait => "getset_descriptor".toList
  | field => "member_descriptor".toList
  | sharedMethod => "classmethod_descriptor".toList
  | function => "builtin_function_or_method".toList
  | boundOperation => "method-wrapper".toList
  | wrapped => "staticmethod".toList

/-- Where a kind is defined. -/
def home : Kind → Text
  | special => "types".toList
  | _ => "builtins".toList

/-- The name of a kind everywhere. -/
def name (kind : Kind) : Text :=
  if kind = special then kind.home ++ '.' :: kind.shortName else kind.shortName

/-- The next wider kind. -/
def wider? : Kind → Option Kind
  | any => none
  | flag => some whole
  | _ => some any

/-- The kind with all wider ones, from the narrowest on. -/
def lineage : Kind → List Kind
  | any => [any]
  | flag => [flag, whole, any]
  | narrow => [narrow, any]

/-- Whether a kind can be made special by what its values hold. -/
def isGeneral : Kind → Bool
  | list | table | row | kinds | members => true
  | _ => false

def written (kind : Kind) : Text := "<class '".toList ++ kind.name ++ "'>".toList

end Kind

end KitTemplate
