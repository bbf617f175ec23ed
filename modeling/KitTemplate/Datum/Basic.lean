import KitTemplate.Kind.Members
import KitTemplate.Text.Quoted

/-! Data values, as settings and the fields of messages are given them: numbers, texts, the two
flags, nothing at all, and lists and tables of values. Messages find more values in these: rows of
values, kinds, and the members of kinds, by themselves or together with a value. Each value has two
written forms. `shown` is the one that stands in running text, `written` the one in which texts are
quoted, so that it tells values of different kinds apart. -/

namespace KitTemplate

inductive Datum where
  | null
  | flag (value : Bool)
  | whole (value : Int)
  /-- A number that is not written as a whole one, as it is written. -/
  | fraction (digits : Text)
  | text (value : Text)
  | list (items : List Datum)
  | table (entries : List (Text × Datum))
  | row (items : List Datum)
  | kind (value : Kind)
  /-- A kind with what its values hold. -/
  | special (kind : Kind) (content : Datum)
  /-- A member by itself, with the kind that has it. -/
  | member (owner : Kind) (member : Kind.Member)
  /-- A member of a kind with the value it is to be applied to. -/
  | bound (receiver : Datum) (owner : Kind) (member : Kind.Member)
  /-- All members that a kind has itself. -/
  | members (kind : Kind)
deriving Inhabited

namespace Datum

/-- The kind that a value belongs to. -/
def kindOf : Datum → Kind
  | null => .null
  | flag _ => .flag
  | whole _ => .whole
  | fraction _ => .fraction
  | text _ => .text
  | list _ => .list
  | table _ => .table
  | row _ => .row
  | kind _ => .kinds
  | special .. => .special
  | member _ found => found.sort.kind
  | bound _ _ found => if found.sort = .operation then .boundOperation else .function
  | members _ => .members

/-- Whether a value counts as true: it is neither zero nor empty. -/
def holds : Datum → Bool
  | null => false
  | flag value => value
  | whole value => value ≠ 0
  | fraction digits => digits.any fun c => c.isAlpha || '1' ≤ c && c ≤ '9'
  | text value => !value.isEmpty
  | list items | row items => !items.isEmpty
  | table entries => !entries.isEmpty
  | members owner => !owner.ownMembers.isEmpty
  | _ => true

/-- The name of a value's kind. -/
def kindName (value : Datum) : Text := value.kindOf.name

/-- Where a value is kept, for which one place stands here. -/
def place : Text := "0x7f0000000000".toList

/-- A member of a kind together with a value of another kind. -/
def writtenBound (receiver : Kind) (found : Kind.Member) : Text :=
  let (noun, name) :=
    if found.sort = .operation then ("method-wrapper", '\x27' :: found.name ++ ['\x27'])
    else ("built-in method", found.name)
  '<' :: noun.toList ++ ' ' :: name ++ " of ".toList ++ receiver.name ++ " object at ".toList ++
    place ++ ['>']

/-- A member as it stands among the members of its kind. -/
def writtenMember (owner : Kind) (found : Kind.Member) : Text :=
  match found.sort with
  | .constant => (found.text?.map Text.quoted).getD "None".toList
  | .maker => writtenBound .kinds found
  | .sharedFunction => "<staticmethod(".toList ++ writtenBound .kinds found ++ ")>".toList
  | _ => found.written owner

/-- The members of a kind as a table. -/
def writtenMembers (owner : Kind) : Text :=
  let entries := owner.ownMembers.map fun found =>
    found.name.quoted ++ [':', ' '] ++ writtenMember owner found
  '\x7b' :: Text.join [',', ' '] entries ++ ['\x7d']

mutual

def written : Datum → Text
  | null => "None".toList
  | flag value => if value then "True".toList else "False".toList
  | whole value => Text.ofInt value
  | fraction digits => digits
  | text value => value.quoted
  | list items => '[' :: Text.join [',', ' '] (writtenItems items) ++ [']']
  | table entries => '\x7b' :: Text.join [',', ' '] (writtenEntries entries) ++ ['\x7d']
  | row [item] => '(' :: item.written ++ [',', ')']
  | row items => '(' :: Text.join [',', ' '] (writtenItems items) ++ [')']
  | kind value => value.written
  | special general content => general.shortName ++ '[' :: content.written ++ [']']
  | member owner found => writtenMember owner found
  | bound receiver _ found => writtenBound receiver.kindOf found
  | members owner => "mappingproxy(".toList ++ writtenMembers owner ++ [')']

def writtenItems : List Datum → List Text
  | [] => []
  | item :: rest => item.written :: writtenItems rest

def writtenEntries : List (Text × Datum) → List Text
  | [] => []
  | entry :: rest => writtenEntry entry :: writtenEntries rest

def writtenEntry : Text × Datum → Text
  | (key, value) => key.quoted ++ [':', ' '] ++ value.written

end

/-- A text as it stands, members as their table, and any other value as it is written. -/
def shown : Datum → Text
  | text value => value
  | members owner => writtenMembers owner
  | other => other.written

/-- The written form with escapes in place of all but ASCII characters. -/
def writtenInAscii (value : Datum) : Text :=
  value.written.flatMap fun c => if c.toNat < 128 then [c] else Text.escapeCode c

end Datum

end KitTemplate
