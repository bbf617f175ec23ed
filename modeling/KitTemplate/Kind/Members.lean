import KitTemplate.Kind.Numbers
import KitTemplate.Kind.Texts
import KitTemplate.Kind.Collections
import KitTemplate.Kind.Kinds

/-! The members of every kind, where to find one of a name, and what is known of a kind besides. -/

namespace KitTemplate.Kind

/-- The members that a kind does not share with the wider ones. Numbers with a fraction are kept as
they are written and have none. -/
def ownMembers : Kind → List Member
  | null => Member.ofNull
  | flag => Member.ofFlags
  | whole => Member.ofWholeNumbers
  | fraction => []
  | text => Member.ofTexts
  | list => Member.ofLists
  | table => Member.ofTables
  | row => Member.ofRows
  | kinds => Member.ofKinds
  | any => Member.ofAll
  | special => Member.ofSpecialKinds
  | members => Member.ofMembers
  | operation => Member.ofOperations
  | method => Member.ofMethods
  | trait => Member.ofTraits
  | field => Member.ofFields
  | sharedMethod => Member.ofSharedMethods
  | function => Member.ofFunctions
  | boundOperation => Member.ofBoundOperations
  | wrapped => Member.ofWrapped

/-- The member of a name that a kind has itself. -/
def own? (kind : Kind) (name : Text) : Option Member :=
  kind.ownMembers.find? (·.name = name)

/-- The member of a name, with the narrowest kind that has it. -/
def member? (kind : Kind) (name : Text) : Option (Kind × Member) :=
  kind.lineage.findSome? fun owner => (owner.own? name).map (owner, ·)

/-- How a kind is applied to make values, if that is known. -/
def signature? : Kind → Option Text
  | list | row => some "(iterable=(), /)".toList
  | any => some "()".toList
  | _ => none

/-- The layout of the values of a kind. -/
structure Shape where
  size : Nat
  itemSize : Nat := 0
  flags : Nat
  /-- Where a value has members of its own. -/
  ownPlace : Nat := 0
  /-- Where a value is known to be referred to. -/
  referencePlace : Nat := 0

def shape : Kind → Shape
  | null => { size := 16, flags := 0x81100 }
  | flag => { size := 32, itemSize := 4, flags := 0x1481100 }
  | whole => { size := 24, itemSize := 4, flags := 0x1481500 }
  | fraction => { size := 24, flags := 0x481500 }
  | text => { size := 80, flags := 0x10481500 }
  | list => { size := 40, flags := 0x2485520 }
  | table => { size := 48, flags := 0x20485540 }
  | row => { size := 24, itemSize := 8, flags := 0x4485520 }
  | kinds =>
    { size := 904, itemSize := 40, flags := 0x80085d00, ownPlace := 264, referencePlace := 368 }
  | any => { size := 16, flags := 0x81500 }
  | special => { size := 64, flags := 0x85d00, referencePlace := 40 }
  | members => { size := 24, flags := 0x85140 }
  | operation => { size := 56, flags := 0xa5180 }
  | method => { size := 56, flags := 0xa5980 }
  | trait | field => { size := 48, flags := 0x85180 }
  | sharedMethod => { size := 56, flags := 0x85180 }
  | function => { size := 56, flags := 0x85980, referencePlace := 40 }
  | boundOperation => { size := 32, flags := 0x85180 }
  | wrapped => { size := 32, flags := 0x85500, ownPlace := 24 }

end KitTemplate.Kind
