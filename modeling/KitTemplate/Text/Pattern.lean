import KitTemplate.Text.LowerCase

/-! Patterns that a text is searched for. A pattern is tried at a place of the text, and each part
of it may go on in several ways: a run of characters is taken as long or as short as it can be
first, and the other lengths are kept for the case that the parts behind it do not match. The ways
through a pattern are listed in the order in which they are tried, so a match is the first of them,
at the first place that has any. -/

namespace KitTemplate

inductive Pattern where
  /-- Nothing at all. -/
  | nothing
  | one (allows : Char → Bool)
  /-- As many characters as possible, then fewer. -/
  | most (allows : Char → Bool)
  /-- As few characters as possible, then more. -/
  | fewest (allows : Char → Bool)
  /-- What `inner` takes is kept. -/
  | captured (inner : Pattern)
  | both (first second : Pattern)

namespace Pattern

instance : Append Pattern := ⟨both⟩

/-- A word given in small letters, in any letter case. -/
def word : Text → Pattern
  | [] => nothing
  | letter :: rest => one (Text.smallLetter · = letter) ++ word rest

/-- How far one way through a pattern has come: the place, the text from there on, and the first
and the last place of each part that was kept. -/
structure Reached where
  place : Nat
  rest : Text
  spans : List (Nat × Nat)
deriving DecidableEq, Repr

/-- The ways to pass over allowed characters, the shortest first. -/
def passing (allows : Char → Bool) (place : Nat) (spans : List (Nat × Nat)) : Text → List Reached
  | [] => [⟨place, [], spans⟩]
  | c :: rest =>
    ⟨place, c :: rest, spans⟩ :: if allows c then passing allows (place + 1) spans rest else []

/-- The ways through a pattern, in the order in which they are tried. -/
def ways : Pattern → Reached → List Reached
  | nothing, start => [start]
  | one allows, start =>
    match start.rest with
    | [] => []
    | c :: rest => if allows c then [⟨start.place + 1, rest, start.spans⟩] else []
  | most allows, start => (passing allows start.place start.spans start.rest).reverse
  | fewest allows, start => passing allows start.place start.spans start.rest
  | captured inner, start => (inner.ways start).map fun reached =>
      { reached with spans := reached.spans ++ [(start.place, reached.place)] }
  | both first second, start => (first.ways start).flatMap second.ways

/-- The first way through a pattern from a place of a text or, if there is none, from a later
one. -/
def searchFrom (pattern : Pattern) (place : Nat) (text : Text) : Option Reached :=
  match (pattern.ways ⟨place, text, []⟩).head? with
  | some reached => some reached
  | none =>
    match text with
    | [] => none
    | _ :: rest => pattern.searchFrom (place + 1) rest

def search (pattern : Pattern) (text : Text) : Option Reached := pattern.searchFrom 0 text

end Pattern

end KitTemplate
