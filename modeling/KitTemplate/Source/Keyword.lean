import KitTemplate.Text.Blank

/-! Keywords of comments. A keyword begins with a dollar or at sign and runs to the next space, tab,
equals sign or colon; a line break does not end it. What follows after a gap of blanks, equals signs
and colons is its value, and a value without a character is none. -/

namespace KitTemplate.Keyword

def isSigil (c : Char) : Bool := c = '$' || c = '@'

def endsKeyword (c : Char) : Bool := c = ' ' || c = '\t' || c = '=' || c = ':'

def isGap (c : Char) : Bool := Text.isAsciiBlank c || c = '=' || c = ':'

/-- Whether a text begins with a sigil and an ASCII letter. -/
def startsText : Text → Bool
  | sigil :: letter :: _ => isSigil sigil && letter.isAlpha
  | _ => false

/-- The keyword of a comment with that body and the value given to it. -/
def ofBody? (body : Text) : Option (Text × Option Text) :=
  match (Text.strip body).dropWhile (!isSigil ·) with
  | [] => none
  | sigil :: rest =>
    let value := Text.strip ((rest.dropWhile (!endsKeyword ·)).dropWhile isGap)
    some (sigil :: rest.takeWhile (!endsKeyword ·), if value = [] then none else some value)

end KitTemplate.Keyword
