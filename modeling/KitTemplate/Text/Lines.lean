import KitTemplate.Text.Basic

/-! Line terminators. A line ends with a carriage return, a line feed, or the two in that order,
which count as one. The count is taken from three counts of substrings; scanning from left to right
gives the same number. -/

namespace KitTemplate.Text

/-- How often a carriage return is directly followed by a line feed. -/
def countPairs : Text → Nat
  | '\r' :: '\n' :: rest => countPairs rest + 1
  | _ :: rest => countPairs rest
  | [] => 0

/-- The number of line terminators. -/
def lineBreaks (text : Text) : Nat := text.count '\n' + text.count '\r' - countPairs text

/-- The number of line terminators met from left to right, a pair taken at once. -/
def scanLineBreaks : Text → Nat
  | '\r' :: '\n' :: rest => scanLineBreaks rest + 1
  | first :: rest => scanLineBreaks rest + if first = '\n' ∨ first = '\r' then 1 else 0
  | [] => 0

/-- A text that is exactly one line terminator. -/
def isLineBreak (text : Text) : Bool := text = ['\n'] || text = ['\r', '\n'] || text = ['\r']

end KitTemplate.Text
