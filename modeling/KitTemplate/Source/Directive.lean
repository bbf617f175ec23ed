import KitTemplate.Source.Token
import KitTemplate.Source.Keyword
import KitTemplate.Text.Lines

/-! Directives. A comment is a directive if its opening is followed, layout characters aside, by a
sigil and an ASCII letter; any other comment is ordinary text. A directive reaches over as many
tokens as it takes to find its closing mark, and what its last token holds beyond that mark is its
suffix. A suffix that is one line terminator and nothing else is dropped. -/

namespace KitTemplate

/-- What opens a comment. -/
def commentOpen : Text := ['<', '!', '-', '-']

/-- What closes a comment. -/
def commentClose : Text := ['-', '-', '>']

structure Directive where
  keyword : Text
  value : Option Text
  /-- The comment, from its opening mark to its closing mark. -/
  comment : Text
  /-- What the last token of the comment holds beyond the closing mark. -/
  trailing : Text
  tokenCount : Nat
  /-- The line on which the comment opens. -/
  line : Int
deriving DecidableEq, Repr

namespace Directive

/-- What was read, up to the end of the last token. -/
def source (directive : Directive) : Text := directive.comment ++ directive.trailing

/-- The text that stays behind the directive. -/
def suffix (directive : Directive) : Text :=
  if Text.isLineBreak directive.trailing then [] else directive.trailing

theorem length_suffix_le (directive : Directive) :
    directive.suffix.length ≤ directive.trailing.length := by
  rw [suffix]
  split <;> simp

/-- Whether a comment is a directive. `opening` is its first token, from the opening mark on, and
`following` are the tokens after that one. -/
def opensAt (opening : Token) (following : List Token) : Bool :=
  let rest := opening.drop commentOpen.length
  Keyword.startsText rest ||
    ((rest.isEmpty || Text.isLayoutRun rest) &&
      (following.dropWhile Text.isLayoutRun).head?.any Keyword.startsText)

/-- Why a directive cannot be read. -/
inductive ReadError where
  | unclosed
  | withoutKeyword (comment : Text)
deriving DecidableEq, Repr

/-- A comment read up to its closing mark. -/
structure Closed where
  /-- The comment without its closing mark. -/
  opened : Text
  trailing : Text
  tokenCount : Nat
  remaining : List Token

/-- The search for the closing mark. It goes token by token: `searched` are those that hold none,
the last of them first, `current` is the token to search next, and `count` tokens have been read
with that one. -/
def close? (searched : List Token) (current : Token) (count : Nat) (following : List Token) :
    Option Closed :=
  match Text.cut? commentClose current, following with
  | some (before, trailing), _ =>
    some ⟨(before :: searched).reverse.flatten, trailing, count, following⟩
  | none, [] => none
  | none, next :: following => close? (current :: searched) next (count + 1) following

/-- The directive that opens at `opening`, with the tokens that it leaves. -/
def read (opening : Token) (following : List Token) (line : Int) :
    Except ReadError (Directive × List Token) :=
  let mark := opening.take commentOpen.length
  match close? [mark] (opening.drop commentOpen.length) 1 following with
  | none => .error .unclosed
  | some closed =>
    match Keyword.ofBody? (closed.opened.drop commentOpen.length) with
    | none => .error (.withoutKeyword (closed.opened ++ commentClose))
    | some (keyword, value) =>
      .ok ({ keyword, value, line
             comment := closed.opened ++ commentClose
             trailing := closed.trailing
             tokenCount := closed.tokenCount },
        closed.remaining)

/-- A directive with a value assigns it, if its keyword names a variable. -/
def isAssignment (directive : Directive) : Bool := directive.value.isSome

end Directive

end KitTemplate
