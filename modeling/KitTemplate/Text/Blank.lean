import KitTemplate.Text.Basic

/-! The three classes of blank characters that templates distinguish. Values and import lists are
trimmed of every Unicode blank, the gap between a keyword and its value is one of the six ASCII
blanks, and only the four layout characters may stand between the opening of a comment and its
keyword. Each class contains the next (`isBlank_of_isAsciiBlank`, `isAsciiBlank_of_isLayout`). -/

namespace KitTemplate.Text

/-- Space, tab, line feed and carriage return. -/
def isLayout (c : Char) : Bool := c = ' ' || c = '\t' || c = '\n' || c = '\r'

/-- The layout characters, vertical tab and form feed. -/
def isAsciiBlank (c : Char) : Bool := c = ' ' || (9 ≤ c.toNat && c.toNat ≤ 13)

/-- The characters of Unicode whose bidirectional class is a separator or that are spaces. -/
def isBlank (c : Char) : Bool :=
  let code := c.toNat
  (9 ≤ code && code ≤ 13) || (28 ≤ code && code ≤ 32) || code = 0x85 || code = 0xA0 ||
    code = 0x1680 || (0x2000 ≤ code && code ≤ 0x200A) || code = 0x2028 || code = 0x2029 ||
    code = 0x202F || code = 0x205F || code = 0x3000

/-- A text that is not empty and holds layout characters only. -/
def isLayoutRun (text : Text) : Bool := !text.isEmpty && text.all isLayout

def strip (text : Text) : Text := trim isBlank text

theorem isAsciiBlank_of_isLayout {c : Char} (hlayout : isLayout c) : isAsciiBlank c := by
  simp only [isLayout, Bool.or_eq_true, decide_eq_true_eq] at hlayout
  rcases hlayout with ((rfl | rfl) | rfl) | rfl <;> rfl

theorem isBlank_of_isAsciiBlank {c : Char} (hblank : isAsciiBlank c) : isBlank c := by
  simp only [isAsciiBlank, Bool.or_eq_true, decide_eq_true_eq, Bool.and_eq_true] at hblank
  rcases hblank with rfl | ⟨hlow, hhigh⟩
  · rfl
  · simp [isBlank, hlow, hhigh]

end KitTemplate.Text
