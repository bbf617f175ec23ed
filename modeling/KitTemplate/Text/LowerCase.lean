import KitTemplate.Text.CaseTable
import KitTemplate.Text.Basic

/-! Small letters. Names that differ in letter case only are the same name for a template: files
that are open, extensions, and the keywords of the language are compared by `lowerCase`. Each
capital letter becomes its small letter, with two rules beyond that: a capital I with a dot keeps
its dot as a mark of its own, and a capital sigma becomes a final sigma where it ends a word. -/

namespace KitTemplate.Text

def within (ranges : List (Nat × Nat)) (c : Char) : Bool :=
  ranges.any fun range => range.1 ≤ c.toNat && c.toNat ≤ range.2

def isCased (c : Char) : Bool := within CaseTable.cased c

def isCaseIgnorable (c : Char) : Bool := within CaseTable.ignorable c

/-- The small letter of `c`, or `c` itself where it is no capital letter with exactly one. -/
def smallLetter (c : Char) : Char :=
  let code := c.toNat
  if code < 128 then
    if 65 ≤ code ∧ code ≤ 90 then Char.ofNat (code + 32) else c
  else
    let covers (run : CaseTable.Run) : Bool :=
      run.first ≤ code && code ≤ run.last && (code - run.first) % run.step = 0
    match CaseTable.capitals.find? covers with
    | some run => Char.ofNat (run.small + (code - run.first))
    | none => c

/-- Whether a sigma between these neighbours ends a word: a letter stands before it and none after
it, ignorable characters left aside. The characters before it are listed from the nearest on. -/
def endsWord (before after : Text) : Bool :=
  (before.dropWhile isCaseIgnorable).head?.any isCased &&
    !(after.dropWhile isCaseIgnorable).head?.any isCased

def lowerCaseAfter (before : Text) : Text → Text
  | [] => []
  | c :: rest =>
    (if c = 'Σ' then [if endsWord before rest then 'ς' else 'σ']
      else if c = 'İ' then ['i', '\u0307']
      else [smallLetter c]) ++ lowerCaseAfter (c :: before) rest

/-- The text in small letters. -/
def lowerCase (text : Text) : Text := lowerCaseAfter [] text

theorem eq_nil_of_lowerCase {text : Text} (htext : text.lowerCase = []) : text = [] := by
  cases text with
  | nil => rfl
  | cons c rest =>
      rw [lowerCase, lowerCaseAfter] at htext
      split at htext
      · simp at htext
      · split at htext <;> simp at htext

end KitTemplate.Text
