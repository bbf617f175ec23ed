import KitTemplate.Text.PrintTable
import KitTemplate.Text.Basic

/-! Quoted text, as messages about paths show it. The quotes are single ones, unless the text holds
a single quote and no double one. The backslash, the chosen quote and every character without a
printed form are written as escapes, so a message stays on one line. -/

namespace KitTemplate.Text

def isPrinted (c : Char) : Bool :=
  !PrintTable.unprinted.any fun range => range.1 ≤ c.toNat && c.toNat ≤ range.2

/-- The last `width` hexadecimal digits of a code point. -/
def hexDigits (width code : Nat) : Text :=
  match width with
  | 0 => []
  | width + 1 => hexDigits width (code / 16) ++ [Nat.digitChar (code % 16)]

/-- A code point as an escape of the smallest of the three widths that holds it. -/
def escapeCode (c : Char) : Text :=
  if c.toNat < 0x100 then '\\' :: 'x' :: hexDigits 2 c.toNat
  else if c.toNat < 0x10000 then '\\' :: 'u' :: hexDigits 4 c.toNat
  else '\\' :: 'U' :: hexDigits 8 c.toNat

def quotedChar (quote c : Char) : Text :=
  if c = quote ∨ c = '\\' then ['\\', c]
  else if c = '\n' then ['\\', 'n']
  else if c = '\r' then ['\\', 'r']
  else if c = '\t' then ['\\', 't']
  else if isPrinted c then [c]
  else escapeCode c

def quoted (text : Text) : Text :=
  let quote := if text.contains '\x27' && !text.contains '\x22' then '\x22' else '\x27'
  quote :: text.flatMap (quotedChar quote) ++ [quote]

/-- A list of texts in brackets, each of them quoted. -/
def quotedList (texts : List Text) : Text :=
  '[' :: join [',', ' '] (texts.map quoted) ++ [']']

end KitTemplate.Text
