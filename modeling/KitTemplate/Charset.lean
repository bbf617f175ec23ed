import KitTemplate.Text.Quoted

/-! Character sets in which templates are read and pages are written. Decoding is strict: a byte
sequence stands for a character only if encoding that character gives the sequence back. The marked
form of UTF-8 puts a byte-order mark before everything it writes and drops one that it reads. -/

namespace KitTemplate

inductive Charset where
  | utf8
  | utf8Marked
  | ascii
  | latin1
deriving DecidableEq, Repr

namespace Charset

/-- The names of a character set, the first of which names it before all others. -/
def names : Charset → List Text
  | utf8 => ["utf_8", "u8", "utf", "utf8", "utf8_ucs2", "utf8_ucs4", "cp65001"].map String.toList
  | utf8Marked => ["utf_8_sig".toList]
  | ascii => ["ascii", "646", "ansi_x3.4_1968", "ansi_x3_4_1968", "ansi_x3.4_1986", "cp367",
      "csascii", "ibm367", "iso646_us", "iso_646.irv_1991", "iso_ir_6", "us",
      "us_ascii"].map String.toList
  | latin1 => ["latin_1", "8859", "cp819", "csisolatin1", "ibm819", "iso8859", "iso8859_1",
      "iso_8859_1", "iso_8859_1_1987", "iso_ir_100", "l1", "latin", "latin1"].map String.toList

/-- A name as it is looked up: in lower case, and with one underscore for whatever stands between
letters, digits and dots. -/
def plainName (name : Text) : Text :=
  let folded := name.map fun c => if c.isAlphanum ∨ c = '.' then c.toLower else '_'
  Text.join ['_'] ((folded.splitOn '_').filter (· ≠ []))

/-- Whether a name that is looked up is one of the set. In all names but the first of a set, a dot
is as good as an underscore. -/
def isNamed (charset : Charset) (plain : Text) : Bool :=
  plain ∈ charset.names || (plain.map fun c => if c = '.' then '_' else c) ∈ charset.names.tail

/-- The character set with a given name, if it is one of these four. Any other name is taken for
unknown, also where it is that of another set. -/
def named? (name : Text) : Option Charset :=
  [utf8, utf8Marked, ascii, latin1].find? (isNamed · (plainName name))

/-- The name under which a set reports text that it cannot hold. -/
def title : Charset → Text
  | utf8 => "utf-8".toList
  | utf8Marked => "utf-8-sig".toList
  | ascii => "ascii".toList
  | latin1 => "latin-1".toList

/-- The UTF-8 bytes of one character. -/
def encodeChar (c : Char) : List UInt8 :=
  let code := c.toNat
  let tail (place : Nat) : UInt8 := .ofNat (0x80 + code / place % 64)
  if code < 0x80 then [.ofNat code]
  else if code < 0x800 then [.ofNat (0xC0 + code / 64), tail 1]
  else if code < 0x10000 then [.ofNat (0xE0 + code / 4096), tail 64, tail 1]
  else [.ofNat (0xF0 + code / 262144), tail 4096, tail 64, tail 1]

def encodeUtf8 (text : Text) : List UInt8 := text.flatMap encodeChar

/-- The character that a UTF-8 sequence stands for. -/
def decodeChar? (lead : UInt8) (tail : List UInt8) : Option Char :=
  let leadBits := lead.toNat % Nat.pow 2 (if tail = [] then 7 else 6 - tail.length)
  let c := Char.ofNat (tail.foldl (fun code byte => code * 64 + byte.toNat % 64) leadBits)
  if encodeChar c = lead :: tail then some c else none

/-- Why some bytes stand for no character. -/
inductive Flaw where
  | startByte
  | continuationByte
  | unexpectedEnd
  /-- A set of single bytes has no such byte. -/
  | outsideSet
deriving DecidableEq, Repr

/-- The first bytes that stand for no character, and where they begin. -/
structure Undecodable where
  charset : Charset
  position : Nat
  run : List UInt8
  flaw : Flaw
deriving DecidableEq, Repr

/-- The least and the largest byte that may stand at each place after a lead byte. No sequence
begins with a byte that none may follow. -/
def continuations (lead : UInt8) : List (UInt8 × UInt8) :=
  let any : UInt8 × UInt8 := (0x80, 0xBF)
  if lead < 0xC2 then []
  else if lead < 0xE0 then [any]
  else if lead = 0xE0 then [(0xA0, 0xBF), any]
  else if lead = 0xED then [(0x80, 0x9F), any]
  else if lead < 0xF0 then [any, any]
  else if lead = 0xF0 then [(0x90, 0xBF), any, any]
  else if lead < 0xF4 then [any, any, any]
  else if lead = 0xF4 then [(0x80, 0x8F), any, any]
  else []

/-- The bytes from the first one on that stand where they may, and whether one stands where it may
not. -/
def continued : List (UInt8 × UInt8) → List UInt8 → List UInt8 × Bool
  | [], _ | _, [] => ([], false)
  | range :: ranges, byte :: rest =>
    if range.1 ≤ byte ∧ byte ≤ range.2 then
      let (run, broken) := continued ranges rest
      (byte :: run, broken)
    else ([], true)

/-- The flaw of a sequence that stands for no character. -/
def flawAt (position : Nat) (lead : UInt8) (rest : List UInt8) : Undecodable :=
  match continuations lead with
  | [] => ⟨utf8, position, [lead], .startByte⟩
  | ranges =>
    let (run, broken) := continued ranges rest
    ⟨utf8, position, lead :: run, if broken then .continuationByte else .unexpectedEnd⟩

/-- The text of a UTF-8 sequence that begins at a position. -/
def decodeUtf8 (position : Nat) : List UInt8 → Except Undecodable Text
  | [] => .ok []
  | lead :: rest =>
    let flawed : Except Undecodable Text := .error (flawAt position lead rest)
    if lead < 0x80 then
      match decodeChar? lead [] with
      | some c => return c :: (← decodeUtf8 (position + 1) rest)
      | none => flawed
    else if lead < 0xE0 then
      match rest with
      | b :: rest =>
        match decodeChar? lead [b] with
        | some c => return c :: (← decodeUtf8 (position + 2) rest)
        | none => flawed
      | _ => flawed
    else if lead < 0xF0 then
      match rest with
      | b :: c :: rest =>
        match decodeChar? lead [b, c] with
        | some c => return c :: (← decodeUtf8 (position + 3) rest)
        | none => flawed
      | _ => flawed
    else
      match rest with
      | b :: c :: d :: rest =>
        match decodeChar? lead [b, c, d] with
        | some c => return c :: (← decodeUtf8 (position + 4) rest)
        | none => flawed
      | _ => flawed

/-- The byte-order mark. -/
def mark : List UInt8 := [0xEF, 0xBB, 0xBF]

/-- Text after an optional byte-order mark; a file that ends within the mark is empty. -/
def decodeMarked (bytes : List UInt8) : Except Undecodable Text :=
  match mark.isPrefixOf? bytes with
  | some rest => decodeUtf8 0 rest
  | none => if bytes.isPrefixOf mark then .ok [] else decodeUtf8 0 bytes

/-- How many of the first code points a set of single bytes holds. -/
def size : Charset → Nat
  | ascii => 128
  | latin1 => 256
  | _ => 0x110000

def decodeSingle (charset : Charset) (bytes : List UInt8) : Except Undecodable Text :=
  let held (byte : UInt8) : Bool := byte.toNat < charset.size
  match bytes.dropWhile held with
  | [] => .ok (bytes.map fun byte => Char.ofNat byte.toNat)
  | byte :: _ => .error ⟨charset, (bytes.takeWhile held).length, [byte], .outsideSet⟩

/-- The text that some bytes stand for, if they stand for any. -/
def decode (charset : Charset) (bytes : List UInt8) : Except Undecodable Text :=
  match charset with
  | utf8 => decodeUtf8 0 bytes
  | utf8Marked => decodeMarked bytes
  | _ => decodeSingle charset bytes

/-- What the message of a set about text or bytes outside of it ends with. -/
def rangeNote (charset : Charset) : Text :=
  "ordinal not in range(".toList ++ Text.ofNat charset.size ++ [')']

def Undecodable.message (problem : Undecodable) : Text :=
  let place :=
    match problem.run with
    | [byte] => "byte 0x".toList ++ Text.hexDigits 2 byte.toNat ++ " in position ".toList ++
        Text.ofNat problem.position
    | run => "bytes in position ".toList ++ Text.ofNat problem.position ++ ['-'] ++
        Text.ofNat (problem.position + run.length - 1)
  let reason :=
    match problem.flaw with
    | .startByte => "invalid start byte".toList
    | .continuationByte => "invalid continuation byte".toList
    | .unexpectedEnd => "unexpected end of data".toList
    | .outsideSet => problem.charset.rangeNote
  problem.charset.title.quoted ++ " codec can't decode ".toList ++ place ++ [':', ' '] ++ reason

/-- The first run of characters that a set does not hold, and where it begins. -/
structure Unencodable where
  charset : Charset
  position : Nat
  run : Text
deriving DecidableEq, Repr

def Unencodable.message (problem : Unencodable) : Text :=
  let place :=
    match problem.run with
    | [c] => "character '".toList ++ Text.escapeCode c ++ "' in position ".toList ++
        Text.ofNat problem.position
    | run => "characters in position ".toList ++ Text.ofNat problem.position ++ ['-'] ++
        Text.ofNat (problem.position + run.length - 1)
  problem.charset.title.quoted ++ " codec can't encode ".toList ++ place ++ [':', ' '] ++
    problem.charset.rangeNote

def encodeSingle (charset : Charset) (text : Text) : Except Unencodable (List UInt8) :=
  let held (c : Char) : Bool := c.toNat < charset.size
  match text.dropWhile held with
  | [] => .ok (text.map fun c => .ofNat c.toNat)
  | rest => .error ⟨charset, (text.takeWhile held).length, rest.takeWhile (!held ·)⟩

/-- The bytes that stand for a text. -/
def encode (charset : Charset) (text : Text) : Except Unencodable (List UInt8) :=
  match charset with
  | utf8 => .ok (encodeUtf8 text)
  | utf8Marked => .ok (mark ++ encodeUtf8 text)
  | _ => encodeSingle charset text

end Charset

end KitTemplate
