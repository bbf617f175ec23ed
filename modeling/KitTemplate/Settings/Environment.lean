import KitTemplate.Table
import KitTemplate.Text.Blank

/-! Environment files. Each binding gives a name a value, which may be quoted; what does not bind a
name is dropped from there to the end of the line. A value may refer to the values of variables,
those bound above it before those of the environment, and where a name is bound several times the
last binding counts. -/

namespace KitTemplate.Environment

/-- What is read from the beginning of a text, with what follows it; or, where reading fails, the
text from there on. -/
abbrev Reading (α : Type) := Except Text (α × Text)

/-- A name and its value. A name may be bound to nothing. -/
abbrev Binding := Text × Option Text

def isLineEnd (c : Char) : Bool := c = '\n' || c = '\r'

/-- A blank within a line. -/
def isGap (c : Char) : Bool := Text.isBlank c && !isLineEnd c

/-- The text with every line terminator written as a line feed. -/
def unifyLines : Text → Text
  | '\r' :: '\n' :: rest => '\n' :: unifyLines rest
  | '\r' :: rest => '\n' :: unifyLines rest
  | c :: rest => c :: unifyLines rest
  | [] => []

def dropLine (text : Text) : Text := (text.dropWhile (!isLineEnd ·)).drop 1

/-- The text after the word that may stand before a name. -/
def skipExport (text : Text) : Text :=
  match "export".toList.isPrefixOf? text with
  | some (c :: rest) => if isGap c then rest.dropWhile isGap else text
  | _ => text

/-- The name that a binding begins with; a comment begins with none. -/
def readName (text : Text) : Reading (Option Text) :=
  match text with
  | '#' :: _ => .ok (none, text)
  | '\x27' :: rest =>
    match rest.span (· ≠ '\x27') with
    | (c :: name, _ :: rest) => .ok (some (c :: name), rest)
    | _ => .error text
  | _ =>
    match text.span fun c => c ≠ '=' && c ≠ '#' && !Text.isBlank c with
    | ([], _) => .error text
    | (name, rest) => .ok (some name, rest)

/-- What stands before the closing quote, and what follows it. A backslash takes the character after
it along, so that a quote among these does not close. -/
def closeQuote? (quote : Char) : Text → Option (Text × Text)
  | [] => none
  | '\\' :: c :: rest =>
    (closeQuote? quote rest).map fun sides => ('\\' :: c :: sides.1, sides.2)
  | c :: rest =>
    if c = quote then some ([], rest)
    else (closeQuote? quote rest).map fun sides => (c :: sides.1, sides.2)

def escapeInSingle (c : Char) : Option Char := if c = '\\' || c = '\x27' then some c else none

def escapeInDouble : Char → Option Char
  | 'a' => some '\x07'
  | 'b' => some '\x08'
  | 'f' => some '\x0c'
  | 'n' => some '\n'
  | 'r' => some '\r'
  | 't' => some '\t'
  | 'v' => some '\x0b'
  | c => if c = '\\' || c = '\x27' || c = '\x22' then some c else none

def unescape (escape : Char → Option Char) : Text → Text
  | '\\' :: c :: rest =>
    match escape c with
    | some plain => plain :: unescape escape rest
    | none => '\\' :: unescape escape (c :: rest)
  | c :: rest => c :: unescape escape rest
  | [] => []

/-- The text before the first comment that follows a blank. -/
def dropComment : Text → Text
  | [] => []
  | c :: rest =>
    if Text.isBlank c && (rest.dropWhile Text.isBlank).head? = some '#' then []
    else c :: dropComment rest

def readQuoted (quote : Char) (escape : Char → Option Char) (text : Text) : Reading Text :=
  match closeQuote? quote (text.drop 1) with
  | some (value, rest) => .ok (unescape escape value, rest)
  | none => .error text

/-- The value after an equals sign. -/
def readValue (text : Text) : Reading Text :=
  let content := text.dropWhile isGap
  match content.head? with
  | some '\x27' => readQuoted '\x27' escapeInSingle content
  | some '\x22' => readQuoted '\x22' escapeInDouble content
  | _ =>
    let (value, rest) := text.span (!isLineEnd ·)
    .ok (Text.trim Text.isBlank (dropComment value), rest)

/-- What follows the line, of which no more than a comment may be left. -/
def endLine (text : Text) : Except Text Text :=
  let rest :=
    match text.dropWhile isGap with
    | '#' :: comment => comment.dropWhile (!isLineEnd ·)
    | _ => text
  match rest.dropWhile isGap with
  | [] => .ok []
  | c :: after => if isLineEnd c then .ok after else .error rest

/-- A binding with the end of its line, or a comment, which binds nothing. -/
def readBinding (text : Text) : Except Text (Option Binding × Text) := do
  let (name, rest) ← readName (skipExport text)
  match rest.dropWhile isGap with
  | '=' :: rest =>
    let (value, rest) ← readValue rest
    return (name.map (·, some value), ← endLine rest)
  | rest => return (name.map (·, none), ← endLine rest)

/-- The bindings of a text of which at most `room` lines are read. -/
def readBindings : (room : Nat) → Text → List Binding
  | 0, _ => []
  | room + 1, text =>
    match text.dropWhile Text.isBlank with
    | [] => []
    | text =>
      match readBinding text with
      | .error rest => readBindings room (dropLine rest)
      | .ok (binding, rest) => binding.toList ++ readBindings room rest

/-- The name and the default of a reference, after its opening brace, and what follows it. -/
def readReference? (text : Text) : Option (Text × Text × Text) :=
  match text.span fun c => c ≠ '\x7d' && c ≠ ':' with
  | (name, '\x7d' :: rest) => some (name, [], rest)
  | (name, ':' :: '-' :: rest) =>
    match rest.span (· ≠ '\x7d') with
    | (other, _ :: rest) => some (name, other, rest)
    | _ => none
  | _ => none

/-- A value with the values of variables in place of the references to them. -/
def substitute (known : List (Text × Text)) : (room : Nat) → Text → Text
  | 0, text => text
  | _ + 1, [] => []
  | room + 1, c :: rest =>
    match c, rest with
    | '$', '\x7b' :: reference =>
      match readReference? reference with
      | some (name, other, rest) =>
        (known.lookup name).getD other ++ substitute known room rest
      | none => c :: substitute known room rest
    | _, _ => c :: substitute known room rest

/-- The bindings with their values filled in. -/
def resolve (known : List (Text × Text)) : List Binding → List Binding
  | [] => []
  | (name, none) :: rest => (name, none) :: resolve ((name, []) :: known) rest
  | (name, some value) :: rest =>
    let value := substitute known (value.length + 1) value
    (name, some value) :: resolve ((name, value) :: known) rest

/-- The mark that a text may begin with to show its character set. -/
def byteOrderMark : Char := '\uFEFF'

/-- What the text of an environment file binds. -/
def parse (known : List (Text × Text)) (content : Text) : List Binding :=
  let content := if content.head? = some byteOrderMark then content.tail else content
  let lines := unifyLines content
  Table.ofList (resolve known (readBindings (lines.length + 1) lines))

end KitTemplate.Environment
