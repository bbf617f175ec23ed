import KitTemplate.Message.Fill
import KitTemplate.Path.Basic

/-! The journal of a run. Work leaves notes of a level, and a note is kept as a record only if the
verbosity reaches its level. Every record carries the name of the file that was being expanded when
the note was made. -/

namespace KitTemplate

inductive Level where
  | info
  | debug
  | trace
deriving DecidableEq, Repr

/-- Progress is level one, paths are level two, and anything else belongs to the finest level. -/
def Level.ofInt (level : Int) : Level :=
  if level = 1 then info else if level = 2 then debug else trace

structure Record where
  level : Level
  /-- The name of a file, or whatever value a note was given in its place. -/
  tag : Datum
  message : Text

structure Journal where
  verbosity : Int := 0
  /-- Whether notes are kept whatever their level. -/
  keepsAll : Bool := false
  /-- The file being expanded. -/
  tag : Text := ['-']
  /-- The records from the latest to the first. -/
  latest : List Record := []

namespace Journal

/-- The records in the order in which they were made. -/
def records (journal : Journal) : List Record := journal.latest.reverse

def keeps (journal : Journal) (level : Int) : Bool :=
  level ≤ journal.verbosity || journal.keepsAll

/-- The journal with one more record. -/
def add (journal : Journal) (level : Int) (tag : Datum) (message : Text) : Journal :=
  { journal with latest := ⟨.ofInt level, tag, message⟩ :: journal.latest }

@[simp]
theorem records_add (journal : Journal) (level : Int) (tag : Datum) (message : Text) :
    (journal.add level tag message).records =
      journal.records ++ [⟨.ofInt level, tag, message⟩] := by
  simp [records, add]

/-- The journal with a note under a tag of its own. -/
def noteAs (journal : Journal) (tag : Text) (level : Int) (message : Text) : Journal :=
  if journal.keeps level then journal.add level (.text tag) message else journal

@[simp]
theorem tag_noteAs (journal : Journal) (tag : Text) (level : Int) (message : Text) :
    (journal.noteAs tag level message).tag = journal.tag := by
  rw [noteAs]
  split <;> rfl

def note (journal : Journal) (level : Int) (message : Text) : Journal :=
  journal.noteAs journal.tag level message

def withTag (journal : Journal) (path : Path) : Journal := { journal with tag := path.name }

/-- A note whose message has fields. Without any value the message is taken as it stands, and a
value named `kitfile` takes the place of the tag. -/
def noteWith (journal : Journal) (level : Int) (message : Text) (values : List (Text × Datum)) :
    Except Message.Problem Journal := do
  if values.isEmpty || !journal.keeps level then return journal.note level message
  let message ← Message.fill values message
  return journal.add level ((values.lookup "kitfile".toList).getD (.text journal.tag)) message

end Journal

end KitTemplate
