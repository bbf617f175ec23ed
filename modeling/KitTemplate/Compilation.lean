import KitTemplate.Expansion

/-! Compilation of one page: a file or a source is expanded, and the text is written if an output is
asked for. The first template error makes the compilation fail; nothing is written then. A fault of
any other kind ends the work that the compilation is part of. -/

namespace KitTemplate

/-- What work on a file tree changes. -/
structure Workspace where
  tree : FileTree
  journal : Journal := {}

/-- Work on a file tree that answers with a value or ends in a fault. -/
abbrev Work := EStateM Fault Workspace

def Work.note (level : Int) (message : Text) : Work Unit :=
  modify fun workspace => { workspace with journal := workspace.journal.note level message }

inductive Compilation where
  | compiled (text : Text) (written : Option Path)
  | failed (error : TemplateError)
deriving DecidableEq, Repr

def Compilation.message : Compilation → Text
  | compiled .. => "Compiled successfully.".toList
  | failed error => error.message

namespace Compiler

variable (compiler : Compiler)

/-- A template error is what a compilation may fail with; other faults go on. -/
def settleFault : Fault → Work Compilation
  | .template error => do
    Work.note 2 ("Compilation failed: ".toList ++ error.message)
    return .failed error
  | fault => throw fault

/-- An expansion from an empty context, with its notes added to the journal. -/
def expand (work : Workplace → Expansion Text) : Work (Except Fault Text) := fun workspace =>
  match (work ⟨compiler, workspace.tree⟩).run { journal := workspace.journal } with
  | .ok text context => .ok (.ok text) { workspace with journal := context.journal }
  | .error fault context => .ok (.error fault) { workspace with journal := context.journal }

def write (path : Path) (text : Text) : Work (Except Fault Unit) := fun workspace =>
  let (tree, result) := compiler.writeText workspace.tree path text
  .ok result { workspace with tree }

/-- The compilation whose text an expansion yields. -/
def complete (work : Workplace → Expansion Text) (output : Option Path) : Work Compilation := do
  match ← compiler.expand work with
  | .error fault => settleFault fault
  | .ok text =>
    match output with
    | none => return .compiled text none
    | some path =>
      match ← compiler.write path text with
      | .error fault => settleFault fault
      | .ok () =>
        Work.note 2 ("Wrote ".toList ++ path.toText)
        return .compiled text (some path)

/-- The compilation of a file. -/
def compile (file : Path) (output : Option Path) : Work Compilation := do
  let path := Path.absolute (← get).tree.workingDirectory file
  Work.note 2 ("Compiling ".toList ++ path.toText)
  compiler.complete (·.compileFile path) output

/-- The compilation of a source as if it stood in `file`, which need not exist. -/
def compileSource (source : Text) (file : Path) (output : Option Path) : Work Compilation := do
  let path := Path.absolute (← get).tree.workingDirectory file
  Work.note 2 ("Compiling source as ".toList ++ path.toText)
  compiler.complete
    (fun place =>
      Expansion.inside path <| Expansion.tagged path.name <| place.expandText path source)
    output

end Compiler

end KitTemplate
