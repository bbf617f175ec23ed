import KitTemplate.Compilation

/-! How a compilation ends. It yields the text of its expansion; it fails with the template error
that ended the expansion or the writing; and every other fault that ends one of the two ends the
compilation. -/

namespace KitTemplate

/-- A workspace whose root holds some files and nothing else. -/
def Workspace.ofFiles (files : List (Text × Text)) : Workspace where
  tree := .ofEntries
    (files.map fun file => ([file.1], .file (file.2.flatMap String.utf8EncodeChar) ⟨0⟩)) ⟨.root, []⟩

/-- A workspace of some directories and files. -/
def Workspace.ofEntries (directories : List Location) (files : List (Location × Text)) :
    Workspace where
  tree := .ofEntries
    (directories.map (·, .directory) ++
      files.map fun file => (file.1, .file (file.2.flatMap String.utf8EncodeChar) ⟨0⟩))
    ⟨.root, []⟩

namespace Compiler

variable (compiler : Compiler)

/-- The outcome of an expansion that begins in a workspace. -/
def expansionFrom (workspace : Workspace) (work : Workplace → Expansion Text) :
    EStateM.Result Fault Context Text :=
  (work ⟨compiler, workspace.tree⟩).run { journal := workspace.journal }

/-- The template error that an expansion ends with. -/
def templateError? : EStateM.Result Fault Context Text → Option TemplateError
  | .error (.template error) _ => some error
  | _ => none

theorem exists_of_templateError? {result : EStateM.Result Fault Context Text}
    {error : TemplateError} (herror : templateError? result = some error) :
    ∃ context, result = .error (.template error) context := by
  unfold templateError? at herror
  split at herror
  · rename_i found context
    obtain rfl := Option.some.inj herror
    exact ⟨context, rfl⟩
  · cases herror

/-- Whether work on a page yields its text. -/
def isCompiled : EStateM.Result Fault Workspace Compilation → Bool
  | .ok (.compiled ..) _ => true
  | _ => false

theorem exists_of_isCompiled {result : EStateM.Result Fault Workspace Compilation}
    (hcompiled : isCompiled result = true) :
    ∃ text written ended, result = .ok (.compiled text written) ended := by
  unfold isCompiled at hcompiled
  split at hcompiled
  · rename_i text written ended
    exact ⟨text, written, ended, rfl⟩
  · cases hcompiled

/-- The fault that work ends with. -/
def fault? {α : Type} : EStateM.Result Fault Workspace α → Option Fault
  | .error fault _ => some fault
  | .ok .. => none

theorem exists_of_fault? {α : Type} {result : EStateM.Result Fault Workspace α} {fault : Fault}
    (hfault : fault? result = some fault) : ∃ ended, result = .error fault ended := by
  cases result with
  | ok value ended => cases hfault
  | error own ended =>
      obtain rfl := Option.some.inj hfault
      exact ⟨ended, rfl⟩

/-- The workspace with a note. -/
def noted (workspace : Workspace) (message : Text) : Workspace :=
  { workspace with journal := workspace.journal.note 2 message }

theorem run_note (workspace : Workspace) (level : Int) (message : Text) :
    (Work.note level message).run workspace =
      .ok ⟨⟩ { workspace with journal := workspace.journal.note level message } :=
  rfl

theorem run_expand (work : Workplace → Expansion Text) (workspace : Workspace) :
    (compiler.expand work).run workspace =
      match compiler.expansionFrom workspace work with
      | .ok text context => .ok (.ok text) { workspace with journal := context.journal }
      | .error fault context => .ok (.error fault) { workspace with journal := context.journal } :=
  rfl

theorem run_write (path : Path) (text : Text) (workspace : Workspace) :
    (compiler.write path text).run workspace =
      .ok (compiler.writeText workspace.tree path text).2
        { workspace with tree := (compiler.writeText workspace.tree path text).1 } :=
  rfl

theorem run_complete (work : Workplace → Expansion Text) (output : Option Path)
    (workspace : Workspace) :
    (compiler.complete work output).run workspace =
      match compiler.expansionFrom workspace work with
      | .error fault context =>
        (settleFault fault).run { workspace with journal := context.journal }
      | .ok text context =>
        match output with
        | none => .ok (.compiled text none) { workspace with journal := context.journal }
        | some path =>
          match compiler.writeText workspace.tree path text with
          | (tree, .error fault) => (settleFault fault).run { tree, journal := context.journal }
          | (tree, .ok ()) =>
            .ok (.compiled text (some path))
              (noted { tree, journal := context.journal } ("Wrote ".toList ++ path.toText)) := by
  rw [complete, EStateM.run_bind, run_expand]
  cases compiler.expansionFrom workspace work with
  | error fault context => rfl
  | ok text context =>
      cases output with
      | none => rfl
      | some path =>
          dsimp only
          rw [EStateM.run_bind, run_write]
          dsimp only
          cases compiler.writeText workspace.tree path text with
          | mk tree result => cases result <;> rfl

/-- A fault makes a compilation fail or ends it, and changes no file. -/
theorem cases_of_settleFault (fault : Fault) (workspace : Workspace) :
    (∃ error ended, fault = .template error ∧ ended.tree = workspace.tree ∧
        (settleFault fault).run workspace = .ok (.failed error) ended) ∨
      (settleFault fault).run workspace = .error fault workspace := by
  cases fault with
  | template error =>
      exact Or.inl ⟨error, noted workspace ("Compilation failed: ".toList ++ error.message), rfl,
        rfl, rfl⟩
  | _ => exact Or.inr rfl

/-- A fault is never settled as a page. -/
theorem settleFault_ne_compiled {fault : Fault} {workspace ended : Workspace} {text : Text}
    {written : Option Path} :
    (settleFault fault).run workspace ≠ .ok (.compiled text written) ended := by
  rcases cases_of_settleFault fault workspace with ⟨error, reached, -, -, hsettle⟩ | hsettle
  all_goals
    rw [hsettle]
    nofun

/-- Work without an output has an answer, unless its expansion ends with a fault that is no template
error. -/
theorem cases_of_complete (work : Workplace → Expansion Text) (workspace : Workspace) :
    (∃ compilation ended, (compiler.complete work none).run workspace = .ok compilation ended) ∨
      ∃ fault context ended, compiler.expansionFrom workspace work = .error fault context ∧
        (∀ error, fault ≠ .template error) ∧
        (compiler.complete work none).run workspace = .error fault ended := by
  rw [run_complete]
  cases compiler.expansionFrom workspace work with
  | ok text context => exact Or.inl ⟨_, _, rfl⟩
  | error fault context =>
      cases fault with
      | template error => exact Or.inl ⟨_, _, rfl⟩
      | _ => exact Or.inr ⟨_, context, _, rfl, nofun, rfl⟩

theorem run_compile (file : Path) (output : Option Path) (workspace : Workspace) :
    let path := Path.absolute workspace.tree.workingDirectory file
    (compiler.compile file output).run workspace =
      (compiler.complete (·.compileFile path) output).run
        (noted workspace ("Compiling ".toList ++ path.toText)) := by
  rw [compile, EStateM.run_bind, EStateM.run_get]
  dsimp only
  rw [EStateM.run_bind, run_note]
  rfl

theorem run_compileSource (source : Text) (file : Path) (output : Option Path)
    (workspace : Workspace) :
    let path := Path.absolute workspace.tree.workingDirectory file
    (compiler.compileSource source file output).run workspace =
      (compiler.complete (fun place => Expansion.inside path <| Expansion.tagged path.name <|
        place.expandText path source) output).run
        (noted workspace ("Compiling source as ".toList ++ path.toText)) := by
  rw [compileSource, EStateM.run_bind, EStateM.run_get]
  dsimp only
  rw [EStateM.run_bind, run_note]
  rfl

variable {compiler} {work : Workplace → Expansion Text} {output : Option Path}
  {workspace ended : Workspace}

/-- How work on a page ends, and what its end comes from. -/
inductive Completion (compiler : Compiler) (work : Workplace → Expansion Text)
    (output : Option Path) (workspace : Workspace) :
    EStateM.Result Fault Workspace Compilation → Prop
  | compiled {text : Text} {written : Option Path} {context : Context} {ended : Workspace}
      (hexpansion : compiler.expansionFrom workspace work = .ok text context) :
      Completion compiler work output workspace (.ok (.compiled text written) ended)
  | unexpanded {error : TemplateError} {context : Context} {ended : Workspace}
      (hexpansion : compiler.expansionFrom workspace work = .error (.template error) context) :
      Completion compiler work output workspace (.ok (.failed error) ended)
  | unwritten {text : Text} {path : Path} {context : Context} {error : TemplateError}
      {ended : Workspace} (houtput : output = some path)
      (hexpansion : compiler.expansionFrom workspace work = .ok text context)
      (hwrite : (compiler.writeText workspace.tree path text).2 = .error (.template error)) :
      Completion compiler work output workspace (.ok (.failed error) ended)
  | fault {fault : Fault} {ended : Workspace}
      (hfault : (∃ context, compiler.expansionFrom workspace work = .error fault context) ∨
        ∃ path text, output = some path ∧
          (compiler.writeText workspace.tree path text).2 = .error fault) :
      Completion compiler work output workspace (.error fault ended)

theorem completion_complete :
    Completion compiler work output workspace ((compiler.complete work output).run workspace) := by
  rw [run_complete]
  cases hexpansion : compiler.expansionFrom workspace work with
  | error fault context =>
      cases fault with
      | template error => exact .unexpanded hexpansion
      | _ => exact .fault (Or.inl ⟨context, hexpansion⟩)
  | ok text context =>
      cases output with
      | none => exact .compiled hexpansion
      | some path =>
          dsimp only
          cases hwrite : compiler.writeText workspace.tree path text with
          | mk tree result =>
              cases result with
              | ok => exact .compiled hexpansion
              | error fault =>
                  have hfault := congrArg Prod.snd hwrite
                  cases fault with
                  | template error => exact .unwritten rfl hexpansion hfault
                  | _ => exact .fault (Or.inr ⟨path, text, rfl, hfault⟩)

/-- An expansion that fails makes the compilation fail. -/
theorem exists_failed_of_expansionFrom {error : TemplateError} {context : Context}
    (hexpansion : compiler.expansionFrom workspace work = .error (.template error) context) :
    ∃ ended, (compiler.complete work output).run workspace = .ok (.failed error) ended := by
  rw [run_complete, hexpansion]
  exact ⟨_, rfl⟩

/-- An expansion whose text can be written makes the compilation succeed. -/
theorem run_complete_of_ok {text : Text} {context : Context} {path : Path} {after : FileTree}
    (hexpansion : compiler.expansionFrom workspace work = .ok text context)
    (hwrite : compiler.writeText workspace.tree path text = (after, .ok ())) :
    (compiler.complete work (some path)).run workspace =
      .ok (.compiled text (some path))
        (noted { tree := after, journal := context.journal } ("Wrote ".toList ++ path.toText)) := by
  rw [run_complete, hexpansion]
  dsimp only
  rw [hwrite]

theorem exists_failed_of_compileFile {file path : Path} {error : TemplateError}
    (hpath : Path.absolute workspace.tree.workingDirectory file = path)
    (herror : templateError? (compiler.expansionFrom
      (noted workspace ("Compiling ".toList ++ path.toText)) (·.compileFile path)) = some error) :
    ∃ ended, (compiler.compile file output).run workspace = .ok (.failed error) ended := by
  obtain ⟨context, hexpansion⟩ := exists_of_templateError? herror
  rw [run_compile, hpath]
  exact exists_failed_of_expansionFrom hexpansion

theorem exists_failed_of_expandText {source : Text} {file path : Path} {error : TemplateError}
    (hpath : Path.absolute workspace.tree.workingDirectory file = path)
    (herror : templateError? (compiler.expansionFrom
      (noted workspace ("Compiling source as ".toList ++ path.toText))
      (fun place => Expansion.inside path <| Expansion.tagged path.name <|
        place.expandText path source)) = some error) :
    ∃ ended, (compiler.compileSource source file output).run workspace =
      .ok (.failed error) ended := by
  obtain ⟨context, hexpansion⟩ := exists_of_templateError? herror
  rw [run_compileSource, hpath]
  exact exists_failed_of_expansionFrom hexpansion

theorem completion_compile (compiler : Compiler) (file : Path) (output : Option Path)
    (workspace : Workspace) :
    let path := Path.absolute workspace.tree.workingDirectory file
    Completion compiler (·.compileFile path) output
      (noted workspace ("Compiling ".toList ++ path.toText))
      ((compiler.compile file output).run workspace) := by
  rw [run_compile]
  exact completion_complete

theorem completion_compileSource (compiler : Compiler) (source : Text) (file : Path)
    (output : Option Path) (workspace : Workspace) :
    let path := Path.absolute workspace.tree.workingDirectory file
    Completion compiler
      (fun place => Expansion.inside path <| Expansion.tagged path.name <|
        place.expandText path source)
      output (noted workspace ("Compiling source as ".toList ++ path.toText))
      ((compiler.compileSource source file output).run workspace) := by
  rw [run_compileSource]
  exact completion_complete

end Compiler

end KitTemplate
