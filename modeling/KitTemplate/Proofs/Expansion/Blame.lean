import Mathlib.Logic.Relation
import KitTemplate.Proofs.Import.Termination

/-! The places that faults come from. An expansion goes through the pieces of its source, and where
a piece is an import list through the entries of that, until one fails. Either the piece itself
fails, or the template that the entry leads to has failed, and the fault is the one that this
template failed with (`origin_of_run`). A template error of a piece names its file and its line. So
an error with a line is to be found at the directive of a source that is being expanded, in the file
that is compiled or in a template imported on the way, and an error without a line comes from
reading a file that was to be expanded. -/

namespace KitTemplate

/-- Contexts that differ in their journals only. -/
def Context.Agrees (context other : Context) : Prop :=
  context.bindings = other.bindings ∧ context.ancestry = other.ancestry

theorem Context.Agrees.trans {first second third : Context} (hfirst : first.Agrees second)
    (hsecond : second.Agrees third) : first.Agrees third :=
  ⟨hfirst.1.trans hsecond.1, hfirst.2.trans hsecond.2⟩

theorem Context.Agrees.isOpen_eq {first second : Context} (hagrees : first.Agrees second)
    (path : Path) : first.isOpen path = second.isOpen path := by
  rw [isOpen, isOpen, hagrees.2]

theorem Context.agrees_note (context : Context) (level : Int) (message : Text) :
    (context.note level message).Agrees context :=
  ⟨rfl, rfl⟩

/-- An error names a line of a file. -/
def TemplateError.IsAt (error : TemplateError) (file : Path) (line : Int) : Prop :=
  error.fileName = file.name ∧ error.line = some line

/-- A source that is expanded as that of a file, with the context in which its first piece is. -/
structure Expanding where
  file : Path
  source : Text
  context : Context

namespace Workplace

open Expansion

variable (place : Workplace)

/-- The expansion of a source comes to a piece, after those before it. -/
def ComesTo (expanding : Expanding) (before : List Piece) (piece : Piece) (reached : Context) :
    Prop :=
  (∃ after, Piece.ofSource expanding.source = before ++ piece :: after) ∧
    ∃ text, (concat (place.expandPiece place.compileFile expanding.file) before).run
      expanding.context = .ok text reached

/-- A directive comes to a template that an entry of its import list leads to, after the entries
before that one. -/
def DirectiveImports (file : Path) (directive : Directive) (opened : Context) (found : Path)
    (reached : Context) : Prop :=
  ∃ noted passed entry rest text middle, noted.Agrees opened ∧
    directive.importEntries = passed ++ entry :: rest ∧
    (concat (place.expandEntry place.compileFile file directive) passed).run noted =
      .ok text middle ∧
    place.LeadsTo file entry found ∧ place.compiler.settings.isTemplate found ∧
    middle.isOpen found = false ∧ reached.Agrees middle

/-- The expansion of a source comes to a template that it imports. -/
def ComesToImport (expanding : Expanding) (found : Path) (reached : Context) : Prop :=
  ∃ before directive opened, place.ComesTo expanding before (.directive directive) opened ∧
    place.DirectiveImports expanding.file directive opened found reached

/-- In the course of an expansion, a template is opened and its source expanded. -/
def Opens (outer inner : Expanding) : Prop :=
  ∃ reached, place.ComesToImport outer inner.file reached ∧
    inner.context.Agrees { reached with ancestry := reached.ancestry ++ [inner.file] } ∧
    place.compiler.readText place.tree inner.file [] none = .ok inner.source

/-- An error names the line of a directive that fails with it, in the file that the directive stands
in: the directive opens somewhere in the source, and up to there the source has one line terminator
less than the number of the line. -/
def BlamesDirective (expanding : Expanding) (error : TemplateError) (number : Int) : Prop :=
  error.fileName = expanding.file.name ∧
    ∃ before piece reached ended offset, place.ComesTo expanding before piece reached ∧
      (place.expandPiece place.compileFile expanding.file piece).run reached =
        .error (.template error) ended ∧
      piece.line? = some number ∧
      expanding.source.take offset = before.flatMap Piece.source ∧
      commentOpen <+: expanding.source.drop offset ∧
      number = 1 + Text.scanLineBreaks (expanding.source.take offset)

/-- An error says that a template cannot be read. -/
def BlamesTemplate (expanding : Expanding) (error : TemplateError) : Prop :=
  ∃ found reached, place.ComesToImport expanding found reached ∧
    place.compiler.readText place.tree found [] none = .error (.template error) ∧
    (error.cause.kind = .undecodable ∨ error.cause.kind = .refused)

/-- An error comes from a source that is expanded in the course of an expansion: with a line from
one of its directives, and without one from a template that it imports. -/
def Locates (outermost : Expanding) (error : TemplateError) : Prop :=
  ∃ inner, Relation.ReflTransGen place.Opens outermost inner ∧
    ((∃ number, error.line = some number ∧ place.BlamesDirective inner error number) ∨
      error.line = none ∧ place.BlamesTemplate inner error)

/-- A fault is one of a directive on a line of a file: a template error that names the line, or a
character set that has no such name. -/
def IsFaultAt (file : Path) (line : Int) (fault : Fault) : Prop :=
  Charset.named? place.compiler.settings.encoding = none ∧
      fault = .unknownEncoding place.compiler.settings.encoding ∨
    ∃ error, fault = .template error ∧ (file.name ≠ [] → error.IsAt file line)

/-- How an entry of an import list fails before it leads to a file: the path that it names has no
counterpart with an extension, or a place that is tried for it cannot be looked at or named. -/
inductive EntryFails (file : Path) (entry : Text) : Fault → Prop
  | unnamed {problem : Path.RenameError} (hspec : Import.clean entry ≠ [])
      (hproblem : place.compiler.settings.applyExtension
        (Path.absolute place.tree.workingDirectory (file.parent.child (Import.clean entry))) =
          .error problem) :
      EntryFails file entry (.rename problem)
  | alone {target : Path} {problem : Path.RenameError}
      (htarget : place.target file (Import.clean entry) = .ok target)
      (hproblem : Import.fallbacks (place.compiler.folders place.tree) target = .error problem) :
      EntryFails file entry (.rename problem)
  | denied {target path : Path} {denial : Denial}
      (htarget : place.target file (Import.clean entry) = .ok target)
      (htried : Import.IsTried (place.compiler.folders place.tree) target path)
      (hdenied : place.tree.isFile path = .error denial) :
      EntryFails file entry (.denied denial)

/-- How a piece fails by itself, and not with a template that it imports. -/
inductive PieceFails (file : Path) (context : Context) : Piece → Fault → Prop
  | located {piece : Piece} {line : Int} {fault : Fault} (hline : piece.line? = some line)
      (hfault : place.IsFaultAt file line fault) : PieceFails file context piece fault
  | entry {piece : Piece} {entry : Text} {fault : Fault} (hentry : entry ∈ piece.importEntries)
      (hfails : place.EntryFails file entry fault) : PieceFails file context piece fault
  /-- A file of the posts directory may not be looked at. -/
  | denied {directive : Directive} {name value : Text} {denial : Denial}
      (hcategory : (Registry.standard.find directive.keyword).category = .partials)
      (hname : directive.value = some name) (hvalue : context.bindings.lookup name = some value)
      (hdenied : place.tree.isFile (place.compiler.postsDirectory.child value) = .error denial) :
      PieceFails file context (.directive directive) (.denied denial)

/-- The expansion of a source comes to a piece that fails by itself. -/
def StopsAt (expanding : Expanding) (fault : Fault) : Prop :=
  ∃ before piece reached ended, place.ComesTo expanding before piece reached ∧
    (place.expandPiece place.compileFile expanding.file piece).run reached = .error fault ended ∧
    place.PieceFails expanding.file reached piece fault

/-- The expansion of a source comes to a template that cannot be read. -/
def StopsBefore (expanding : Expanding) (fault : Fault) : Prop :=
  ∃ found reached, place.ComesToImport expanding found reached ∧
    place.tree.isFile found = .ok true ∧
    place.compiler.readText place.tree found [] none = .error fault

variable {place}

/-! ### What fails -/

theorem eq_of_readText {path : Path} {name : Text} {line : Option Int} {error : TemplateError}
    (hread : place.compiler.readText place.tree path name line = .error (.template error)) :
    error.fileName = (if name = [] then path.name else name) ∧ error.line = line := by
  rcases Compiler.cases_of_readText_eq_error hread with ⟨-, hfault⟩ | ⟨cause, hfault, -⟩
  · cases hfault
  · obtain rfl := Fault.template.inj hfault
    exact ⟨rfl, rfl⟩

section Pieces

variable {file : Path} {fault : Fault} {context ended : Context}

theorem isFaultAt_of_readText {path : Path} {line : Int}
    (hread : place.compiler.readText place.tree path file.name (some line) = .error fault) :
    place.IsFaultAt file line fault := by
  rcases Compiler.cases_of_readText_eq_error hread with hencoding | ⟨cause, hfault, -⟩
  · exact Or.inl hencoding
  · exact Or.inr ⟨_, hfault, fun hfile => ⟨if_neg hfile, rfl⟩⟩

variable (place) in
theorem isFaultAt_template (cause : Cause) (file : Path) (line : Int) :
    place.IsFaultAt file line (.template ⟨cause, file.name, some line⟩) :=
  Or.inr ⟨_, rfl, fun _ => ⟨rfl, rfl⟩⟩

theorem isFaultAt_of_fail {cause : Cause} {line : Int}
    (hrun : (fail cause file line : Expansion Text).run context = .error fault ended) :
    place.IsFaultAt file line fault := by
  obtain ⟨rfl, -⟩ := EStateM.Result.error.inj hrun
  exact place.isFaultAt_template cause file line

/-- A file that an entry leads to fails at the directive, or as a template of its own. -/
theorem cases_of_expandFound {importFile : Path → Expansion Text} {directive : Directive}
    {found : Path}
    (hrun : (place.expandFound importFile file directive found).run context =
      .error fault ended) :
    place.IsFaultAt file directive.line fault ∨
      place.compiler.settings.isTemplate found ∧ context.isOpen found = false ∧
        ∃ reached ended, reached.Agrees context ∧
          (importFile found).run reached = .error fault ended := by
  unfold expandFound at hrun
  split at hrun
  · rename_i htemplate
    rw [EStateM.run_bind, EStateM.run_get] at hrun
    dsimp only at hrun
    split at hrun
    · exact Or.inl (isFaultAt_of_fail hrun)
    · rename_i hclosed
      rw [EStateM.run_bind, run_note] at hrun
      exact Or.inr ⟨htemplate, by simpa using hclosed, _, ended, context.agrees_note _ _, hrun⟩
  · rw [EStateM.run_bind, run_note] at hrun
    exact Or.inl (isFaultAt_of_readText (eq_of_run_attempt_eq_error hrun))

/-- An entry of an import list fails at the directive, or before it leads to a file, or with the
template that it leads to. -/
theorem cases_of_expandEntry {importFile : Path → Expansion Text} {directive : Directive}
    {entry : Text}
    (hrun : (place.expandEntry importFile file directive entry).run context =
      .error fault ended) :
    place.IsFaultAt file directive.line fault ∨ place.EntryFails file entry fault ∨
      ∃ found, place.LeadsTo file entry found ∧ place.compiler.settings.isTemplate found ∧
        context.isOpen found = false ∧ ∃ reached ended, reached.Agrees context ∧
          (importFile found).run reached = .error fault ended := by
  rw [expandEntry] at hrun
  split at hrun
  · exact Or.inl (isFaultAt_of_fail hrun)
  rename_i hspec
  cases htarget : place.target file (Import.clean entry) with
  | error own =>
      rw [htarget] at hrun
      obtain ⟨rfl, -⟩ := EStateM.Result.error.inj hrun
      obtain ⟨problem, hproblem, rfl⟩ := exists_of_target_eq_error htarget
      exact Or.inr (Or.inl (.unnamed hspec hproblem))
  | ok target =>
      rw [htarget, attempt_ok, pure_bind] at hrun
      cases hresolve : Import.resolve place.tree (place.compiler.folders place.tree) target with
      | error own =>
          rw [findFile, hresolve] at hrun
          obtain ⟨rfl, -⟩ := EStateM.Result.error.inj hrun
          refine Or.inr (Or.inl ?_)
          rcases Import.cases_of_resolve_eq_error hresolve with
            ⟨denial, ⟨path, htried, hdenied⟩, rfl⟩ | ⟨problem, hproblem, rfl⟩
          · exact .denied htarget htried hdenied
          · exact .alone htarget hproblem
      | ok result =>
          cases result with
          | none =>
              rw [findFile, hresolve] at hrun
              exact Or.inl (isFaultAt_of_fail hrun)
          | some found =>
              have hleads : place.LeadsTo file entry found := ⟨hspec, target, htarget, hresolve⟩
              obtain ⟨noted, hnoted, hfound⟩ : ∃ noted, noted.Agrees context ∧
                  (place.expandFound importFile file directive found).run noted =
                    .error fault ended := by
                simp only [findFile, hresolve, attempt_ok, pure_bind] at hrun
                by_cases hne : found ≠ target
                · simp only [if_pos hne, bind_assoc, pure_bind] at hrun
                  rw [EStateM.run_bind, run_note] at hrun
                  exact ⟨_, context.agrees_note _ _, hrun⟩
                · simp only [if_neg hne, pure_bind] at hrun
                  exact ⟨context, ⟨rfl, rfl⟩, hrun⟩
              rcases cases_of_expandFound hfound with
                hat | ⟨htemplate, hclosed, reached, ended, hreached, himport⟩
              · exact Or.inl hat
              · rw [hnoted.isOpen_eq] at hclosed
                exact Or.inr (Or.inr ⟨found, hleads, htemplate, hclosed, reached, ended,
                  hreached.trans hnoted, himport⟩)

/-- A piece fails by itself, or with a template that it imports. -/
theorem cases_of_expandPiece {piece : Piece}
    (hrun : (place.expandPiece place.compileFile file piece).run context = .error fault ended) :
    place.PieceFails file context piece fault ∨
      ∃ directive found reached ended, piece = .directive directive ∧
        place.DirectiveImports file directive context found reached ∧
          (place.compileFile found).run reached = .error fault ended := by
  cases piece with
  | literal text => cases hrun
  | broken problem line => exact Or.inl (.located rfl (isFaultAt_of_fail hrun))
  | directive directive =>
      have hnoted := context.agrees_note 3
        ("line ".toList ++ Text.ofInt directive.line ++ ": ".toList ++ directive.keyword)
      rw [expandPiece, expandDirective] at hrun
      simp only [EStateM.run_bind, run_note] at hrun
      split at hrun
      · unfold expandVariable at hrun
        split at hrun
        · cases hrun
        · rcases run_withValue_eq_error hrun with rfl | ⟨value, -, hvalue⟩
          · exact Or.inl (.located rfl (place.isFaultAt_template _ file directive.line))
          · cases hvalue
      · rename_i value hcategory hvalue
        obtain ⟨passed, entry, rest, text, middle, hentries, hpassed, hentry⟩ :=
          exists_of_run_concat hrun
        have hlist : directive.importEntries = passed ++ entry :: rest := by
          rw [← hentries, Directive.importEntries, hcategory, hvalue]
        rcases cases_of_expandEntry hentry with
          hat | hfails | ⟨found, hleads, htemplate, hclosed, reached, ended, hreached, himport⟩
        · exact Or.inl (.located rfl hat)
        · refine Or.inl (.entry ?_ hfails)
          rw [Piece.importEntries, hlist]
          exact List.mem_append_right _ List.mem_cons_self
        · exact Or.inr ⟨directive, found, reached, ended, rfl, ⟨_, passed, entry, rest, text,
            middle, hnoted, hlist, hpassed, hleads, htemplate, hclosed, hreached⟩, himport⟩
      · rename_i name hcategory hname
        rcases cases_of_expandPartial hrun with
          rfl | ⟨value, hvalue, ⟨denial, hdenied, rfl⟩ | rfl | hread⟩
        · exact Or.inl (.located rfl (place.isFaultAt_template _ file directive.line))
        · exact Or.inl (.denied hcategory hname (hnoted.1 ▸ hvalue) hdenied)
        · exact Or.inl (.located rfl (place.isFaultAt_template _ file directive.line))
        · exact Or.inl (.located rfl (isFaultAt_of_readText hread))
      · exact Or.inl (.located rfl (isFaultAt_of_fail hrun))

end Pieces

theorem exists_of_expandText {file : Path} {source : Text} {fault : Fault} {context ended : Context}
    (hrun : (place.expandText file source).run context = .error fault ended) :
    ∃ start, start.Agrees context ∧
      (concat (place.expandPiece place.compileFile file) (Piece.ofSource source)).run start =
        .error fault ended := by
  rw [expandText, expandSource, EStateM.run_bind, run_note] at hrun
  exact ⟨_, context.agrees_note _ _, hrun⟩

/-- The expansion of a file fails because the file cannot be read, or inside its source. -/
theorem cases_of_compileFile {path : Path} {fault : Fault} {context ended : Context}
    (hclosed : context.isOpen path = false)
    (hrun : (place.compileFile path).run context = .error fault ended) :
    place.compiler.readText place.tree path [] none = .error fault ∨
      ∃ source start ended, place.compiler.readText place.tree path [] none = .ok source ∧
        start.Agrees { context with ancestry := context.ancestry ++ [path] } ∧
          (concat (place.expandPiece place.compileFile path) (Piece.ofSource source)).run start =
            .error fault ended := by
  rw [compileFile_eq] at hrun
  rcases run_inside_eq_error hrun with ⟨hopen, -⟩ | ⟨reached, hinside⟩
  · rw [hclosed] at hopen
    cases hopen
  obtain ⟨ended, htagged⟩ := run_tagged_eq_error hinside
  cases hread : place.compiler.readText place.tree path [] none with
  | error own =>
      rw [hread] at htagged
      obtain ⟨rfl, -⟩ := EStateM.Result.error.inj htagged
      exact Or.inl rfl
  | ok source =>
      rw [hread, attempt_ok, pure_bind] at htagged
      obtain ⟨start, hstart, hpieces⟩ := exists_of_expandText htagged
      exact Or.inr ⟨source, start, ended, rfl, hstart, hpieces⟩

/-- A file that is there fails to be read only for what it holds. -/
theorem kind_of_readText {path : Path} {name : Text} {line : Option Int} {error : TemplateError}
    (hfile : place.tree.isFile path = .ok true)
    (hread : place.compiler.readText place.tree path name line = .error (.template error)) :
    error.cause.kind = .undecodable := by
  obtain ⟨content, hcontent⟩ := FileTree.read_of_isFile hfile
  rcases Compiler.cases_of_readText_eq_error hread with
    ⟨-, hfault⟩ | ⟨cause, hfault, hkind | ⟨⟨refusal, hrefusal⟩, -⟩⟩
  · cases hfault
  · rwa [Fault.template.inj hfault]
  · rw [hcontent] at hrefusal
    cases hrefusal

theorem ancestry_of_comesTo {expanding : Expanding} {before : List Piece} {piece : Piece}
    {reached : Context} (hcomes : place.ComesTo expanding before piece reached) :
    reached.ancestry = expanding.context.ancestry := by
  obtain ⟨-, text, hrun⟩ := hcomes
  exact (performs_pieces performs_compileFile expanding.file before).ancestry_eq hrun

theorem ancestry_of_directiveImports {file : Path} {directive : Directive} {opened : Context}
    {found : Path} {reached : Context}
    (himports : place.DirectiveImports file directive opened found reached) :
    reached.ancestry = opened.ancestry := by
  obtain ⟨noted, passed, entry, rest, text, middle, hnoted, -, hrun, -, -, -, hreached⟩ := himports
  have hmiddle :=
    (performs_entries performs_compileFile file directive passed).ancestry_eq hrun
  calc reached.ancestry
      = middle.ancestry := hreached.2
    _ = noted.ancestry := hmiddle
    _ = opened.ancestry := hnoted.2

theorem sourceImports_of_comesToImport {expanding : Expanding} {found : Path} {reached : Context}
    (hcomes : place.ComesToImport expanding found reached) :
    place.SourceImports expanding.file expanding.source found ∧
      reached.ancestry = expanding.context.ancestry ∧
      ¬ Context.isAmong expanding.context.ancestry found := by
  obtain ⟨before, directive, opened, hpiece, himports⟩ := hcomes
  have hopened := ancestry_of_comesTo hpiece
  have hreached := ancestry_of_directiveImports himports
  obtain ⟨⟨after, hpieces⟩, -⟩ := hpiece
  obtain ⟨noted, passed, entry, rest, text, middle, -, hentries, -, hleads, htemplate, hclosed,
    hagrees⟩ := himports
  refine ⟨⟨⟨.directive directive, ?_, entry, ?_, hleads⟩, htemplate⟩, hreached.trans hopened, ?_⟩
  · rw [hpieces]
    exact List.mem_append_right _ List.mem_cons_self
  · rw [Piece.importEntries, hentries]
    exact List.mem_append_right _ List.mem_cons_self
  · rw [Context.isOpen, ← hagrees.2, hreached, hopened] at hclosed
    simpa using hclosed

theorem Opens.name_ne_nil {outer inner : Expanding} (hopens : place.Opens outer inner) :
    inner.file.name ≠ [] := by
  obtain ⟨reached, himport, -, -⟩ := hopens
  obtain ⟨⟨⟨-, -, entry, -, hleads⟩, -⟩, -, -⟩ := sourceImports_of_comesToImport himport
  exact hleads.name_ne_nil

/-- Where the fault of an expansion comes from. -/
theorem origin_of_run (expanding : Expanding) {fault : Fault} {ended : Context}
    (hrun : (concat (place.expandPiece place.compileFile expanding.file)
      (Piece.ofSource expanding.source)).run expanding.context = .error fault ended) :
    ∃ inner, Relation.ReflTransGen place.Opens expanding inner ∧
      (place.StopsAt inner fault ∨ place.StopsBefore inner fault) := by
  -- with every template that is opened there is one less to open
  induction hcount : (place.unopened expanding.context.ancestry).ncard using
    Nat.strong_induction_on generalizing expanding ended with
  | _ count ih =>
      obtain ⟨before, piece, after, text, reached, hpieces, hbefore, hpiece⟩ :=
        exists_of_run_concat hrun
      have hcomes : place.ComesTo expanding before piece reached :=
        ⟨⟨after, hpieces⟩, text, hbefore⟩
      rcases cases_of_expandPiece hpiece with
        hfails | ⟨directive, found, opened, ended', rfl, himports, hfound⟩
      · exact ⟨expanding, .refl, Or.inl ⟨before, piece, reached, ended, hcomes, hpiece, hfails⟩⟩
      · have himport : place.ComesToImport expanding found opened :=
          ⟨before, directive, reached, hcomes, himports⟩
        obtain ⟨hedge, hancestry, hclosed⟩ := sourceImports_of_comesToImport himport
        obtain ⟨-, -, entry, -, hleads⟩ := hedge.leadsTo
        have hopen : opened.isOpen found = false := by
          rw [Context.isOpen, hancestry]
          simpa using hclosed
        rcases cases_of_compileFile hopen hfound with
          hread | ⟨source, start, ended, hread, hstart, hinner⟩
        · exact ⟨expanding, .refl, Or.inr ⟨found, opened, himport, hleads.isFile, hread⟩⟩
        · have hopens : place.Opens expanding ⟨found, source, start⟩ :=
            ⟨opened, himport, hstart, hread⟩
          have hlt : (place.unopened start.ancestry).ncard < count := by
            rw [hstart.2, hancestry, ← hcount]
            exact ncard_unopened_lt hedge hclosed
          obtain ⟨inner, hpath, hstops⟩ := ih _ hlt ⟨found, source, start⟩ hinner rfl
          exact ⟨inner, .head hopens hpath, hstops⟩

/-- A template error of a piece that fails by itself is located in the file that the piece is in. -/
theorem PieceFails.isAt {file : Path} {context : Context} {piece : Piece} {error : TemplateError}
    (hfails : place.PieceFails file context piece (.template error)) (hfile : file.name ≠ []) :
    ∃ line, piece.line? = some line ∧ error.IsAt file line := by
  cases hfails with
  | located hline hfault =>
      rcases hfault with ⟨-, hencoding⟩ | ⟨own, htemplate, hat⟩
      · cases hencoding
      · obtain rfl := Fault.template.inj htemplate
        exact ⟨_, hline, hat hfile⟩
  | entry _ hentry => cases hentry

/-- Where the error of an expansion comes from. -/
theorem locates_of_run {expanding : Expanding} (hfile : expanding.file.name ≠ [])
    {error : TemplateError} {ended : Context}
    (hrun : (concat (place.expandPiece place.compileFile expanding.file)
      (Piece.ofSource expanding.source)).run expanding.context = .error (.template error) ended) :
    place.Locates expanding error := by
  obtain ⟨inner, hpath, hstops | ⟨found, reached, himport, hfound, hread⟩⟩ :=
    origin_of_run expanding hrun
  · obtain ⟨before, piece, reached, ended, hcomes, hpiece, hfails⟩ := hstops
    have hinner : inner.file.name ≠ [] := by
      rcases hpath.cases_tail with rfl | ⟨outer, -, hopens⟩
      · exact hfile
      · exact hopens.name_ne_nil
    obtain ⟨number, hline, hname, hnumber⟩ := hfails.isAt hinner
    obtain ⟨after, hpieces⟩ := hcomes.1
    obtain ⟨⟨rest, hrest⟩, hcount⟩ := Piece.opens_of_ofSource hpieces hline
    refine ⟨inner, hpath, Or.inl ⟨number, hnumber, hname, before, piece, reached, ended,
      (before.flatMap Piece.source).length, hcomes, hpiece, hline, ?_, ?_, ?_⟩⟩
    · rw [← hrest, List.append_assoc, List.take_left]
    · rw [← hrest, List.append_assoc, List.drop_left]
      exact List.prefix_append _ _
    · rw [← hrest, List.append_assoc, List.take_left]
      exact hcount
  · exact ⟨inner, hpath, Or.inr ⟨(eq_of_readText hread).2, found, reached, himport, hread,
      Or.inl (kind_of_readText hfound hread)⟩⟩

end Workplace

end KitTemplate
