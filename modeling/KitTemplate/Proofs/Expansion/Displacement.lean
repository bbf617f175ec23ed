import KitTemplate.Proofs.Expansion.Matching

/-! Sources that begin on another line. The pieces of a source that begins further down are the
same with their lines raised (`Cursor.pieces_raise`). Its expansion then yields the same text, or
fails in the same place: a template error of the source itself names the line raised, and whatever
goes wrong in a template that the source imports stays as it is (`matches_expandFrom`). -/

namespace KitTemplate

open Text

/-- A piece that stands some lines further down. -/
def Piece.raise (lines : Int) : Piece → Piece
  | literal text => literal text
  | directive found => directive { found with line := found.line + lines }
  | broken problem line => broken problem (line + lines)

theorem Directive.read_raise (opening : Token) (following : List Token) (line lines : Int) :
    read opening following (line + lines) = (read opening following line).map fun found =>
      ({ found.1 with line := found.1.line + lines }, found.2) := by
  simp only [read]
  split
  · rfl
  · split <;> rfl

namespace Cursor

theorem step?_raise (tokens : List Token) (line lines : Int) :
    step? ⟨tokens, line + lines⟩ = (step? ⟨tokens, line⟩).map fun found =>
      (found.1.map (Piece.raise lines), ⟨found.2.tokens, found.2.line + lines⟩) := by
  have hline (count : Int) : line + lines + count = line + count + lines := by omega
  cases tokens with
  | nil => rfl
  | cons token following =>
      simp only [step?]
      cases hcut : cut? commentOpen token with
      | none => simp [Piece.raise, hline]
      | some sides =>
          obtain ⟨before, after⟩ := sides
          dsimp only
          split
          · rw [Directive.read_raise]
            cases Directive.read (commentOpen ++ after) following line with
            | error problem => rfl
            | ok found =>
                obtain ⟨directive, remaining⟩ := found
                have hsuffix : Directive.suffix { directive with line := directive.line + lines } =
                  directive.suffix := rfl
                have hsource : Directive.source { directive with line := directive.line + lines } =
                  directive.source := rfl
                simp only [Except.map, hsuffix, hsource, hline]
                split <;> rfl
          · simp [Piece.raise, hline]

theorem pieces_raise (cursor : Cursor) (lines : Int) :
    pieces ⟨cursor.tokens, cursor.line + lines⟩ = cursor.pieces.map (Piece.raise lines) := by
  induction cursor using Cursor.pieces.induct with
  | case1 cursor hstep =>
      have hraised := step?_raise cursor.tokens cursor.line lines
      rw [hstep] at hraised
      rw [pieces_of_step?_eq_none hstep, pieces_of_step?_eq_none hraised, List.map_nil]
  | case2 cursor found next hstep ih =>
      have hraised := step?_raise cursor.tokens cursor.line lines
      rw [hstep] at hraised
      rw [pieces_of_step?_eq_some hstep, pieces_of_step?_eq_some hraised, List.map_append, ← ih]

end Cursor

/-- Causes of the same kind. -/
def Cause.Resembles (cause cause' : Cause) : Prop := cause'.kind = cause.kind

/-- A template error of one line becomes one of another line, with the same file and a like cause.
Any other fault stays as it is. -/
def Fault.MovesTo (like : Cause → Cause → Prop) (line line' : Int) : Fault → Fault → Prop
  | .template error, .template error' =>
    like error.cause error'.cause ∧ error'.fileName = error.fileName ∧
      error.line = some line ∧ error'.line = some line'
  | fault, fault' => fault' = fault

theorem Fault.MovesTo.eq {line : Int} {fault fault' : Fault}
    (hmoves : fault.MovesTo Eq line line fault') : fault' = fault := by
  unfold MovesTo at hmoves
  split at hmoves
  · rename_i error error'
    obtain ⟨hcause, hname, hline, hline'⟩ := hmoves
    obtain ⟨cause, name, number⟩ := error
    obtain ⟨cause', name', number'⟩ := error'
    simp_all
  · exact hmoves

namespace Workplace

open Expansion

variable (place : Workplace)

/-- An entry of an import list leads to a template that is not open yet. -/
def EntryImports (file : Path) (entry : Text) (context : Context) (found : Path) : Prop :=
  place.LeadsTo file entry found ∧ place.compiler.settings.isTemplate found ∧
    context.isOpen found = false

/-- The template that an entry of an import list leads to fails. -/
def EntryFailsInImport (file : Path) (entry : Text) (context : Context) (fault : Fault) : Prop :=
  ∃ found reached ended, place.EntryImports file entry context found ∧ reached.Agrees context ∧
    (place.compileFile found).run reached = .error fault ended

/-- A directive comes to a template that fails. -/
def DirectiveFailsInImport (file : Path) (directive : Directive) (context : Context)
    (fault : Fault) : Prop :=
  ∃ found reached ended, place.DirectiveImports file directive context found reached ∧
    (place.compileFile found).run reached = .error fault ended

/-- A piece is a directive that comes to a template that fails. -/
def PieceFailsInImport (file : Path) (piece : Piece) (context : Context) (fault : Fault) : Prop :=
  ∃ directive, piece = .directive directive ∧
    place.DirectiveFailsInImport file directive context fault

/-- The expansion of a source comes to a template that it imports and that fails. -/
def FailsInImport (expanding : Expanding) (fault : Fault) : Prop :=
  ∃ found reached ended, place.ComesToImport expanding found reached ∧
    (place.compileFile found).run reached = .error fault ended

/-- What becomes of the fault of a source that begins some lines further down: one of an imported
template stays as it is, and one of the source itself moves with its line. -/
def MovesDown (expanding : Expanding) (lines : Int) : Fault → Fault → Prop :=
  SameOr (place.FailsInImport expanding) fun fault fault' =>
    ∃ line, fault.MovesTo Eq line (line + lines) fault'

/-- The expansion of a source that begins on a line of its file. -/
def expandFrom (line : Int) (file : Path) (source : Text) : Expansion Text :=
  concat (place.expandPiece place.compileFile file) (Cursor.pieces ⟨Token.split source, line⟩)

variable {place}

/-! ### Work on one line and on another -/

section Lines

variable {like : Cause → Cause → Prop} {file : Path} {line line' : Int} {context context' : Context}
  (hagrees : context'.Agrees context)

include hagrees

theorem matches_fail {cause cause' : Cause} (hlike : like cause cause') :
    Matches (Fault.MovesTo like line line') ((fail cause file line : Expansion Text).run context)
      ((fail cause' file line' : Expansion Text).run context') :=
  .error ⟨hlike, rfl, rfl, rfl⟩ hagrees

variable (hlike : ∀ cause, like cause cause)

include hlike

theorem matches_readText (path : Path) (name : Text) :
    Matches (Fault.MovesTo like line line')
      ((attempt (place.compiler.readText place.tree path name (some line))).run context)
      ((attempt (place.compiler.readText place.tree path name (some line'))).run context') := by
  rw [Compiler.readText, Compiler.readText]
  cases place.tree.read path with
  | error refusal =>
      cases refusal <;> exact .error ⟨hlike _, rfl, rfl, rfl⟩ hagrees
  | ok bytes =>
      dsimp only
      cases Charset.named? place.compiler.settings.encoding with
      | none => exact .error rfl hagrees
      | some charset =>
          dsimp only
          cases charset.decode bytes with
          | error problem => exact .error ⟨hlike _, rfl, rfl, rfl⟩ hagrees
          | ok text => exact .ok hagrees

theorem matches_use (name : Text) :
    Matches (Fault.MovesTo like line line') ((withValue name file line pure).run context)
      ((withValue name file line' pure : Expansion Text).run context') := by
  rw [run_withValue, run_withValue, hagrees.1]
  cases context.bindings.lookup name with
  | none => exact matches_fail hagrees (hlike _)
  | some value => exact .ok hagrees

theorem matches_expandPartial (name : Text) :
    Matches (Fault.MovesTo like line line') ((place.expandPartial file line name).run context)
      ((place.expandPartial file line' name).run context') := by
  rw [expandPartial, expandPartial, run_withValue, run_withValue, hagrees.1]
  cases context.bindings.lookup name with
  | none => exact matches_fail hagrees (hlike _)
  | some value =>
      dsimp only [Option.elim]
      cases hfile : (place.tree.isFile (place.compiler.postsDirectory.child value)).mapError
          Fault.denied with
      | error fault =>
          obtain ⟨denial, -, rfl⟩ := exists_of_mapError_eq_error hfile
          exact .error rfl hagrees
      | ok found =>
          rw [attempt_ok, pure_bind, pure_bind]
          cases found with
          | false => exact matches_fail hagrees (hlike _)
          | true =>
              exact Matches.note hagrees fun noted noted' _ hnoted =>
                matches_readText hnoted hlike _ _

end Lines

/-! ### Entries of import lists -/

section Entries

variable {file : Path} {entry : Text} {found : Path}

/-- An entry that leads to a file is a matter of that file. -/
theorem run_expandEntry_of_leadsTo (hleads : place.LeadsTo file entry found)
    (importFile : Path → Expansion Text) (directive : Directive) (context : Context) :
    ∃ noted, noted.Agrees context ∧
      (place.expandEntry importFile file directive entry).run context =
        (place.expandFound importFile file directive found).run noted := by
  obtain ⟨hspec, target, htarget, hresolve⟩ := hleads
  simp only [expandEntry, if_neg hspec, htarget, attempt_ok, pure_bind, findFile, hresolve]
  by_cases hne : found ≠ target
  · rw [if_pos hne]
    exact ⟨_, context.agrees_note _ _, rfl⟩
  · rw [if_neg hne]
    exact ⟨context, .refl context, rfl⟩

theorem run_expandFound_of_isTemplate (htemplate : place.compiler.settings.isTemplate found)
    (importFile : Path → Expansion Text) (directive : Directive) {context : Context}
    (hclosed : context.isOpen found = false) : ∃ noted, noted.Agrees context ∧
      (place.expandFound importFile file directive found).run context =
        (importFile found).run noted := by
  refine ⟨_, context.agrees_note 2 ("importing ".toList ++ found.toText), ?_⟩
  rw [expandFound, if_pos htemplate, EStateM.run_bind, EStateM.run_get]
  dsimp only
  rw [if_neg (by simp [hclosed]), EStateM.run_bind, run_note]

theorem run_expandEntry_of_entryImports {context : Context}
    (himports : place.EntryImports file entry context found) (importFile : Path → Expansion Text)
    (directive : Directive) : ∃ noted, noted.Agrees context ∧
      (place.expandEntry importFile file directive entry).run context =
        (importFile found).run noted := by
  obtain ⟨hleads, htemplate, hclosed⟩ := himports
  obtain ⟨noted, hnoted, hrun⟩ := run_expandEntry_of_leadsTo hleads importFile directive context
  rw [← hnoted.isOpen_eq] at hclosed
  obtain ⟨inside, hinside, hfound⟩ :=
    run_expandFound_of_isTemplate htemplate importFile directive hclosed
  exact ⟨inside, hinside.trans hnoted, hrun.trans hfound⟩

theorem exists_of_entryFailsInImport (file : Path) (directive : Directive) (entry : Text)
    (context : Context) (fault : Fault)
    (hfails : place.EntryFailsInImport file entry context fault) :
    ∃ ended, (place.expandEntry place.compileFile file directive entry).run context =
      .error fault ended := by
  obtain ⟨found, reached, ended, himports, hreached, hrun⟩ := hfails
  obtain ⟨noted, hnoted, hentry⟩ :=
    run_expandEntry_of_entryImports himports place.compileFile directive
  have hmatches := place.steady_compileFile found _ _ (hnoted.trans hreached.symm)
  rw [hrun] at hmatches
  obtain ⟨fault', ended', hfails, rfl, -⟩ := hmatches.of_error
  exact ⟨ended', hentry.trans hfails⟩

variable {directive directive' : Directive} {like : Cause → Cause → Prop}
  (hvalue : directive'.value = directive.value) (hlike : ∀ cause, like cause cause)
  {context context' : Context} (hagrees : context'.Agrees context)

include hvalue hlike hagrees

/-- An entry that imports no template fails by itself. -/
theorem matches_expandEntry_of_not_entryImports (importFile : Path → Expansion Text)
    (hnone : ∀ found, ¬ place.EntryImports file entry context found) :
    Matches (Fault.MovesTo like directive.line directive'.line)
      ((place.expandEntry importFile file directive entry).run context)
      ((place.expandEntry importFile file directive' entry).run context') := by
  by_cases hleads : ∃ found, place.LeadsTo file entry found
  · obtain ⟨found, hleads⟩ := hleads
    obtain ⟨noted, hnoted, hrun⟩ := run_expandEntry_of_leadsTo hleads importFile directive context
    obtain ⟨noted', hnoted', hrun'⟩ :=
      run_expandEntry_of_leadsTo hleads importFile directive' context'
    have hagrees' : noted'.Agrees noted := hnoted'.trans (hagrees.trans hnoted.symm)
    rw [hrun, hrun', expandFound, expandFound]
    split
    · rename_i htemplate
      have hopen : context.isOpen found := by
        by_contra hclosed
        exact hnone found ⟨hleads, htemplate, by simpa using hclosed⟩
      rw [← hnoted.isOpen_eq] at hopen
      have hopen' : noted'.isOpen found := by rwa [hagrees'.isOpen_eq]
      simp only [EStateM.run_bind, EStateM.run_get, if_pos hopen, if_pos hopen']
      exact matches_fail hagrees' (hlike _)
    · exact Matches.note hagrees' fun _ _ _ hnoted => matches_readText hnoted hlike _ _
  -- the entry does not lead to a file at all
  rw [expandEntry, expandEntry]
  by_cases hspec : Import.clean entry = []
  · rw [if_pos hspec, if_pos hspec, hvalue]
    exact matches_fail hagrees (hlike _)
  rw [if_neg hspec, if_neg hspec]
  cases htarget : place.target file (Import.clean entry) with
  | error fault =>
      obtain ⟨problem, -, rfl⟩ := exists_of_target_eq_error htarget
      exact .error rfl hagrees
  | ok target =>
      simp only [attempt_ok, pure_bind, findFile]
      cases hresolve : Import.resolve place.tree (place.compiler.folders place.tree) target with
      | error fault =>
          rcases Import.cases_of_resolve_eq_error hresolve with
            ⟨denial, -, rfl⟩ | ⟨problem, -, rfl⟩
          · exact .error rfl hagrees
          · exact .error rfl hagrees
      | ok result =>
          cases result with
          | none => exact matches_fail hagrees (hlike _)
          | some found => exact absurd ⟨found, hspec, target, htarget, hresolve⟩ hleads

theorem matches_expandEntry :
    Matches (SameOr (place.EntryFailsInImport file entry context)
        (Fault.MovesTo like directive.line directive'.line))
      ((place.expandEntry place.compileFile file directive entry).run context)
      ((place.expandEntry place.compileFile file directive' entry).run context') := by
  by_cases himports : ∃ found, place.EntryImports file entry context found
  · obtain ⟨found, himports⟩ := himports
    have himports' : place.EntryImports file entry context' found :=
      ⟨himports.1, himports.2.1, by rw [hagrees.isOpen_eq, himports.2.2]⟩
    obtain ⟨noted, hnoted, hrun⟩ :=
      run_expandEntry_of_entryImports himports place.compileFile directive
    obtain ⟨noted', hnoted', hrun'⟩ :=
      run_expandEntry_of_entryImports himports' place.compileFile directive'
    have hmatches := place.steady_compileFile found _ _ (hnoted'.trans (hagrees.trans hnoted.symm))
    rw [hrun, hrun']
    refine hmatches.mono fun fault ended fault' hfails hsame => ⟨fun _ => hsame.symm, ?_⟩
    exact fun hnone => absurd ⟨found, noted, ended, himports, hnoted, hfails⟩ hnone
  · rw [not_exists] at himports
    refine (matches_expandEntry_of_not_entryImports hvalue hlike hagrees place.compileFile
      himports).mono fun fault ended fault' _ hmoves => ⟨?_, fun _ => hmoves⟩
    rintro ⟨found, -, -, hfound, -⟩
    exact absurd hfound (himports found)

theorem matches_entries (entries : List Text) :
    Matches (SameOr (FailsWithin (place.expandEntry place.compileFile file directive)
          (place.EntryFailsInImport file) entries context)
        (Fault.MovesTo like directive.line directive'.line))
      ((concat (place.expandEntry place.compileFile file directive) entries).run context)
      ((concat (place.expandEntry place.compileFile file directive') entries).run context') := by
  have hwork (entry : Text) (context context' : Context) (hagrees : context'.Agrees context) :
      Matches (SameOr (place.EntryFailsInImport file entry context)
          (Fault.MovesTo like directive.line directive'.line))
        ((place.expandEntry place.compileFile file directive entry).run context)
        ((place.expandEntry place.compileFile file directive' entry).run context') :=
    matches_expandEntry hvalue hlike hagrees
  exact matches_concat (exists_of_entryFailsInImport file directive) hwork entries hagrees

end Entries

/-- Work that is only compared with itself is steady. -/
theorem steady_of_matches {work : Expansion Text} {same : Context → Fault → Prop} {line : Int}
    (hmatches : ∀ context context', context'.Agrees context →
      Matches (SameOr (same context) (Fault.MovesTo Eq line line)) (work.run context)
        (work.run context')) : Steady work := by
  intro context context' hagrees
  refine (hmatches context context' hagrees).mono fun fault _ fault' _ hlike => ?_
  by_cases hsame : same context fault
  · exact (hlike.1 hsame).symm
  · exact (hlike.2 hsame).eq.symm

theorem steady_expandEntry (file : Path) (directive : Directive) (entry : Text) :
    Steady (place.expandEntry place.compileFile file directive entry) :=
  steady_of_matches fun _ _ hagrees => matches_expandEntry rfl (fun _ => rfl) hagrees

theorem EntryFailsInImport.of_agrees {file : Path} {entry : Text} {context context' : Context}
    {fault : Fault} (hagrees : context'.Agrees context)
    (hfails : place.EntryFailsInImport file entry context fault) :
    place.EntryFailsInImport file entry context' fault := by
  obtain ⟨found, reached, ended, ⟨hleads, htemplate, hclosed⟩, hreached, hrun⟩ := hfails
  exact ⟨found, reached, ended, ⟨hleads, htemplate, by rw [hagrees.isOpen_eq, hclosed]⟩,
    hreached.trans hagrees.symm, hrun⟩

/-! ### Directives -/

section Directives

variable {file : Path}

/-- A directive fails in a template that it imports if one of the entries of its list does. -/
theorem directiveFailsInImport_iff {directive : Directive} {context noted : Context}
    (hnoted : noted.Agrees context) {fault : Fault} :
    place.DirectiveFailsInImport file directive context fault ↔
      FailsWithin (place.expandEntry place.compileFile file directive)
        (place.EntryFailsInImport file) directive.importEntries noted fault := by
  constructor
  · rintro ⟨found, reached, ended, ⟨noted', passed, entry, rest, text, middle, hnoted', hentries,
      hpassed, hleads, htemplate, hclosed, hreached⟩, hrun⟩
    have hwithin : FailsWithin (place.expandEntry place.compileFile file directive)
        (place.EntryFailsInImport file) directive.importEntries noted' fault :=
      ⟨passed, entry, rest, text, middle, hentries, hpassed, found, reached, ended,
        ⟨hleads, htemplate, hclosed⟩, hreached, hrun⟩
    exact hwithin.of_agrees (steady_expandEntry file directive)
      (fun _ _ _ _ => EntryFailsInImport.of_agrees) (hnoted.trans hnoted'.symm)
  · rintro ⟨passed, entry, rest, text, middle, hentries, hpassed, found, reached, ended,
      ⟨hleads, htemplate, hclosed⟩, hreached, hrun⟩
    exact ⟨found, reached, ended, ⟨noted, passed, entry, rest, text, middle, hnoted, hentries,
      hpassed, hleads, htemplate, hclosed, hreached⟩, hrun⟩

variable {directive directive' : Directive} {like : Cause → Cause → Prop}
  (hkeyword : directive'.keyword = directive.keyword) (hvalue : directive'.value = directive.value)
  (hlike : ∀ cause, like cause cause)
  (hmissing : like (.valueMissing directive.keyword (strip directive.source))
    (.valueMissing directive'.keyword (strip directive'.source)))
  {context context' : Context} (hagrees : context'.Agrees context)

include hkeyword hvalue hlike hmissing hagrees

theorem matches_expandDirective :
    Matches (SameOr (place.DirectiveFailsInImport file directive context)
        (Fault.MovesTo like directive.line directive'.line))
      ((place.expandDirective place.compileFile file directive).run context)
      ((place.expandDirective place.compileFile file directive').run context') := by
  have hown (hentries : directive.importEntries = [])
      {outcome outcome' : EStateM.Result Fault Context Text}
      (hmatches : Matches (Fault.MovesTo like directive.line directive'.line) outcome outcome') :
      Matches (SameOr (place.DirectiveFailsInImport file directive context)
        (Fault.MovesTo like directive.line directive'.line)) outcome outcome' := by
    refine hmatches.mono fun fault ended fault' _ hmoves => ⟨?_, fun _ => hmoves⟩
    rintro ⟨-, -, -, ⟨-, passed, entry, rest, -, -, -, hlist, -⟩, -⟩
    rw [hentries] at hlist
    simp at hlist
  rw [expandDirective, expandDirective, hkeyword, hvalue]
  refine Matches.note hagrees fun noted noted' hnoted hnoted' => ?_
  cases hcategory : (Registry.standard.find directive.keyword).category with
  | values =>
      refine hown (by rw [Directive.importEntries, hcategory]) ?_
      dsimp only
      rw [expandVariable, expandVariable, hvalue, hkeyword]
      cases directive.value with
      | some value => exact .ok ((hnoted'.assign _ _).note _ _ _ _)
      | none => exact matches_use hnoted' hlike directive.keyword
  | imports =>
      cases hlist : directive.value with
      | none =>
          refine hown (by rw [Directive.importEntries, hcategory, hlist]) ?_
          rw [hkeyword] at hmissing
          exact matches_fail hnoted' hmissing
      | some value =>
          have hentries : directive.importEntries = value.splitOn ',' := by
            rw [Directive.importEntries, hcategory, hlist]
          refine (matches_entries hvalue hlike hnoted' (value.splitOn ',')).mono
            fun fault ended fault' _ hmoves => ?_
          rwa [SameOr, directiveFailsInImport_iff hnoted, hentries]
  | partials =>
      cases hname : directive.value with
      | none =>
          refine hown (by rw [Directive.importEntries, hcategory]) ?_
          rw [hkeyword] at hmissing
          exact matches_fail hnoted' hmissing
      | some name =>
          refine hown (by rw [Directive.importEntries, hcategory]) ?_
          exact matches_expandPartial hnoted' hlike name

end Directives

/-- A directive with an import list is a matter of the entries of the list. -/
theorem run_expandDirective_of_importEntries (importFile : Path → Expansion Text) (file : Path)
    {directive : Directive} (hentries : directive.importEntries ≠ []) (context : Context) :
    ∃ noted, noted.Agrees context ∧
      (place.expandDirective importFile file directive).run context =
        (concat (place.expandEntry importFile file directive) directive.importEntries).run
          noted := by
  refine ⟨_, context.agrees_note 3
    ("line ".toList ++ Text.ofInt directive.line ++ ": ".toList ++ directive.keyword), ?_⟩
  rw [expandDirective, EStateM.run_bind, run_note]
  rw [Directive.importEntries] at hentries ⊢
  split at hentries
  · rename_i value hcategory hvalue
    simp only [hcategory, hvalue]
  · exact absurd rfl hentries

theorem exists_of_directiveFailsInImport {file : Path} {directive : Directive} {context : Context}
    {fault : Fault} (hfails : place.DirectiveFailsInImport file directive context fault) :
    ∃ ended, (place.expandDirective place.compileFile file directive).run context =
      .error fault ended := by
  have hentries : directive.importEntries ≠ [] := by
    obtain ⟨-, -, -, ⟨-, passed, entry, rest, -, -, -, hlist, -⟩, -⟩ := hfails
    simp [hlist]
  obtain ⟨noted, hnoted, hrun⟩ :=
    place.run_expandDirective_of_importEntries place.compileFile file hentries context
  rw [hrun]
  exact exists_of_failsWithin (exists_of_entryFailsInImport file directive)
    ((directiveFailsInImport_iff hnoted).1 hfails)

theorem steady_expandDirective (file : Path) (directive : Directive) :
    Steady (place.expandDirective place.compileFile file directive) :=
  steady_of_matches fun _ _ hagrees => matches_expandDirective rfl rfl (fun _ => rfl) rfl hagrees

/-! ### Sources -/

section Sources

variable {file : Path} {piece : Piece} {context context' : Context} {fault : Fault}

theorem exists_of_pieceFailsInImport (file : Path) (piece : Piece) (context : Context)
    (fault : Fault) (hfails : place.PieceFailsInImport file piece context fault) :
    ∃ ended, (place.expandPiece place.compileFile file piece).run context = .error fault ended := by
  obtain ⟨directive, rfl, hdirective⟩ := hfails
  exact exists_of_directiveFailsInImport hdirective

theorem PieceFailsInImport.of_agrees (hagrees : context'.Agrees context)
    (hfails : place.PieceFailsInImport file piece context fault) :
    place.PieceFailsInImport file piece context' fault := by
  obtain ⟨directive, rfl, hdirective⟩ := hfails
  have hnoted := context.agrees_note 0 []
  rw [directiveFailsInImport_iff hnoted] at hdirective
  exact ⟨directive, rfl, (directiveFailsInImport_iff (hnoted.trans hagrees.symm)).2 hdirective⟩

theorem steady_expandPiece (file : Path) (piece : Piece) :
    Steady (place.expandPiece place.compileFile file piece) := by
  cases piece with
  | literal text => exact steady_pure text
  | directive directive => exact steady_expandDirective file directive
  | broken problem line => exact steady_attempt (.error _)

theorem matches_expandPiece (file : Path) (lines : Int) (piece : Piece) (context context' : Context)
    (hagrees : context'.Agrees context) :
    Matches (SameOr (place.PieceFailsInImport file piece context) fun fault fault' =>
        ∃ line, fault.MovesTo Eq line (line + lines) fault')
      ((place.expandPiece place.compileFile file piece).run context)
      ((place.expandPiece place.compileFile file (piece.raise lines)).run context') := by
  cases piece with
  | literal text => exact .ok hagrees
  | directive directive =>
      have hmatches : Matches (SameOr (place.DirectiveFailsInImport file directive context)
            (Fault.MovesTo Eq directive.line (directive.line + lines)))
          ((place.expandDirective place.compileFile file directive).run context)
          ((place.expandDirective place.compileFile file
            { directive with line := directive.line + lines }).run context') :=
        @matches_expandDirective place file directive
          { directive with line := directive.line + lines } Eq rfl rfl (fun _ => rfl) rfl context
          context' hagrees
      refine hmatches.mono fun fault ended fault' _ hmoves => ⟨?_, ?_⟩
      · rintro ⟨other, hother, hfails⟩
        obtain rfl := Piece.directive.inj hother
        exact hmoves.1 hfails
      · exact fun hnone => ⟨_, hmoves.2 fun hfails => hnone ⟨directive, rfl, hfails⟩⟩
  | broken problem line =>
      refine .error ⟨?_, fun _ => ⟨line, rfl, rfl, rfl, rfl⟩⟩ hagrees
      rintro ⟨directive, hdirective, -⟩
      cases hdirective

end Sources

theorem failsInImport_iff {expanding : Expanding} {noted : Context}
    (hnoted : noted.Agrees expanding.context) {fault : Fault} :
    place.FailsInImport expanding fault ↔
      FailsWithin (place.expandPiece place.compileFile expanding.file)
        (place.PieceFailsInImport expanding.file) (Piece.ofSource expanding.source) noted
        fault := by
  constructor
  · rintro ⟨found, reached, ended, ⟨before, directive, opened, ⟨⟨after, hpieces⟩, text, hbefore⟩,
      himports⟩, hrun⟩
    have hwithin : FailsWithin (place.expandPiece place.compileFile expanding.file)
        (place.PieceFailsInImport expanding.file) (Piece.ofSource expanding.source)
        expanding.context fault :=
      ⟨before, .directive directive, after, text, opened, hpieces, hbefore, directive, rfl, found,
        reached, ended, himports, hrun⟩
    exact hwithin.of_agrees (steady_expandPiece expanding.file)
      (fun _ _ _ _ => PieceFailsInImport.of_agrees) hnoted
  · intro hwithin
    obtain ⟨before, piece, after, text, opened, hpieces, hbefore, directive, rfl, found, reached,
      ended, himports, hrun⟩ := hwithin.of_agrees (steady_expandPiece expanding.file)
        (fun _ _ _ _ => PieceFailsInImport.of_agrees) hnoted.symm
    exact ⟨found, reached, ended, ⟨before, directive, opened, ⟨⟨after, hpieces⟩, text, hbefore⟩,
      himports⟩, hrun⟩

theorem run_expandText (file : Path) (source : Text) (context : Context) :
    ∃ noted, noted.Agrees context ∧
      (place.expandText file source).run context = (place.expandFrom 1 file source).run noted :=
  ⟨_, context.agrees_note _ _, rfl⟩

theorem concat_map {α β : Type} (work : β → Expansion Text) (change : α → β) (things : List α) :
    concat work (things.map change) = concat (fun thing => work (change thing)) things := by
  induction things with
  | nil => rfl
  | cons first rest ih => rw [List.map_cons, concat, concat, ih]

theorem steady_expandFrom (line : Int) (file : Path) (source : Text) :
    Steady (place.expandFrom line file source) :=
  steady_concat (steady_expandPiece file) _

/-- A source that begins on another line expands as it does where it was. -/
theorem matches_expandFrom_raise (line lines : Int) (file : Path) (source : Text)
    {context context' : Context} (hagrees : context'.Agrees context) :
    Matches (SameOr (FailsWithin (place.expandPiece place.compileFile file)
          (place.PieceFailsInImport file) (Cursor.pieces ⟨Token.split source, line⟩) context)
        fun fault fault' => ∃ line, fault.MovesTo Eq line (line + lines) fault')
      ((place.expandFrom line file source).run context)
      ((place.expandFrom (line + lines) file source).run context') := by
  have hraise := Cursor.pieces_raise ⟨Token.split source, line⟩ lines
  rw [expandFrom, expandFrom, hraise, concat_map]
  exact matches_concat (exists_of_pieceFailsInImport file) (matches_expandPiece file lines) _ hagrees

/-- A source that begins some lines further down expands as it does at the top of its file. -/
theorem matches_expandFrom (expanding : Expanding) (lines : Int) {context : Context}
    (hagrees : context.Agrees expanding.context) :
    Matches (place.MovesDown expanding lines)
      ((place.expandText expanding.file expanding.source).run expanding.context)
      ((place.expandFrom (1 + lines) expanding.file expanding.source).run context) := by
  obtain ⟨noted, hnoted, hrun⟩ :=
    place.run_expandText expanding.file expanding.source expanding.context
  rw [hrun]
  refine (matches_expandFrom_raise 1 lines expanding.file expanding.source
    (hagrees.trans hnoted.symm)).mono fun fault ended fault' _ hlike => ?_
  rwa [MovesDown, SameOr, failsInImport_iff hnoted]

end Workplace

end KitTemplate
