import KitTemplate.Proofs.Expansion.Performance

/-! Journals that differ. A change of journals goes unnoticed if a note may be made before it or
after it, and it does not touch the tag. Such a change is to limit a journal to a verbosity: the
records that need more are left out, and no note that needs more is kept from then on. No expansion
looks at its journal, so whatever goes unnoticed by notes goes unnoticed by expansions
(`Commutes`). -/

namespace KitTemplate

/-- The least verbosity at which records of a level are kept. -/
def Level.needed : Level → Int
  | info => 1
  | debug => 2
  | trace => 3

theorem Level.needed_ofInt {level : Int} (hlevel : 1 ≤ level ∧ level ≤ 3) :
    (Level.ofInt level).needed = level := by
  have hcases : level = 1 ∨ level = 2 ∨ level = 3 := by omega
  rcases hcases with rfl | rfl | rfl <;> rfl

/-- Whether a record is one that is kept at a verbosity. -/
def Record.isWithin (verbosity : Int) (record : Record) : Bool :=
  record.level.needed ≤ verbosity

namespace Journal

/-- The journal without the records that need more than a verbosity, and with none of them to
come. -/
def limitTo (verbosity : Int) (journal : Journal) : Journal :=
  { journal with
    verbosity := if journal.keepsAll then verbosity else min verbosity journal.verbosity
    keepsAll := false
    latest := journal.latest.filter (·.isWithin verbosity) }

theorem records_limitTo (verbosity : Int) (journal : Journal) :
    (journal.limitTo verbosity).records = journal.records.filter (·.isWithin verbosity) :=
  List.filter_reverse.symm

theorem keeps_limitTo (verbosity level : Int) (journal : Journal) :
    (journal.limitTo verbosity).keeps level = (journal.keeps level && level ≤ verbosity) := by
  rw [Bool.eq_iff_iff]
  cases hkeepsAll : journal.keepsAll with
  | true => simp [limitTo, keeps, hkeepsAll]
  | false =>
      simp [limitTo, keeps, hkeepsAll]
      omega

theorem add_limitTo {verbosity level : Int} (hlevel : 1 ≤ level ∧ level ≤ 3) (journal : Journal)
    (tag : Datum) (message : Text) :
    (journal.add level tag message).limitTo verbosity =
      if level ≤ verbosity then (journal.limitTo verbosity).add level tag message
      else journal.limitTo verbosity := by
  have hneeded : (Level.ofInt level).needed = level := Level.needed_ofInt hlevel
  rw [add, limitTo, List.filter_cons]
  by_cases hwithin : level ≤ verbosity
  · simp only [Record.isWithin, hneeded, hwithin, decide_true, if_true]
    rfl
  · simp only [Record.isWithin, hneeded, hwithin, decide_false, if_false]
    rfl

/-- A journal may be limited before a note is made or after. -/
theorem note_limitTo {verbosity level : Int} (hlevel : 1 ≤ level ∧ level ≤ 3) (journal : Journal)
    (message : Text) :
    (journal.limitTo verbosity).note level message =
      (journal.note level message).limitTo verbosity := by
  rw [note, note, noteAs, noteAs, keeps_limitTo]
  cases journal.keeps level with
  | false => rfl
  | true =>
      rw [if_pos rfl, add_limitTo hlevel, Bool.true_and]
      simp only [decide_eq_true_eq]
      rfl

/-- A note that needs more than a verbosity is not seen in a journal that is limited to it. -/
theorem limitTo_note_of_lt {verbosity level : Int} (hlevel : 1 ≤ level ∧ level ≤ 3)
    (hlt : verbosity < level) (journal : Journal) (message : Text) :
    (journal.note level message).limitTo verbosity = journal.limitTo verbosity := by
  have hkeeps : (journal.limitTo verbosity).keeps level = false := by
    rw [keeps_limitTo, decide_eq_false (by omega), Bool.and_false]
  rw [← note_limitTo hlevel, note, noteAs, hkeeps]
  rfl

end Journal

/-- A change that may as well be made after a note. -/
structure Journal.IsUnnoticed (change : Journal → Journal) : Prop where
  tag : ∀ journal, (change journal).tag = journal.tag
  withTag : ∀ (journal : Journal) (tag : Text),
    { change journal with tag } = change { journal with tag }
  note : ∀ (journal : Journal) (level : Int) (message : Text), 1 ≤ level ∧ level ≤ 3 →
    (change journal).note level message = change (journal.note level message)

theorem Journal.isUnnoticed_id : IsUnnoticed id := ⟨fun _ => rfl, fun _ _ => rfl, fun _ _ _ _ => rfl⟩

theorem Journal.isUnnoticed_limitTo (verbosity : Int) : IsUnnoticed (limitTo verbosity) where
  tag _ := rfl
  withTag _ _ := rfl
  note journal _ message hlevel := journal.note_limitTo hlevel message

/-- The context with its journal changed. -/
def Context.mapJournal (change : Journal → Journal) (context : Context) : Context :=
  { context with journal := change context.journal }

namespace Workplace

open Expansion

section Changes

variable {place : Workplace} {change : Journal → Journal} {α : Type}

theorem commutes_fail (cause : Cause) (file : Path) (line : Int) :
    Commutes (Context.mapJournal change) (fail cause file line : Expansion α) :=
  fun _ => rfl

theorem commutes_concat {change : Context → Context} {work : α → Expansion Text}
    (hwork : ∀ thing, Commutes change (work thing)) (things : List α) :
    Commutes change (concat work things) := by
  induction things with
  | nil => exact fun _ => rfl
  | cons first rest ih =>
      exact commutes_bind (hwork first) fun _ => commutes_bind ih fun _ _ => rfl

theorem bindings_mapJournal (context : Context) :
    (Context.mapJournal change context).bindings = context.bindings :=
  rfl

theorem commutes_inside (path : Path) {work : Expansion α}
    (hwork : Commutes (Context.mapJournal change) work) :
    Commutes (Context.mapJournal change) (inside path work) := by
  intro context
  have henter : (context.mapJournal change).enter path =
      (context.enter path).map (Context.mapJournal change) := by
    rw [Context.enter, Context.enter, apply_ite (Except.map _)]
    rfl
  rw [run_inside, run_inside, henter]
  cases context.enter path with
  | error fault => rfl
  | ok entered =>
      simp only [Except.map, hwork entered]
      cases work.run entered <;> rfl

variable (hchange : Journal.IsUnnoticed change)

include hchange

theorem commutes_note {level : Int} (hlevel : 1 ≤ level ∧ level ≤ 3) (message : Text) :
    Commutes (Context.mapJournal change) (note level message) := by
  intro context
  have hnoted : (context.mapJournal change).note level message =
      (context.note level message).mapJournal change :=
    congrArg (fun journal => { context with journal })
      (hchange.note context.journal level message hlevel)
  rw [run_note, run_note, hnoted]
  rfl

theorem commutes_retagged (tag : Text) {work : Expansion α}
    (hwork : Commutes (Context.mapJournal change) work) :
    Commutes (Context.mapJournal change) (tagged tag work) := by
  intro context
  have htagged (own : Context) (tag : Text) : (own.mapJournal change).withTag tag =
      (own.withTag tag).mapJournal change :=
    congrArg (fun journal => { own with journal }) (hchange.withTag own.journal tag)
  have htag : (context.mapJournal change).journal.tag = context.journal.tag :=
    hchange.tag context.journal
  rw [run_tagged, run_tagged, htagged, hwork, htag]
  cases work.run (context.withTag tag) with
  | ok value ended => exact congrArg (EStateM.Result.ok value) (htagged ended _)
  | error fault ended => exact congrArg (EStateM.Result.error fault) (htagged ended _)

theorem commutes_findFile (target : Path) :
    Commutes (Context.mapJournal change) (place.findFile target) := by
  refine commutes_bind (commutes_attempt _ _) fun found => ?_
  cases found with
  | none => exact fun _ => rfl
  | some found =>
      dsimp only
      split
      · exact commutes_bind (commutes_note hchange (by decide) _) fun _ _ => rfl
      · exact fun _ => rfl

theorem commutes_expandVariable (file : Path) (directive : Directive) :
    Commutes (Context.mapJournal change) (expandVariable file directive) := by
  rw [expandVariable]
  cases directive.value with
  | some value =>
      refine commutes_bind (fun _ => rfl) fun _ => ?_
      exact commutes_bind (commutes_note hchange (by decide) _) fun _ _ => rfl
  | none => exact commutes_withValue bindings_mapJournal _ file directive.line fun _ _ => rfl

section Imports

variable {importFile : Path → Expansion Text}
  (himport : ∀ found, Commutes (Context.mapJournal change) (importFile found))

include himport

theorem commutes_expandFound (file : Path) (directive : Directive) (found : Path) :
    Commutes (Context.mapJournal change) (place.expandFound importFile file directive found) := by
  rw [expandFound]
  split
  · intro context
    rw [EStateM.run_bind, EStateM.run_bind, EStateM.run_get, EStateM.run_get]
    have hopen : (context.mapJournal change).isOpen found = context.isOpen found := rfl
    dsimp only
    rw [hopen]
    split
    · rfl
    · exact commutes_bind (commutes_note hchange (by decide) _) (fun _ => himport found) context
  · exact commutes_bind (commutes_note hchange (by decide) _) fun _ => commutes_attempt _ _

theorem commutes_expandEntry (file : Path) (directive : Directive) (entry : Text) :
    Commutes (Context.mapJournal change) (place.expandEntry importFile file directive entry) := by
  rw [expandEntry]
  split
  · exact commutes_fail _ file directive.line
  refine commutes_bind (commutes_attempt _ _) fun target => ?_
  refine commutes_bind (commutes_findFile hchange target) fun found => ?_
  cases found with
  | none => exact commutes_fail _ file directive.line
  | some found => exact commutes_expandFound hchange himport file directive found

theorem commutes_expandDirective (file : Path) (directive : Directive) :
    Commutes (Context.mapJournal change) (place.expandDirective importFile file directive) := by
  refine commutes_bind (commutes_note hchange (by decide) _) fun _ => ?_
  split
  · exact commutes_expandVariable hchange file directive
  · exact commutes_concat (commutes_expandEntry hchange himport file directive) _
  · exact place.commutes_expandPartial bindings_mapJournal
      (fun _ => commutes_note hchange (by decide) _) file directive.line _
  · exact commutes_fail _ file directive.line

theorem commutes_expandPiece (file : Path) (piece : Piece) :
    Commutes (Context.mapJournal change) (place.expandPiece importFile file piece) := by
  cases piece with
  | literal text => exact fun _ => rfl
  | directive directive => exact commutes_expandDirective hchange himport file directive
  | broken problem line => exact commutes_fail _ file line

theorem commutes_expandSource (file : Path) (source : Text) :
    Commutes (Context.mapJournal change) (place.expandSource importFile file source) :=
  commutes_bind (commutes_note hchange (by decide) _) fun _ =>
    commutes_concat (commutes_expandPiece hchange himport file) _

end Imports

variable (place)

theorem commutes_compileFileWithin (room : Nat) (path : Path) :
    Commutes (Context.mapJournal change) (place.compileFileWithin room path) := by
  induction room generalizing path with
  | zero => exact fun _ => rfl
  | succ room ih =>
      refine commutes_inside path (commutes_retagged hchange path.name ?_)
      exact commutes_bind (commutes_attempt _ _) (commutes_expandSource hchange ih path)

theorem commutes_compileFile (path : Path) :
    Commutes (Context.mapJournal change) (place.compileFile path) :=
  place.commutes_compileFileWithin hchange place.room path

/-- The expansion of a source that is opened as a file. -/
theorem commutes_expandText (file : Path) (source : Text) :
    Commutes (Context.mapJournal change)
      (inside file (tagged file.name (place.expandText file source))) :=
  commutes_inside file (commutes_retagged hchange file.name
    (commutes_expandSource hchange (place.commutes_compileFile hchange) file source))

end Changes

end Workplace

end KitTemplate
