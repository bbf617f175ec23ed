import KitTemplate.Proofs.Compilation.Effect
import KitTemplate.Proofs.Expansion.Performance

/-! Tags of records. A run of an expansion is traced by the moments at which it makes its notes
(`Makes`): the records that the run adds to the journal are those of its moments, in their order
(`Makes.records_eq`). The tag of the journal moves with the files that are open, since a file is
opened and closed together with a change of the tag; so at every such moment the tag names the file
that was opened last, and it is back once an imported file is done with, however that ends
(`tagsNotes_opened`). -/

namespace KitTemplate

/-- The name of the file that was opened last, or a dash if none is open. -/
def Context.fileTag (context : Context) : Text := (context.ancestry.getLast?.map Path.name).getD ['-']

/-- The notes that are made in the context carry the name of the file that was opened last. -/
def Context.IsTagged (context : Context) : Prop := context.journal.tag = context.fileTag

/-- A context with the same files open and the same tag is tagged as well. -/
theorem Context.IsTagged.of_eq {context other : Context} (hcontext : context.IsTagged)
    (hancestry : other.ancestry = context.ancestry)
    (htag : other.journal.tag = context.journal.tag) : other.IsTagged := by
  rw [IsTagged, fileTag, htag, hancestry]
  exact hcontext

/-- A note in the context in which it is made. -/
structure Moment where
  context : Context
  level : Int
  message : Text

namespace Moment

/-- The record that is kept of a note, if the verbosity reaches its level. -/
def record? (moment : Moment) : Option Record :=
  if moment.context.journal.keeps moment.level then
    some ⟨.ofInt moment.level, .text moment.context.journal.tag, moment.message⟩
  else none

theorem records_note (context : Context) (level : Int) (message : Text) :
    (context.note level message).journal.records =
      context.journal.records ++ [(⟨context, level, message⟩ : Moment)].filterMap record? := by
  show (context.journal.noteAs context.journal.tag level message).records = _
  by_cases hkeeps : context.journal.keeps level
  · simp [Journal.noteAs, record?, hkeeps]
  · simp [Journal.noteAs, record?, hkeeps]

end Moment

namespace Expansion

open Workplace

/-- Work runs from a context to an outcome and makes notes at some moments. There is a rule for each
way in which work is put together. -/
inductive Makes : {α : Type} → Expansion α → Context → List Moment →
    EStateM.Result Fault Context α → Prop
  | pure {α : Type} (value : α) (context : Context) :
      Makes (pure value) context [] (.ok value context)
  | throw {α : Type} (fault : Fault) (context : Context) :
      Makes (throw fault : Expansion α) context [] (.error fault context)
  | get (context : Context) : Makes get context [] (.ok context context)
  | assign (name value : Text) (context : Context) :
      Makes (modify (·.assign name value)) context [] (.ok ⟨⟩ (context.assign name value))
  | note (level : Int) (message : Text) (context : Context) :
      Makes (note level message) context [⟨context, level, message⟩]
        (.ok ⟨⟩ (context.note level message))
  | bind_ok {α β : Type} {work : Expansion α} {next : α → Expansion β} {context reached : Context}
      {value : α} {first second : List Moment} {outcome : EStateM.Result Fault Context β}
      (hfirst : Makes work context first (.ok value reached))
      (hsecond : Makes (next value) reached second outcome) :
      Makes (work >>= next) context (first ++ second) outcome
  | bind_error {α β : Type} {work : Expansion α} {context ended : Context} {fault : Fault}
      {moments : List Moment} (next : α → Expansion β)
      (hfirst : Makes work context moments (.error fault ended)) :
      Makes (work >>= next) context moments (.error fault ended)
  | inside_error {α : Type} {path : Path} {context : Context} {fault : Fault} (work : Expansion α)
      (henter : context.enter path = .error fault) :
      Makes (inside path work) context [] (.error fault context)
  | inside_ok {α : Type} {path : Path} {work : Expansion α} {context entered : Context}
      {moments : List Moment} {outcome : EStateM.Result Fault Context α}
      (henter : context.enter path = .ok entered) (hwork : Makes work entered moments outcome) :
      Makes (inside path work) context moments (mapContext Context.leave outcome)
  | tagged {α : Type} {tag : Text} {work : Expansion α} {context : Context}
      {moments : List Moment} {outcome : EStateM.Result Fault Context α}
      (hwork : Makes work (context.withTag tag) moments outcome) :
      Makes (tagged tag work) context moments
        (mapContext (·.withTag context.journal.tag) outcome)

variable {α β : Type} {work : Expansion α} {context : Context} {moments : List Moment}
  {outcome : EStateM.Result Fault Context α}

/-- What is traced is the run. -/
theorem Makes.run_eq (hmakes : Makes work context moments outcome) : work.run context = outcome := by
  induction hmakes with
  | pure | throw | get | assign | note => rfl
  | bind_ok _ _ hfirst hsecond => rw [EStateM.run_bind, hfirst, ← hsecond]
  | bind_error next _ hfirst => rw [EStateM.run_bind, hfirst]
  | inside_error work henter => rw [run_inside, henter]
  | inside_ok henter _ hwork => rw [run_inside, henter, ← hwork]
  | tagged _ hwork => rw [run_tagged, hwork]

theorem ending_mapContext (change : Context → Context) (outcome : EStateM.Result Fault Context α) :
    ending (mapContext change outcome) = change (ending outcome) := by
  cases outcome <;> rfl

/-- The records that a run adds are those of its moments. -/
theorem Makes.records_eq (hmakes : Makes work context moments outcome) :
    (ending outcome).journal.records = context.journal.records ++ moments.filterMap Moment.record? := by
  induction hmakes with
  | pure | throw | get | assign | inside_error => exact (List.append_nil _).symm
  | note level message context => exact Moment.records_note context level message
  | bind_ok _ _ hfirst hsecond =>
      have hreached : _ = _ ++ _ := hfirst
      rw [hsecond, List.filterMap_append, ← List.append_assoc, ← hreached]
      rfl
  | bind_error _ _ hfirst => exact hfirst
  | inside_ok henter _ hwork =>
      rw [Context.enter] at henter
      split at henter
      · cases henter
      · obtain rfl := Except.ok.inj henter
        rw [ending_mapContext]
        exact hwork
  | tagged _ hwork =>
      rw [ending_mapContext]
      exact hwork

/-! ### Work that tags its notes -/

/-- Work that makes every note under the name of the file that was opened last, where it begins
under that name, and leaves the files open and the tag as they are, also if it fails. -/
def TagsNotes (work : Expansion α) : Prop :=
  ∀ context : Context, context.IsTagged → ∃ moments, Makes work context moments (work.run context) ∧
    (∀ moment ∈ moments, moment.context.IsTagged) ∧
    (ending (work.run context)).ancestry = context.ancestry ∧
    (ending (work.run context)).journal.tag = context.journal.tag

variable {next : α → Expansion β}

theorem tagsNotes_pure (value : α) : TagsNotes (pure value : Expansion α) := fun context _ =>
  ⟨[], .pure value context, List.forall_mem_nil _, rfl, rfl⟩

theorem tagsNotes_throw (fault : Fault) : TagsNotes (throw fault : Expansion α) := fun context _ =>
  ⟨[], .throw fault context, List.forall_mem_nil _, rfl, rfl⟩

theorem tagsNotes_attempt (outcome : Except Fault α) : TagsNotes (attempt outcome) := by
  cases outcome with
  | ok value => exact tagsNotes_pure value
  | error fault => exact tagsNotes_throw fault

theorem tagsNotes_get : TagsNotes (get : Expansion Context) := fun context _ =>
  ⟨[], .get context, List.forall_mem_nil _, rfl, rfl⟩

theorem tagsNotes_assign (name value : Text) :
    TagsNotes (modify (·.assign name value) : Expansion PUnit) := fun context _ =>
  ⟨[], .assign name value context, List.forall_mem_nil _, rfl, rfl⟩

theorem tagsNotes_note (level : Int) (message : Text) : TagsNotes (note level message) :=
  fun context hcontext => ⟨[⟨context, level, message⟩], .note level message context,
    List.forall_mem_singleton.2 hcontext, rfl, keepsTag_note level message context⟩

theorem tagsNotes_bind (hwork : TagsNotes work) (hnext : ∀ value, TagsNotes (next value)) :
    TagsNotes (work >>= next) := by
  intro context hcontext
  obtain ⟨first, hfirst, htagged, hancestry, htag⟩ := hwork context hcontext
  rw [EStateM.run_bind]
  cases hrun : work.run context with
  | error fault ended =>
      rw [hrun] at hfirst hancestry htag
      exact ⟨first, .bind_error next hfirst, htagged, hancestry, htag⟩
  | ok value reached =>
      rw [hrun] at hfirst hancestry htag
      obtain ⟨second, hsecond, htagged', hancestry', htag'⟩ :=
        hnext value reached (hcontext.of_eq hancestry htag)
      exact ⟨first ++ second, .bind_ok hfirst hsecond,
        List.forall_mem_append.2 ⟨htagged, htagged'⟩, hancestry'.trans hancestry,
        htag'.trans htag⟩

theorem tagsNotes_withValue (name : Text) (file : Path) (line : Int) {work : Text → Expansion α}
    (hwork : ∀ value, TagsNotes (work value)) : TagsNotes (withValue name file line work) := by
  apply tagsNotes_bind tagsNotes_get
  intro context
  cases context.bindings.lookup name with
  | none => exact tagsNotes_throw _
  | some value => exact hwork value

theorem tagsNotes_concat {work : α → Expansion Text} (hwork : ∀ thing, TagsNotes (work thing))
    (things : List α) : TagsNotes (concat work things) := by
  induction things with
  | nil => exact tagsNotes_pure []
  | cons first rest ih =>
      apply tagsNotes_bind (hwork first)
      intro text
      exact tagsNotes_bind ih fun _ => tagsNotes_pure _

/-- A file is opened and its name becomes the tag; it is closed and the tag is back. -/
theorem tagsNotes_opened (path : Path) (hwork : TagsNotes work) :
    TagsNotes (inside path (tagged path.name work)) := by
  intro context hcontext
  rw [run_inside]
  cases henter : context.enter path with
  | error fault => exact ⟨[], .inside_error _ henter, List.forall_mem_nil _, rfl, rfl⟩
  | ok entered =>
      have hentered : entered = { context with ancestry := context.ancestry ++ [path] } := by
        rw [Context.enter] at henter
        split at henter
        · cases henter
        · exact (Except.ok.inj henter).symm
      subst hentered
      -- inside, the file is the last one that is open, and the tag is its name
      have htagged : (Context.withTag { context with ancestry := context.ancestry ++ [path] }
          path.name).IsTagged := by
        simp [Context.IsTagged, Context.fileTag, Context.withTag]
      obtain ⟨moments, hmakes, hmoments, hancestry, -⟩ := hwork _ htagged
      refine ⟨moments, .inside_ok henter (.tagged hmakes), hmoments, ?_, ?_⟩
      · dsimp only
        rw [run_tagged, ending_mapContext, ending_mapContext]
        show (ending _).ancestry.dropLast = context.ancestry
        rw [hancestry]
        exact List.dropLast_concat
      · dsimp only
        rw [run_tagged, ending_mapContext, ending_mapContext]
        rfl

end Expansion

namespace Workplace

open Expansion

variable {place : Workplace}

theorem tagsNotes_findFile (target : Path) : TagsNotes (place.findFile target) := by
  apply tagsNotes_bind (tagsNotes_attempt _)
  intro found
  cases found with
  | none => exact tagsNotes_pure none
  | some found =>
      by_cases hne : found ≠ target
      · simp only [if_pos hne]
        exact tagsNotes_bind (tagsNotes_note _ _) fun _ => tagsNotes_pure _
      · simp only [if_neg hne]
        exact tagsNotes_pure _

theorem tagsNotes_expandPartial (file : Path) (line : Int) (name : Text) :
    TagsNotes (place.expandPartial file line name) := by
  apply tagsNotes_withValue
  intro value
  apply tagsNotes_bind (tagsNotes_attempt _)
  intro found
  cases found with
  | false => exact tagsNotes_throw _
  | true => exact tagsNotes_bind (tagsNotes_note _ _) fun _ => tagsNotes_attempt _

theorem tagsNotes_expandVariable (file : Path) (directive : Directive) :
    TagsNotes (expandVariable file directive) := by
  rw [expandVariable]
  cases directive.value with
  | some value =>
      apply tagsNotes_bind (tagsNotes_assign directive.keyword value)
      intro
      exact tagsNotes_bind (tagsNotes_note _ _) fun _ => tagsNotes_pure _
  | none => exact tagsNotes_withValue _ file directive.line tagsNotes_pure

section Imports

variable {importFile : Path → Expansion Text} (himport : ∀ found, TagsNotes (importFile found))

include himport

theorem tagsNotes_expandFound (file : Path) (directive : Directive) (found : Path) :
    TagsNotes (place.expandFound importFile file directive found) := by
  rw [expandFound]
  split
  · apply tagsNotes_bind tagsNotes_get
    intro context
    split
    · exact tagsNotes_throw _
    · exact tagsNotes_bind (tagsNotes_note _ _) fun _ => himport found
  · exact tagsNotes_bind (tagsNotes_note _ _) fun _ => tagsNotes_attempt _

theorem tagsNotes_expandEntry (file : Path) (directive : Directive) (entry : Text) :
    TagsNotes (place.expandEntry importFile file directive entry) := by
  rw [expandEntry]
  split
  · exact tagsNotes_throw _
  apply tagsNotes_bind (tagsNotes_attempt _)
  intro target
  apply tagsNotes_bind (tagsNotes_findFile target)
  intro found
  cases found with
  | none => exact tagsNotes_throw _
  | some found => exact tagsNotes_expandFound himport file directive found

theorem tagsNotes_expandDirective (file : Path) (directive : Directive) :
    TagsNotes (place.expandDirective importFile file directive) := by
  apply tagsNotes_bind (tagsNotes_note _ _)
  intro
  split
  · exact tagsNotes_expandVariable file directive
  · exact tagsNotes_concat (tagsNotes_expandEntry himport file directive) _
  · exact tagsNotes_expandPartial file directive.line _
  · exact tagsNotes_throw _

theorem tagsNotes_expandPiece (file : Path) (piece : Piece) :
    TagsNotes (place.expandPiece importFile file piece) := by
  cases piece with
  | literal text => exact tagsNotes_pure text
  | directive directive => exact tagsNotes_expandDirective himport file directive
  | broken problem line => exact tagsNotes_throw _

theorem tagsNotes_expandSource (file : Path) (source : Text) :
    TagsNotes (place.expandSource importFile file source) :=
  tagsNotes_bind (tagsNotes_note _ _) fun _ => tagsNotes_concat (tagsNotes_expandPiece himport file) _

end Imports

theorem tagsNotes_compileFileWithin (place : Workplace) (room : Nat) (path : Path) :
    TagsNotes (place.compileFileWithin room path) := by
  induction room generalizing path with
  | zero => exact tagsNotes_throw _
  | succ room ih =>
      apply tagsNotes_opened
      apply tagsNotes_bind (tagsNotes_attempt _)
      intro source
      exact tagsNotes_expandSource ih path source

theorem tagsNotes_compileFile (place : Workplace) (path : Path) : TagsNotes (place.compileFile path) :=
  place.tagsNotes_compileFileWithin place.room path

theorem tagsNotes_expandText (place : Workplace) (file : Path) (source : Text) :
    TagsNotes (place.expandText file source) :=
  tagsNotes_expandSource place.tagsNotes_compileFile file source

theorem keepsTag_compileFile (place : Workplace) (path : Path) :
    Keeps (·.journal.tag) (place.compileFile path) := by
  intro context
  rw [run_compileFile]
  exact place.keepsTag_perform _ context

end Workplace

/-! ### Compilations -/

namespace Compiler

open Expansion Workplace

/-- A workspace is left behind with the records of some notes that were made while no file was
open. -/
structure NotesOutside (workspace ended : Workspace) (moments : List Moment) : Prop where
  outside : ∀ moment ∈ moments,
    moment.context.ancestry = [] ∧ moment.context.journal.tag = workspace.journal.tag
  records : ended.journal.records = workspace.journal.records ++ moments.filterMap Moment.record?
  tag : ended.journal.tag = workspace.journal.tag

/-- The note that is made in a workspace while no file is open. -/
def outsideNote (workspace : Workspace) (message : Text) : Moment :=
  ⟨{ journal := workspace.journal }, 2, message⟩

theorem notesOutside_of_eq {workspace ended : Workspace} (hjournal : ended.journal = workspace.journal) :
    NotesOutside workspace ended [] where
  outside := List.forall_mem_nil _
  records := by simp [hjournal]
  tag := by rw [hjournal]

theorem notesOutside_noted (workspace : Workspace) (message : Text) :
    NotesOutside workspace (noted workspace message) [outsideNote workspace message] where
  outside := List.forall_mem_singleton.2 ⟨rfl, rfl⟩
  records := Moment.records_note { journal := workspace.journal } 2 message
  tag := workspace.journal.tag_noteAs _ 2 message

theorem exists_notesOutside_settleFault (fault : Fault) (workspace : Workspace) :
    ∃ moments, NotesOutside workspace (Work.left ((settleFault fault).run workspace)) moments := by
  cases fault with
  | template error => exact ⟨_, notesOutside_noted workspace _⟩
  | _ => exact ⟨[], notesOutside_of_eq rfl⟩

/-- After its expansion a compilation makes notes only while no file is open. -/
theorem exists_notesOutside_complete (compiler : Compiler) (work : Workplace → Expansion Text)
    (output : Option Path) (workspace : Workspace) : ∃ moments, NotesOutside
      { workspace with journal := (ending (compiler.expansionFrom workspace work)).journal }
      (Work.left ((compiler.complete work output).run workspace)) moments := by
  rw [run_complete]
  cases compiler.expansionFrom workspace work with
  | error fault context => exact exists_notesOutside_settleFault fault _
  | ok text context =>
      cases output with
      | none => exact ⟨[], notesOutside_of_eq rfl⟩
      | some path =>
          dsimp only
          cases compiler.writeText workspace.tree path text with
          | mk tree result =>
              cases result with
              | error fault =>
                  obtain ⟨moments, hnotes⟩ := exists_notesOutside_settleFault fault
                    { tree, journal := context.journal }
                  exact ⟨moments, hnotes.outside, hnotes.records, hnotes.tag⟩
              | ok =>
                  have hnotes := notesOutside_noted { tree, journal := context.journal }
                    ("Wrote ".toList ++ path.toText)
                  exact ⟨_, hnotes.outside, hnotes.records, hnotes.tag⟩

/-- The account of the records that a compilation adds: it announces the page, its expansion makes
notes at some moments, and some notes close it. -/
structure TagsRecords (compiler : Compiler) (work : Workplace → Expansion Text) (message : Text)
    (workspace ended : Workspace) (moments closing : List Moment) : Prop where
  expands : Makes (work ⟨compiler, workspace.tree⟩)
    { journal := (noted workspace message).journal } moments
    (compiler.expansionFrom (noted workspace message) work)
  outside : ∀ moment ∈ closing, moment.context.ancestry = []
  tagged : ∀ moment ∈ outsideNote workspace message :: (moments ++ closing),
    moment.context.IsTagged
  records : ended.journal.records = workspace.journal.records ++
    (outsideNote workspace message :: (moments ++ closing)).filterMap Moment.record?
  tag : ended.journal.tag = ['-']

theorem exists_tagsRecords (compiler : Compiler) {work : Workplace → Expansion Text}
    (hwork : ∀ place, TagsNotes (work place)) (message : Text) (output : Option Path)
    {workspace : Workspace} (htag : workspace.journal.tag = ['-']) :
    ∃ moments closing, compiler.TagsRecords work message workspace
      (Work.left ((compiler.complete work output).run (noted workspace message))) moments
      closing := by
  have hopening := notesOutside_noted workspace message
  have hstart : (noted workspace message).journal.tag = ['-'] := hopening.tag.trans htag
  obtain ⟨moments, hmakes, hmoments, -, hended⟩ :=
    hwork ⟨compiler, workspace.tree⟩ { journal := (noted workspace message).journal } hstart
  obtain ⟨closing, hclosing⟩ :=
    compiler.exists_notesOutside_complete work output (noted workspace message)
  have hclosingTag : (ending (compiler.expansionFrom (noted workspace message) work)).journal.tag =
    ['-'] := hended.trans hstart
  have houtside {context : Context} (hancestry : context.ancestry = [])
      (hdash : context.journal.tag = ['-']) : context.IsTagged := by
    rw [Context.IsTagged, Context.fileTag, hancestry, hdash]
    rfl
  refine ⟨moments, closing, hmakes, fun moment hmoment => (hclosing.outside moment hmoment).1, ?_,
    ?_, hclosing.tag.trans hclosingTag⟩
  · intro moment hmoment
    rcases List.mem_cons.1 hmoment with rfl | hlater
    · exact houtside rfl htag
    rcases List.mem_append.1 hlater with hinner | hend
    · exact hmoments moment hinner
    · obtain ⟨hancestry, hsame⟩ := hclosing.outside moment hend
      exact houtside hancestry (hsame.trans hclosingTag)
  · have hall : (outsideNote workspace message :: (moments ++ closing)).filterMap Moment.record? =
        [outsideNote workspace message].filterMap Moment.record? ++
          (moments.filterMap Moment.record? ++ closing.filterMap Moment.record?) := by
      rw [← List.filterMap_append, ← List.filterMap_append]
      rfl
    calc (Work.left ((compiler.complete work output).run (noted workspace message))).journal.records
        = (ending (compiler.expansionFrom (noted workspace message) work)).journal.records ++
            closing.filterMap Moment.record? := hclosing.records
      _ = (noted workspace message).journal.records ++ moments.filterMap Moment.record? ++
            closing.filterMap Moment.record? := congrArg (· ++ _) hmakes.records_eq
      _ = workspace.journal.records ++
            (outsideNote workspace message :: (moments ++ closing)).filterMap Moment.record? := by
        rw [hopening.records, hall]
        simp only [List.append_assoc]

/-- Every record that a compilation adds carries the name of the file that was opened last when its
note was made, or a dash if none was open. Once an imported file is done with, the tag of the
importing file is back, and after the compilation it is a dash, whether they succeed or fail. -/
theorem compilation_tags_records (compiler : Compiler) {workspace : Workspace}
    (htag : workspace.journal.tag = ['-']) (output : Option Path) :
    (∀ file, ∃ moments closing,
      let path := Path.absolute workspace.tree.workingDirectory file
      compiler.TagsRecords (·.compileFile path) ("Compiling ".toList ++ path.toText) workspace
        (Work.left ((compiler.compile file output).run workspace)) moments closing) ∧
    (∀ source file, ∃ moments closing,
      let path := Path.absolute workspace.tree.workingDirectory file
      compiler.TagsRecords
        (fun place => inside path (Expansion.tagged path.name (place.expandText path source)))
        ("Compiling source as ".toList ++ path.toText) workspace
        (Work.left ((compiler.compileSource source file output).run workspace)) moments closing) ∧
    ∀ (place : Workplace) (found : Path) (context : Context),
      (ending ((place.compileFile found).run context)).journal.tag = context.journal.tag := by
  refine ⟨fun file => ?_, fun source file => ?_, keepsTag_compileFile⟩
  · rw [run_compile]
    exact compiler.exists_tagsRecords (fun place => place.tagsNotes_compileFile _) _ output htag
  · rw [run_compileSource]
    exact compiler.exists_tagsRecords
      (fun place => tagsNotes_opened _ (place.tagsNotes_expandText _ source)) _ output htag

/-- A page that fails after the file that it imports: the tag of the page is back after the import,
and a dash is back after the failure. -/
theorem compilation_tags_records_import :
    let compiler : Compiler := { postsDirectory := ⟨.root, []⟩ }
    let workspace : Workspace := { Workspace.ofFiles
      [("a.kit".toList, "<!-- @import b --><!-- $x -->".toList), ("b.kit".toList, "<!-- $y=1 -->".toList)]
      with journal := { verbosity := 3 } }
    let ended := Work.left ((compiler.compile ⟨.root, ["a.kit".toList]⟩ none).run workspace)
    workspace.journal.tag = ['-'] ∧
      (∃ moments closing, compiler.TagsRecords (·.compileFile ⟨.root, ["a.kit".toList]⟩)
        "Compiling /a.kit".toList workspace ended moments closing) ∧
      ended.journal.records.map (·.tag.shown) =
        ["-", "a.kit", "a.kit", "a.kit", "b.kit", "b.kit", "b.kit", "a.kit", "-"].map (·.toList) := by
  intro compiler workspace ended
  have htag : workspace.journal.tag = ['-'] := rfl
  obtain ⟨moments, closing, hrecords⟩ :=
    (compiler.compilation_tags_records htag none).1 ⟨.root, ["a.kit".toList]⟩
  refine ⟨htag, ⟨moments, closing, ?_⟩, by decide +kernel⟩
  have hpath : Path.absolute workspace.tree.workingDirectory ⟨.root, ["a.kit".toList]⟩ =
      ⟨.root, ["a.kit".toList]⟩ := by decide +kernel
  rw [hpath] at hrecords
  exact hrecords

end Compiler

end KitTemplate
