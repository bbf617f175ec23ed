import KitTemplate.Proofs.Charset.Repertoire
import KitTemplate.Proofs.Expansion.Origin
import KitTemplate.Proofs.Expansion.Variables
import KitTemplate.Proofs.Source.Characters

/-! The characters of expansions. Whatever a script copies or assigns was read in the character set
of the compiler, and so is whatever is read while the script is performed. So a pass that begins
with variables of that set yields text of that set. -/

namespace KitTemplate

/-- Text that was read is text in the character set of the compiler. -/
theorem Compiler.exists_decode_of_readText {compiler : Compiler} {tree : FileTree} {path : Path}
    {name text : Text} {line : Option Int}
    (hread : compiler.readText tree path name line = .ok text) :
    ∃ charset bytes, Charset.named? compiler.settings.encoding = some charset ∧
      charset.decode bytes = .ok text := by
  rw [readText] at hread
  split at hread
  · cases hread
  · cases hread
  rename_i bytes hbytes
  split at hread
  · cases hread
  rename_i charset hcharset
  split at hread
  · cases hread
  · rename_i decoded hdecode
    obtain rfl := Except.ok.inj hread
    exact ⟨charset, bytes, hcharset, hdecode⟩

/-- What an event copies or assigns. -/
def Event.content : Event → Text
  | .text copied => copied
  | .assign _ value => value
  | .note .. | .use .. | .insert .. | .stop _ => []

/-- A set holds everything that a script copies or assigns. -/
def Charset.HoldsScript (charset : Charset) (events : List Event) : Prop :=
  ∀ event ∈ events, ∀ c ∈ event.content, charset.Holds c

/-- A set holds the values of all variables. -/
def Charset.HoldsValues (charset : Charset) (context : Context) : Prop :=
  ∀ name value, context.bindings.lookup name = some value → ∀ c ∈ value, charset.Holds c

namespace Workplace

open Expansion

variable {place : Workplace} {charset : Charset}

/-! ### Scripts -/

section Scripts

variable (hcharset : Charset.named? place.compiler.settings.encoding = some charset)

include hcharset

theorem readsOnly_holds : place.ReadsOnly fun text => ∀ c ∈ text, charset.Holds c := by
  intro path name line text hread
  obtain ⟨other, bytes, hother, hdecode⟩ := Compiler.exists_decode_of_readText hread
  obtain rfl := Option.some.inj (hcharset.symm.trans hother)
  exact Charset.holds_of_decode hdecode

omit hcharset in
/-- What an event copies or assigns stands in the text that it comes from. -/
theorem holdsScript_of_hasOrigin {events : List Event}
    (hevents : ∀ event ∈ events, event.HasOrigin fun text => ∀ c ∈ text, charset.Holds c) :
    charset.HoldsScript events := by
  intro event hevent c hc
  cases hevents event hevent with
  | included htext => exact htext c hc
  | copied hsource hpiece => exact hsource c (Piece.content_subset hpiece hc)
  | assigned hsource hpiece _ hvalue =>
      refine hsource c (Piece.content_subset hpiece ?_)
      rwa [Piece.content, hvalue]
  | note | use | insert | stop => cases hc

/-- Whatever the script of a source of the set copies or assigns was read in the set. -/
theorem holdsScript_source (room : Nat) (ancestry : List Path) (tag : Text) (file : Path)
    {source : Text} (hsource : ∀ c ∈ source, charset.Holds c) :
    charset.HoldsScript
      (place.sourceScript (place.scriptWithin room ancestry) ancestry tag file source) :=
  have hreads := readsOnly_holds hcharset
  holdsScript_of_hasOrigin (hasOrigin_source hreads
    (fun found => hasOrigin_scriptWithin hreads room ancestry found) ancestry tag file hsource)

theorem holdsScript_scriptWithin (room : Nat) (ancestry : List Path) (path : Path) :
    charset.HoldsScript (place.scriptWithin room ancestry path) :=
  holdsScript_of_hasOrigin (hasOrigin_scriptWithin (readsOnly_holds hcharset) room ancestry path)

end Scripts

/-! ### Passes -/

theorem assigned?_eq_some {name value : Text} {event : Event}
    (hassigned : assigned? name event = some value) : event.content = value := by
  unfold assigned? at hassigned
  split at hassigned
  · split at hassigned
    · exact Option.some.inj hassigned
    · cases hassigned
  · cases hassigned

section Passes

variable {context ended : Context} {text : Text}

/-- An event assigns values of the set, so all variables keep values of the set. -/
theorem holdsValues_of_act {event : Event} (hevent : ∀ c ∈ event.content, charset.Holds c)
    (hcontext : charset.HoldsValues context)
    (hrun : (place.act event).run context = .ok text ended) : charset.HoldsValues ended := by
  intro name value hvalue
  have hlookup := place.lookup_bindings_act event name context
  rw [hrun] at hlookup
  rw [show ended.bindings.lookup name = _ from hlookup] at hvalue
  cases hassigned : assigned? name event with
  | none =>
      rw [hassigned, Option.none_or] at hvalue
      exact hcontext name value hvalue
  | some own =>
      rw [hassigned, Option.some_or] at hvalue
      obtain rfl := Option.some.inj hvalue
      rwa [assigned?_eq_some hassigned] at hevent

variable (hcharset : Charset.named? place.compiler.settings.encoding = some charset)

include hcharset

/-- An event yields text of the set. -/
theorem holds_of_act {event : Event} (hevent : ∀ c ∈ event.content, charset.Holds c)
    (hcontext : charset.HoldsValues context)
    (hrun : (place.act event).run context = .ok text ended) : ∀ c ∈ text, charset.Holds c := by
  cases event with
  | text own =>
      obtain ⟨rfl, -⟩ := EStateM.Result.ok.inj hrun
      exact hevent
  | note tag level message =>
      obtain ⟨rfl, -⟩ := EStateM.Result.ok.inj hrun
      nofun
  | assign name value =>
      obtain ⟨rfl, -⟩ := EStateM.Result.ok.inj hrun
      nofun
  | use name file line =>
      rw [act, run_withValue] at hrun
      cases hvalue : context.bindings.lookup name with
      | none =>
          rw [hvalue] at hrun
          cases hrun
      | some value =>
          rw [hvalue] at hrun
          obtain ⟨rfl, -⟩ := EStateM.Result.ok.inj hrun
          exact hcontext name value hvalue
  | insert tag name file line =>
      rw [act, run_tagged] at hrun
      cases hinsert : (place.expandPartial file line name).run (context.withTag tag) with
      | error fault reached =>
          rw [hinsert] at hrun
          cases hrun
      | ok own reached =>
          rw [hinsert] at hrun
          obtain ⟨rfl, -⟩ := EStateM.Result.ok.inj hrun
          obtain ⟨value, -, -, hread⟩ := place.exists_of_expandPartial hinsert
          exact readsOnly_holds hcharset _ _ _ _ hread
  | stop fault => cases hrun

/-- A pass over a script of the set yields text of the set. -/
theorem holds_of_perform {events : List Event} (hevents : charset.HoldsScript events)
    (hcontext : charset.HoldsValues context)
    (hrun : (place.perform events).run context = .ok text ended) :
    ∀ c ∈ text, charset.Holds c := by
  induction events generalizing context text with
  | nil =>
      obtain ⟨rfl, -⟩ := EStateM.Result.ok.inj hrun
      nofun
  | cons event rest ih =>
      obtain ⟨hevent, hrest⟩ := List.forall_mem_cons.1 hevents
      obtain ⟨first, reached, more, hact, hperform, rfl⟩ := (run_concat_cons_eq_ok context).1 hrun
      have hreached := holdsValues_of_act hevent hcontext hact
      exact List.forall_mem_append.2
        ⟨holds_of_act hcharset hevent hcontext hact, ih hrest hreached hperform⟩

end Passes

/-- A source of the set, expanded before any variable has a value, yields text of the set. -/
theorem holds_of_expandText
    (hcharset : Charset.named? place.compiler.settings.encoding = some charset)
    {path : Path} {source text : Text} {context ended : Context}
    (hsource : ∀ c ∈ source, charset.Holds c) (hclosed : context.isOpen path = false)
    (hbindings : context.bindings = [])
    (hrun : (inside path (tagged path.name (place.expandText path source))).run context =
      .ok text ended) : ∀ c ∈ text, charset.Holds c := by
  rw [expandText, run_inside_tagged hclosed (performs_source performs_compileFile path source)]
    at hrun
  have hcontext : charset.HoldsValues context := by
    intro name value hvalue
    rw [hbindings] at hvalue
    cases hvalue
  exact holds_of_perform hcharset (holdsScript_source hcharset _ _ _ _ hsource) hcontext hrun

/-- The text of a file that is expanded before any variable has a value is text in the character
set of the compiler. -/
theorem exists_charset_of_compileFile {path : Path} {context ended : Context} {text : Text}
    (hbindings : context.bindings = [])
    (hrun : (place.compileFile path).run context = .ok text ended) :
    ∃ charset, Charset.named? place.compiler.settings.encoding = some charset ∧
      ∀ c ∈ text, charset.Holds c := by
  rw [compileFile, run_compileFileWithin] at hrun
  -- nothing is expanded unless the file itself has been read
  obtain ⟨charset, hcharset⟩ :
      ∃ charset, Charset.named? place.compiler.settings.encoding = some charset := by
    rw [room, scriptWithin] at hrun
    split at hrun
    · cases hrun
    split at hrun
    · cases hrun
    · rename_i source hread
      obtain ⟨charset, -, hcharset, -⟩ := Compiler.exists_decode_of_readText hread
      exact ⟨charset, hcharset⟩
  have hcontext : charset.HoldsValues context := by
    intro name value hvalue
    rw [hbindings] at hvalue
    cases hvalue
  exact ⟨charset, hcharset,
    holds_of_perform hcharset (holdsScript_scriptWithin hcharset _ _ _) hcontext hrun⟩

end Workplace

end KitTemplate
