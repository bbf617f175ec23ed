import KitTemplate.Proofs.Expansion.Performance

/-! Where the events of a script come from. A script copies the literal pieces of sources and the
text of included files, and it assigns what directives of sources say. All other events copy and
assign nothing. The sources are those that are read on the way, so what is true of every text that
is read is true of the origins of all events (`hasOrigin_scriptWithin`). -/

namespace KitTemplate

/-- An event whose text or value, if it has one, comes from a text with a property. -/
inductive Event.HasOrigin (texts : Text → Prop) : Event → Prop
  | included {text : Text} (htext : texts text) : HasOrigin texts (.text text)
  | copied {source text : Text} (hsource : texts source)
      (hpiece : .literal text ∈ Piece.ofSource source) : HasOrigin texts (.text text)
  | assigned {source value : Text} {directive : Directive} (hsource : texts source)
      (hpiece : .directive directive ∈ Piece.ofSource source)
      (hcategory : (Registry.standard.find directive.keyword).category = .values)
      (hvalue : directive.value = some value) : HasOrigin texts (.assign directive.keyword value)
  | note (tag : Text) (level : Int) (message : Text) : HasOrigin texts (.note tag level message)
  | use (name : Text) (file : Path) (line : Int) : HasOrigin texts (.use name file line)
  | insert (tag name : Text) (file : Path) (line : Int) :
      HasOrigin texts (.insert tag name file line)
  | stop (fault : Fault) : HasOrigin texts (.stop fault)

namespace Workplace

/-- All text that can be read has a property. -/
def ReadsOnly (place : Workplace) (texts : Text → Prop) : Prop :=
  ∀ path name line text, place.compiler.readText place.tree path name line = .ok text → texts text

variable {place : Workplace} {texts : Text → Prop}

theorem hasOrigin_stop (fault : Fault) : ∀ event ∈ [Event.stop fault], event.HasOrigin texts :=
  List.forall_mem_singleton.2 (.stop fault)

section Scripts

variable (htexts : place.ReadsOnly texts) {importScript : Path → List Event}
  (himport : ∀ found, ∀ event ∈ importScript found, event.HasOrigin texts)
  (ancestry : List Path) (tag : Text) (file : Path)

include htexts himport

theorem hasOrigin_found (directive : Directive) (found : Path) :
    ∀ event ∈ place.foundScript importScript ancestry tag file directive found,
      event.HasOrigin texts := by
  unfold foundScript
  split
  · split
    · exact hasOrigin_stop _
    · exact List.forall_mem_cons.2 ⟨.note .., himport found⟩
  · refine List.forall_mem_cons.2 ⟨.note .., ?_⟩
    split
    · rename_i text hread
      exact List.forall_mem_singleton.2 (.included (htexts _ _ _ _ hread))
    · exact hasOrigin_stop _

theorem hasOrigin_entry (directive : Directive) (entry : Text) :
    ∀ event ∈ place.entryScript importScript ancestry tag file directive entry,
      event.HasOrigin texts := by
  rw [entryScript]
  split
  · exact hasOrigin_stop _
  split
  · exact hasOrigin_stop _
  split
  · exact hasOrigin_stop _
  · exact hasOrigin_stop _
  · rename_i found _
    have hfound := hasOrigin_found htexts himport ancestry tag file directive found
    unfold resolutionScript
    split
    · exact List.forall_mem_cons.2 ⟨.note .., hfound⟩
    · exact hfound

theorem hasOrigin_piece {source : Text} (hsource : texts source) {piece : Piece}
    (hpiece : piece ∈ Piece.ofSource source) :
    ∀ event ∈ place.pieceScript importScript ancestry tag file piece, event.HasOrigin texts := by
  cases piece with
  | literal text => exact List.forall_mem_singleton.2 (.copied hsource hpiece)
  | broken problem line => exact hasOrigin_stop _
  | directive directive =>
      refine List.forall_mem_cons.2 ⟨.note .., ?_⟩
      split
      · rename_i hcategory
        rw [variableScript]
        split
        · rename_i value hvalue
          exact List.forall_mem_cons.2 ⟨.assigned hsource hpiece hcategory hvalue,
            List.forall_mem_singleton.2 (.note ..)⟩
        · exact List.forall_mem_singleton.2 (.use ..)
      · intro event hevent
        obtain ⟨entry, -, hmem⟩ := List.mem_flatMap.1 hevent
        exact hasOrigin_entry htexts himport ancestry tag file directive entry event hmem
      · exact List.forall_mem_singleton.2 (.insert ..)
      · exact hasOrigin_stop _

theorem hasOrigin_source {source : Text} (hsource : texts source) :
    ∀ event ∈ place.sourceScript importScript ancestry tag file source, event.HasOrigin texts := by
  refine List.forall_mem_cons.2 ⟨.note .., fun event hevent => ?_⟩
  obtain ⟨piece, hpiece, hmem⟩ := List.mem_flatMap.1 hevent
  exact hasOrigin_piece htexts himport ancestry tag file hsource hpiece event hmem

end Scripts

theorem hasOrigin_scriptWithin (htexts : place.ReadsOnly texts) (room : Nat) (ancestry : List Path)
    (path : Path) : ∀ event ∈ place.scriptWithin room ancestry path, event.HasOrigin texts := by
  induction room generalizing ancestry path with
  | zero => exact hasOrigin_stop _
  | succ room ih =>
      rw [scriptWithin]
      split
      · exact hasOrigin_stop _
      split
      · exact hasOrigin_stop _
      · rename_i source hread
        exact hasOrigin_source htexts (fun found => ih _ found) _ _ _ (htexts _ _ _ _ hread)

theorem hasOrigin_script (htexts : place.ReadsOnly texts) (ancestry : List Path) (path : Path) :
    ∀ event ∈ place.script ancestry path, event.HasOrigin texts := fun event hevent =>
  hasOrigin_scriptWithin htexts place.room ancestry path event
    ((untilStop_isPrefix _).subset hevent)

theorem hasOrigin_textScript (htexts : place.ReadsOnly texts) (context : Context) (file : Path)
    {source : Text} (hsource : texts source) :
    ∀ event ∈ place.textScript context file source, event.HasOrigin texts :=
  hasOrigin_source htexts (hasOrigin_scriptWithin htexts place.room context.ancestry)
    context.ancestry context.journal.tag file hsource

end Workplace

end KitTemplate
