import Mathlib.Data.List.Nodup
import KitTemplate.Proofs.Expansion.Origin
import KitTemplate.Proofs.Expansion.Variables
import KitTemplate.Proofs.Source.Reading

/-! The variables that an expansion stores. Only assignments change them, and what is assigned comes
from a directive of some source: its keyword names a variable, and its value stands without blanks
around it in the comment (`isSound_act`). So an expansion that begins without variables has only
such names and values at each of its events, and also where a fault ends it. A name that is stored
once is kept, in its place among the others (`names_act`). -/

namespace KitTemplate

/-- A name that a variable can have: it begins a keyword, and it is reserved in no letter case. -/
structure Keyword.IsVariable (name : Text) : Prop extends IsName name where
  unreserved : ¬ Registry.isReserved name

theorem Registry.category_find_eq_values_iff {keyword : Text} :
    (standard.find keyword).category = .values ↔ ¬ isReserved keyword := by
  rw [find]
  split
  · rename_i hreserved
    refine iff_of_false ?_ (not_not_intro hreserved)
    have hmem : keyword.lowerCase ∈ reserved := List.contains_iff_mem.1 hreserved
    simp only [reserved, List.mem_cons, List.not_mem_nil, or_false] at hmem
    rcases hmem with hname | hname | hname <;> rw [hname] <;> decide
  · rename_i hunreserved
    exact iff_of_true rfl hunreserved

namespace Bindings

def names (bindings : List (Text × Text)) : List Text := bindings.map (·.1)

/-- Variables with names and values that directives can give to them, no name twice. -/
structure IsSound (bindings : List (Text × Text)) : Prop where
  isVariable : ∀ binding ∈ bindings, Keyword.IsVariable binding.1
  isValue : ∀ binding ∈ bindings, Keyword.IsValue binding.2
  distinct : (names bindings).Nodup

theorem isSound_nil : IsSound [] := ⟨nofun, nofun, List.nodup_nil⟩

theorem IsSound.put {bindings : List (Text × Text)} (hbindings : IsSound bindings)
    {name value : Text} (hname : Keyword.IsVariable name) (hvalue : Keyword.IsValue value) :
    IsSound (Table.put name value bindings) where
  isVariable binding hbinding := by
    rcases Table.mem_of_mem_put hbinding with rfl | hbinding
    · exact hname
    · exact hbindings.isVariable binding hbinding
  isValue binding hbinding := by
    rcases Table.mem_of_mem_put hbinding with rfl | hbinding
    · exact hvalue
    · exact hbindings.isValue binding hbinding
  distinct := by
    rw [names, Table.keys_put]
    split
    · rename_i hnew
      rw [← List.concat_eq_append]
      refine List.Nodup.concat (fun hmem => ?_) hbindings.distinct
      obtain ⟨binding, hbinding, rfl⟩ := List.mem_map.1 hmem
      simpa using List.lookup_eq_none_iff.1 hnew binding hbinding
    · exact hbindings.distinct

end Bindings

namespace Workplace

open Expansion

variable (place : Workplace)

/-- The variables after so many events of a script, or after the one that fails. -/
def bindingsAfter (count : Nat) (script : List Event) (initial : Context) : List (Text × Text) :=
  (ending ((place.perform (script.take count)).run initial)).bindings

variable {place}

/-- An event assigns what a directive says, or it leaves the variables as they are. -/
theorem isSound_act {event : Event} (hevent : event.HasOrigin fun _ => True) {context : Context}
    (hcontext : Bindings.IsSound context.bindings) :
    Bindings.IsSound (ending ((place.act event).run context)).bindings := by
  have hkept {event : Event} (hevent : ∀ name value, event ≠ .assign name value) :
      Bindings.IsSound (ending ((place.act event).run context)).bindings := by
    have hbindings : (ending ((place.act event).run context)).bindings = context.bindings :=
      place.keepsBindings_act event hevent context
    rwa [hbindings]
  cases hevent with
  | assigned _ hpiece hcategory hvalue =>
      refine hcontext.put ?_ (Piece.isValue_value hpiece hvalue)
      exact ⟨Piece.isName_keyword hpiece, Registry.category_find_eq_values_iff.1 hcategory⟩
  | included | copied | note | use | insert | stop => exact hkept (by rintro _ _ ⟨⟩)

/-- No event takes a name away, and a new one comes behind the others. -/
theorem names_act (event : Event) (context : Context) :
    Bindings.names context.bindings <+:
      Bindings.names (ending ((place.act event).run context)).bindings := by
  by_cases hassign : ∃ name value, event = .assign name value
  · obtain ⟨name, value, rfl⟩ := hassign
    show _ <+: Bindings.names (Table.put name value context.bindings)
    rw [Bindings.names, Bindings.names, Table.keys_put]
    split
    · exact List.prefix_append _ _
    · exact List.prefix_refl _
  · have hkept := place.keepsBindings_act event
      (fun name value hevent => hassign ⟨name, value, hevent⟩) context
    dsimp only at hkept
    rw [hkept]

theorem isSound_bindingsAfter {script : List Event}
    (hscript : ∀ event ∈ script, event.HasOrigin fun _ => True) {initial : Context}
    (hinitial : Bindings.IsSound initial.bindings) (count : Nat) :
    Bindings.IsSound (place.bindingsAfter count script initial) :=
  @preserves_perform place (fun context => Bindings.IsSound context.bindings) _
    (fun event hevent _ => isSound_act (hscript event (List.mem_of_mem_take hevent))) _ hinitial

/-- Performing more of a script loses no variable. -/
theorem names_bindingsAfter (script : List Event) (initial : Context) (count more : Nat) :
    Bindings.names (place.bindingsAfter count script initial) <+:
      Bindings.names (place.bindingsAfter (count + more) script initial) := by
  rw [bindingsAfter, bindingsAfter, List.take_add, perform_append, ending_append]
  cases (place.perform (script.take count)).run initial with
  | error fault ended => exact List.prefix_refl _
  | ok text reached =>
      exact @preserves_perform place
        (fun context => Bindings.names reached.bindings <+: Bindings.names context.bindings) _
        (fun event _ context hreached => hreached.trans (names_act event context)) _
        (List.prefix_refl _)

/-- Work that performs a script with sound variables after each event, or after the one that fails,
and that keeps every name which is stored once. -/
structure StoresSoundly (place : Workplace) (work : Expansion Text) (script : List Event)
    (initial : Context) : Prop where
  performs : work.run initial = (place.perform script).run initial
  sound : ∀ count, Bindings.IsSound (place.bindingsAfter count script initial)
  keeps : ∀ count more, Bindings.names (place.bindingsAfter count script initial) <+:
    Bindings.names (place.bindingsAfter (count + more) script initial)
  ends : (ending (work.run initial)).bindings = place.bindingsAfter script.length script initial

theorem storesSoundly_of_hasOrigin {work : Expansion Text} {script : List Event}
    {initial : Context} (hwork : work.run initial = (place.perform script).run initial)
    (hscript : ∀ event ∈ script, event.HasOrigin fun _ => True) (hinitial : initial.bindings = []) :
    place.StoresSoundly work script initial where
  performs := hwork
  sound := isSound_bindingsAfter hscript (hinitial ▸ Bindings.isSound_nil)
  keeps := names_bindingsAfter script initial
  ends := by rw [bindingsAfter, List.take_length, hwork]

/-- However far an expansion comes that begins without variables: each name that it has stored
begins with a sigil and a letter, holds nothing that ends a keyword or a comment, and is reserved in
no letter case; each value has text, no blank around it and no closing mark in it; and no name is
ever removed. This holds of the expansion of a file, of that of a source, and of a source that is
expanded as if it were a file. -/
theorem expansion_stores_soundly (place : Workplace) (ancestry : List Path) (journal : Journal) :
    let initial : Context := { ancestry, journal }
    let outside : Context := { journal }
    (∀ path, place.StoresSoundly (place.compileFile path) (place.script ancestry path) initial) ∧
      (∀ file source, place.StoresSoundly (place.expandText file source)
        (place.textScript initial file source) initial) ∧
      ∀ file source, place.StoresSoundly
        (inside file (tagged file.name (place.expandText file source)))
        (place.textScript (movedTo [file] file.name outside) file source) outside := by
  intro initial outside
  have hreads : place.ReadsOnly fun _ => True := fun _ _ _ _ _ => trivial
  refine ⟨fun path => ?_, fun file source => ?_, fun file source => ?_⟩
  · exact storesSoundly_of_hasOrigin (place.run_compileFile path initial)
      (hasOrigin_script hreads ancestry path) rfl
  · exact storesSoundly_of_hasOrigin (place.run_textScript file source initial)
      (hasOrigin_textScript hreads initial file trivial) rfl
  · have hclosed : outside.isOpen file = false := rfl
    have hperforms : place.Performs [file] file.name (place.expandText file source)
        (place.textScript (movedTo [file] file.name outside) file source) :=
      performs_source performs_compileFile file source
    exact storesSoundly_of_hasOrigin (run_inside_tagged hclosed hperforms)
      (hasOrigin_textScript hreads _ file trivial) rfl

end Workplace

end KitTemplate
