import KitTemplate.Proofs.Expansion.Displacement
import KitTemplate.Proofs.Expansion.Variables

/-! Expansions in other surroundings. An expansion that succeeds comes to every template that its
source imports, so none of them is open, and the script of the file depends on nothing else about
the files that are open (`scriptWithin_of_compileFile`). Performing a script succeeds with more
variables if it does with fewer ones (`exists_of_perform`). So where a file can be expanded, it is
expanded in the same way under more variables and inside any files that it does not enter. -/

namespace KitTemplate

/-- A context in which the variables of another one have the values that they have there. -/
def Context.Extends (context' context : Context) : Prop :=
  ∀ name value, context.bindings.lookup name = some value →
    context'.bindings.lookup name = some value

theorem Context.isAmong_append (ancestry more : List Path) (path : Path) :
    isAmong (ancestry ++ more) path = (isAmong ancestry path || isAmong more path) :=
  List.any_append

namespace Expansion

theorem exists_of_mapContext_eq_ok {α : Type} {change : Context → Context} {value : α}
    {outcome : EStateM.Result Fault Context α} {ended : Context}
    (houtcome : mapContext change outcome = .ok value ended) :
    ∃ reached, outcome = .ok value reached := by
  cases outcome with
  | ok own reached =>
      obtain ⟨rfl, -⟩ := EStateM.Result.ok.inj houtcome
      exact ⟨reached, rfl⟩
  | error fault reached => cases houtcome

/-- Work on some things that succeeds succeeds at each of them. -/
theorem exists_of_run_concat_append {α : Type} {work : α → Expansion Text} {before after : List α}
    {thing : α} {context ended : Context} {text : Text}
    (hrun : (concat work (before ++ thing :: after)).run context = .ok text ended) :
    ∃ passed reached own middle, (concat work before).run context = .ok passed reached ∧
      (work thing).run reached = .ok own middle := by
  rw [concat_append] at hrun
  obtain ⟨passed, reached, hbefore, hrest⟩ := (run_bind_eq_ok _).1 hrun
  obtain ⟨rest, left, hthings, -⟩ := (run_bind_eq_ok _).1 hrest
  obtain ⟨own, middle, -, hthing, -⟩ := (run_concat_cons_eq_ok _).1 hthings
  exact ⟨passed, reached, own, middle, hbefore, hthing⟩

end Expansion

namespace Workplace

open Expansion

variable (place : Workplace)

/-- The expansion of a file enters a file: itself, or a template that is opened on the way. -/
def Enters (path : Path) (context : Context) (entered : Path) : Prop :=
  ∃ source inner, place.compiler.readText place.tree path [] none = .ok source ∧
    Relation.ReflTransGen place.Opens
      ⟨path, source, { context with ancestry := context.ancestry ++ [path] }⟩ inner ∧
    inner.file = entered

variable {place}

/-! ### More variables -/

section Variables

variable {context context' reached reached' ended : Context} {text : Text}

theorem exists_of_act (event : Event) (hextends : context'.Extends context)
    (hact : (place.act event).run context = .ok text reached) :
    ∃ reached', (place.act event).run context' = .ok text reached' := by
  cases event with
  | text own =>
      obtain ⟨rfl, -⟩ := EStateM.Result.ok.inj hact
      exact ⟨context', rfl⟩
  | note tag level message =>
      obtain ⟨rfl, -⟩ := EStateM.Result.ok.inj hact
      exact ⟨_, rfl⟩
  | assign name value =>
      obtain ⟨rfl, -⟩ := EStateM.Result.ok.inj hact
      exact ⟨_, rfl⟩
  | use name file line =>
      rw [act, run_withValue] at hact ⊢
      cases hvalue : context.bindings.lookup name with
      | none =>
          rw [hvalue] at hact
          cases hact
      | some value =>
          rw [hvalue] at hact
          obtain ⟨rfl, -⟩ := EStateM.Result.ok.inj hact
          rw [hextends name _ hvalue]
          exact ⟨context', rfl⟩
  | insert tag name file line =>
      rw [act, run_tagged] at hact ⊢
      cases hinsert : (place.expandPartial file line name).run (context.withTag tag) with
      | error fault left =>
          rw [hinsert] at hact
          cases hact
      | ok own left =>
          rw [hinsert] at hact
          obtain ⟨rfl, -⟩ := EStateM.Result.ok.inj hact
          have htagged : (context'.withTag tag).Extends (context.withTag tag) := hextends
          obtain ⟨value, hvalue, hfile, hread⟩ := place.exists_of_expandPartial hinsert
          rw [place.run_expandPartial (htagged name value hvalue) hfile hread]
          exact ⟨_, rfl⟩
  | stop fault => cases hact

/-- What an event assigns, it assigns wherever it acts. -/
theorem Context.Extends.act {event : Event} (hextends : context'.Extends context)
    {text' : Text} (hact : (place.act event).run context = .ok text reached)
    (hact' : (place.act event).run context' = .ok text' reached') : reached'.Extends reached := by
  intro name value hvalue
  have hlookup := place.lookup_bindings_act event name context
  have hlookup' := place.lookup_bindings_act event name context'
  rw [hact] at hlookup
  rw [hact'] at hlookup'
  rw [show reached.bindings.lookup name = _ from hlookup] at hvalue
  rw [show reached'.bindings.lookup name = _ from hlookup']
  cases hassigned : assigned? name event with
  | none =>
      rw [hassigned, Option.none_or] at hvalue
      exact hextends name value hvalue
  | some own =>
      rw [hassigned] at hvalue
      exact hvalue

/-- A pass over a script that succeeds also does so with more variables. -/
theorem exists_of_perform {events : List Event} (hextends : context'.Extends context)
    (hrun : (place.perform events).run context = .ok text ended) :
    ∃ ended', (place.perform events).run context' = .ok text ended' := by
  induction events generalizing context context' text with
  | nil =>
      obtain ⟨rfl, -⟩ := EStateM.Result.ok.inj hrun
      exact ⟨context', rfl⟩
  | cons event rest ih =>
      obtain ⟨first, reached, more, hact, hrest, rfl⟩ := (run_concat_cons_eq_ok _).1 hrun
      obtain ⟨reached', hact'⟩ := exists_of_act event hextends hact
      obtain ⟨ended', hrest'⟩ := ih (Context.Extends.act hextends hact hact') hrest
      exact ⟨ended', (run_concat_cons_eq_ok _).2 ⟨first, reached', more, hact', hrest', rfl⟩⟩

end Variables

/-! ### The templates that an expansion enters -/

section Templates

variable {file found path : Path} {source text : Text} {context ended start : Context}

/-- A file that is expanded is not open and can be read, and its source is expanded inside it. -/
theorem exists_of_compileFile_eq_ok
    (hrun : (place.compileFile path).run context = .ok text ended) :
    context.isOpen path = false ∧ ∃ source left,
      place.compiler.readText place.tree path [] none = .ok source ∧
        (concat (place.expandPiece place.compileFile path) (Piece.ofSource source)).run
          { context with ancestry := context.ancestry ++ [path] } = .ok text left := by
  rw [compileFile_eq, run_inside] at hrun
  cases hopen : context.isOpen path with
  | true =>
      rw [Context.enter, if_pos hopen] at hrun
      cases hrun
  | false =>
      refine ⟨rfl, ?_⟩
      rw [Context.enter, if_neg (by simp [hopen])] at hrun
      cases hread : place.compiler.readText place.tree path [] none with
      | error fault =>
          rw [hread] at hrun
          cases hrun
      | ok source =>
          simp only [hread, attempt_ok, pure_bind, run_tagged] at hrun
          obtain ⟨left, hleft⟩ := exists_of_mapContext_eq_ok hrun
          obtain ⟨inside, hinside⟩ := exists_of_mapContext_eq_ok hleft
          obtain ⟨noted, hnoted, hexpand⟩ := place.run_expandText path source
            (Context.withTag { context with ancestry := context.ancestry ++ [path] } path.name)
          have hmatches := place.steady_expandFrom 1 path source noted
            { context with ancestry := context.ancestry ++ [path] } hnoted.symm
          rw [← hexpand, hinside] at hmatches
          obtain ⟨left', hstart, -⟩ := hmatches.of_ok
          exact ⟨source, left', rfl, hstart⟩

/-- A source that is expanded comes to every template that it imports, and that is expanded. -/
theorem exists_comesToImport
    (hrun : (concat (place.expandPiece place.compileFile file) (Piece.ofSource source)).run start =
      .ok text ended)
    (himports : place.SourceImports file source found) :
    ∃ reached own left, place.ComesToImport ⟨file, source, start⟩ found reached ∧
      (place.compileFile found).run reached = .ok own left := by
  obtain ⟨⟨piece, hpiece, entry, hentry, hleads⟩, htemplate⟩ := himports
  obtain ⟨before, after, hpieces⟩ := List.append_of_mem hpiece
  rw [hpieces] at hrun
  obtain ⟨passed, opened, expanded, behind, hbefore, hexpanded⟩ := exists_of_run_concat_append hrun
  cases piece with
  | literal | broken => cases hentry
  | directive directive =>
      obtain ⟨earlier, later, hentries⟩ := List.append_of_mem hentry
      rw [Piece.importEntries] at hentries
      have hlist : directive.importEntries ≠ [] := by simp [hentries]
      obtain ⟨noted, hnoted, hdirective⟩ :=
        run_expandDirective_of_importEntries place.compileFile file hlist opened
      rw [expandPiece, hdirective, hentries] at hexpanded
      obtain ⟨before', middle, own, left, hearlier, hthis⟩ := exists_of_run_concat_append hexpanded
      obtain ⟨resolved, hresolved, hleading⟩ :=
        run_expandEntry_of_leadsTo hleads place.compileFile directive middle
      rw [hleading] at hthis
      have hclosed : resolved.isOpen found = false := by
        cases hopen : resolved.isOpen found with
        | false => rfl
        | true =>
            rw [expandFound, if_pos htemplate, EStateM.run_bind, EStateM.run_get] at hthis
            simp only [if_pos hopen] at hthis
            cases hthis
      obtain ⟨reached, hreached, hfound⟩ :=
        run_expandFound_of_isTemplate htemplate place.compileFile directive hclosed
      rw [hfound] at hthis
      rw [hresolved.isOpen_eq] at hclosed
      exact ⟨reached, own, left, ⟨before, directive, opened, ⟨⟨after, hpieces⟩, passed, hbefore⟩,
        noted, earlier, entry, later, before', middle, hnoted, hentries, hearlier, hleads,
        htemplate, hclosed, hreached.trans hresolved⟩, hthis⟩

end Templates

theorem Opens.ancestry_eq {outer inner : Expanding} (hopens : place.Opens outer inner) :
    inner.context.ancestry = outer.context.ancestry ++ [inner.file] ∧
      ¬ Context.isAmong outer.context.ancestry inner.file := by
  obtain ⟨reached, hcomes, hagrees, -⟩ := hopens
  obtain ⟨-, hancestry, hclosed⟩ := sourceImports_of_comesToImport hcomes
  exact ⟨hagrees.2.trans (by rw [hancestry]), hclosed⟩

/-- The templates opened in the course of an expansion are not open at its beginning. -/
theorem not_isAmong_of_opens {outer inner : Expanding}
    (hpath : Relation.TransGen place.Opens outer inner) :
    ¬ Context.isAmong outer.context.ancestry inner.file ∧
      ∀ path, Context.isAmong outer.context.ancestry path →
        Context.isAmong inner.context.ancestry path := by
  induction hpath with
  | single hopens =>
      obtain ⟨hancestry, hclosed⟩ := hopens.ancestry_eq
      refine ⟨hclosed, fun path hamong => ?_⟩
      rw [hancestry, Context.isAmong_append, hamong, Bool.true_or]
  | tail _ hopens ih =>
      obtain ⟨hancestry, hclosed⟩ := hopens.ancestry_eq
      refine ⟨fun hamong => hclosed (ih.2 _ hamong), fun path hamong => ?_⟩
      rw [hancestry, Context.isAmong_append, ih.2 path hamong, Bool.true_or]

theorem enters_self {path : Path} {context ended : Context} {text : Text}
    (hrun : (place.compileFile path).run context = .ok text ended) :
    place.Enters path context path := by
  obtain ⟨-, source, -, hread, -⟩ := exists_of_compileFile_eq_ok hrun
  exact ⟨source, _, hread, .refl, rfl⟩

/-- What is entered from a template on the way is entered by the whole expansion, and none of the
files in which the template is opened is entered again. -/
theorem Enters.of_comesToImport {path found entered : Path} {source : Text}
    {context reached : Context}
    (hread : place.compiler.readText place.tree path [] none = .ok source)
    (hcomes : place.ComesToImport
      ⟨path, source, { context with ancestry := context.ancestry ++ [path] }⟩ found reached)
    (henters : place.Enters found reached entered) :
    place.Enters path context entered ∧
      ¬ Context.isAmong (context.ancestry ++ [path]) entered := by
  obtain ⟨inside, inner, hinside, hopens, rfl⟩ := henters
  have hfirst : place.Opens
      ⟨path, source, { context with ancestry := context.ancestry ++ [path] }⟩
      ⟨found, inside, { reached with ancestry := reached.ancestry ++ [found] }⟩ :=
    ⟨reached, hcomes, .refl _, hinside⟩
  exact ⟨⟨source, inner, hread, .head hfirst hopens, rfl⟩,
    (not_isAmong_of_opens (.head' hfirst hopens)).1⟩

/-- A file that can be expanded has the same script wherever no file is open that it enters. -/
theorem scriptWithin_of_compileFile {path : Path} {context ended : Context} {text : Text}
    {other : List Path} (hrun : (place.compileFile path).run context = .ok text ended)
    (hentered : ∀ entered, place.Enters path context entered → ¬ Context.isAmong other entered) :
    place.scriptWithin place.room other path =
      place.scriptWithin place.room context.ancestry path := by
  -- with every template that is opened there is one less to open
  induction hcount : (place.unopened (context.ancestry ++ [path])).ncard using
    Nat.strong_induction_on generalizing path context ended text other with
  | _ count ih =>
      obtain ⟨hopen, source, left, hread, hpieces⟩ := exists_of_compileFile_eq_ok hrun
      have hother : ¬ Context.isAmong other path := hentered path (enters_self hrun)
      have hclosed : ¬ Context.isAmong context.ancestry path := by
        simpa [Context.isOpen] using hopen
      rw [room, scriptWithin, scriptWithin, if_neg hother, if_neg hclosed, hread]
      refine sourceScript_congr_of_isAmong fun found himports => ?_
      obtain ⟨reached, own, left', hcomes, hfound⟩ := exists_comesToImport hpieces himports
      obtain ⟨-, hancestry, hnew⟩ := sourceImports_of_comesToImport hcomes
      have houter (entered : Path) (hinner : place.Enters found reached entered) :
          ¬ Context.isAmong (other ++ [path]) entered := by
        obtain ⟨hpath, hagain⟩ := hinner.of_comesToImport hread hcomes
        rw [Context.isAmong_append, Bool.or_eq_true, not_or] at hagain ⊢
        exact ⟨hentered entered hpath, hagain.2⟩
      have hnew' := houter found (enters_self hfound)
      refine ⟨by simp only [hnew, hnew'], fun _ => ?_⟩
      have hfewer : (place.unopened (reached.ancestry ++ [found])).ncard < count := by
        rw [← hcount, hancestry]
        exact ncard_unopened_lt himports hnew
      rw [scriptWithin_eq_of_sourceImports himports hnew' ncard_findable_le,
        scriptWithin_eq_of_sourceImports himports hnew ncard_findable_le,
        ih _ hfewer hfound houter rfl, hancestry]

/-- A file that is entered is the one that the expansion begins with, or is found for an entry of
some import list. -/
theorem Enters.eq_or_mem_findable {path entered : Path} {context : Context}
    (henters : place.Enters path context entered) :
    entered = path ∨ Context.pathKey entered ∈ place.findable := by
  obtain ⟨source, inner, -, hopens, rfl⟩ := henters
  rcases Relation.ReflTransGen.cases_tail hopens with rfl | ⟨outer, -, hlast⟩
  · exact .inl rfl
  · obtain ⟨reached, hcomes, -⟩ := hlast
    obtain ⟨⟨⟨-, -, entry, -, hleads⟩, -⟩, -⟩ := sourceImports_of_comesToImport hcomes
    exact .inr ⟨outer.file, entry, inner.file, hleads, rfl⟩

/-- A file that can be expanded is expanded to the same text where more variables have values and
inside any files, unless one of them is entered. Both expansions perform one script. So they assign
the same values, and the other variables and the files that are open are left as they are. -/
theorem compileFile_of_extends {path : Path} {context context' ended : Context} {text : Text}
    (hrun : (place.compileFile path).run context = .ok text ended)
    (hextends : context'.Extends context)
    (hentered : ∀ entered, place.Enters path context entered → ¬ context'.isOpen entered) :
    let script := place.script context.ancestry path
    ∃ ended', (place.compileFile path).run context' = .ok text ended' ∧
      ended'.ancestry = context'.ancestry ∧
      (place.perform script).run context = .ok text ended ∧
      (place.perform script).run context' = .ok text ended' ∧
      ∀ name,
        ended.bindings.lookup name =
            (lastAssigned? name script).or (context.bindings.lookup name) ∧
          ended'.bindings.lookup name =
            (lastAssigned? name script).or (context'.bindings.lookup name) := by
  intro script
  have hscript : place.script context'.ancestry path = script :=
    congrArg untilStop (scriptWithin_of_compileFile hrun hentered)
  rw [run_compileFile] at hrun
  obtain ⟨ended', hrun'⟩ := exists_of_perform hextends hrun
  have hkept := place.keepsAncestry_perform script context'
  rw [hrun'] at hkept
  refine ⟨ended', ?_, hkept, hrun, hrun', fun name => ⟨?_, ?_⟩⟩
  · rw [run_compileFile, hscript, hrun']
  · exact place.lookup_bindings_perform hrun name
  · exact place.lookup_bindings_perform hrun' name

/-- A page that imports a template, inside a third file and with a variable that neither of them
knows. -/
theorem compileFile_of_extends_page :
    let place : Workplace := ⟨{ postsDirectory := ⟨.root, []⟩ }, (Workspace.ofFiles
      [("a.kit".toList, "<!--$x 1-->a<!-- @import b --><!--$y-->".toList),
        ("b.kit".toList, "<!--$y 2--><!--$x-->".toList)]).tree⟩
    let path : Path := ⟨.root, ["a.kit".toList]⟩
    let context : Context :=
      { bindings := [("$z".toList, "3".toList)], ancestry := [⟨.root, ["c.kit".toList]⟩] }
    ∃ ended, (place.compileFile path).run context = .ok "a12".toList ended ∧
      ended.ancestry = context.ancestry ∧ ended.bindings.lookup "$z".toList = some "3".toList := by
  intro place path context
  have hvalue : value? ((place.compileFile path).run {}) = some "a12".toList := by
    decide +kernel
  obtain ⟨left, hrun⟩ := exists_of_value? hvalue
  have hextends : context.Extends {} := fun name value hlookup => by cases hlookup
  have hentered (entered : Path) (henters : place.Enters path {} entered) :
      ¬ context.isOpen entered := by
    intro hopen
    have hkey : Context.pathKey entered = Context.pathKey ⟨.root, ["c.kit".toList]⟩ :=
      List.mem_singleton.1 (isAmong_iff.1 hopen)
    rcases henters.eq_or_mem_findable with rfl | hfindable
    · revert hkey
      decide +kernel
    · have hspelled := mem_spellings hfindable
      rw [hkey] at hspelled
      revert hspelled
      decide +kernel
  obtain ⟨ended, hended, hancestry, -, -, hassigned⟩ :=
    compileFile_of_extends hrun hextends hentered
  have hunassigned : lastAssigned? "$z".toList (place.script [] path) = none := by decide +kernel
  refine ⟨ended, hended, hancestry, (hassigned "$z".toList).2.trans ?_⟩
  rw [hunassigned]
  rfl

end Workplace

end KitTemplate
