import KitTemplate.Proofs.Expansion.Store

/-! Assignments that are written out. A comment with the name of a variable, a blank and a value
gives that value to the variable, before anything else happens, exactly if the value is trimmed,
does not begin like the gap before a value, and does not close the comment
(`expandText_assigns_first`). Otherwise it gives another value to the variable, or none. -/

namespace KitTemplate

open Text Expansion

/-- An event that leaves a note or copies no text. -/
def Event.isIdle : Event → Bool
  | .note .. => true
  | .text copied => copied.isEmpty
  | .assign .. | .use .. | .insert .. | .stop _ => false

namespace Workplace

/-- A script that gives a value to a variable before it does anything but leave notes. -/
def AssignsFirst (script : List Event) (name value : Text) : Prop :=
  (script.dropWhile Event.isIdle).head? = some (.assign name value)

variable {place : Workplace} {context : Context} {name value : Text} {script : List Event}

theorem assignsFirst_cons_of_isIdle {event : Event} (hevent : event.isIdle) :
    AssignsFirst (event :: script) name value ↔ AssignsFirst script name value := by
  rw [AssignsFirst, List.dropWhile_cons_of_pos hevent, AssignsFirst]

theorem assignsFirst_cons_of_not_isIdle {event : Event} (hevent : ¬ event.isIdle) :
    AssignsFirst (event :: script) name value ↔ event = .assign name value := by
  rw [AssignsFirst, List.dropWhile_cons_of_neg hevent, List.head?_cons, Option.some_inj]

/-! ### What an assignment that comes first does -/

theorem run_idle {event : Event} (hevent : event.isIdle) (context : Context) :
    ∃ reached, (place.act event).run context = .ok [] reached ∧
      reached.bindings = context.bindings := by
  cases event with
  | note tag level message => exact ⟨_, rfl, rfl⟩
  | text copied =>
      obtain rfl := List.isEmpty_iff.1 hevent
      exact ⟨context, rfl, rfl⟩
  | assign | use | insert | stop => cases hevent

theorem AssignsFirst.exists_reached (hscript : AssignsFirst script name value)
    (context : Context) : ∃ count reached,
      (place.perform (script.take count)).run context = .ok [] reached ∧
        reached.bindings = Table.put name value context.bindings := by
  induction script generalizing context with
  | nil => cases hscript
  | cons event rest ih =>
      by_cases hevent : event.isIdle
      · obtain ⟨noted, hnoted, hbindings⟩ := place.run_idle hevent context
        obtain ⟨count, reached, hrun, hreached⟩ :=
          ih ((assignsFirst_cons_of_isIdle hevent).1 hscript) noted
        refine ⟨count + 1, reached, ?_, hbindings ▸ hreached⟩
        exact (run_concat_cons_eq_ok context).2 ⟨[], noted, [], hnoted, hrun, rfl⟩
      · obtain rfl := (assignsFirst_cons_of_not_isIdle hevent).1 hscript
        exact ⟨1, context.assign name value, rfl, rfl⟩

/-! ### Which value is assigned -/

theorem begins_of_isName (hname : Keyword.IsName name) (text : Text) :
    Directive.begins (commentOpen ++ (name ++ text)) := by
  refine Directive.begins_iff.2 ⟨[], name ++ text, ?_, nofun, ?_⟩
  · rw [List.append_nil]
  · exact Keyword.startsText_append hname.starts text

/-- A directive without a value assigns nothing. -/
theorem not_assignsFirst_of_value_eq_none {importScript : Path → List Event}
    {ancestry : List Path} {tag : Text} {file : Path} {directive : Directive}
    (hvalue : directive.value = none) (rest : List Event) :
    ¬ AssignsFirst (place.directiveScript importScript ancestry tag file directive ++ rest) name
      value := by
  rw [directiveScript, List.cons_append, assignsFirst_cons_of_isIdle rfl]
  cases (Registry.standard.find directive.keyword).category with
  | values =>
      simp only [variableScript, hvalue, List.cons_append]
      rw [assignsFirst_cons_of_not_isIdle (by simp [Event.isIdle])]
      rintro ⟨⟩
  | imports | partials =>
      simp only [hvalue, List.cons_append]
      rw [assignsFirst_cons_of_not_isIdle (by simp [Event.isIdle])]
      rintro ⟨⟩

/-- A directive whose keyword names a variable assigns its value. -/
theorem assignsFirst_of_value_eq_some {importScript : Path → List Event}
    {ancestry : List Path} {tag : Text} {file : Path} {directive : Directive} {given : Text}
    (hkeyword : ¬ Registry.isReserved directive.keyword) (hvalue : directive.value = some given)
    (rest : List Event) :
    AssignsFirst (place.directiveScript importScript ancestry tag file directive ++ rest) name
      value ↔ directive.keyword = name ∧ given = value := by
  rw [directiveScript, List.cons_append, assignsFirst_cons_of_isIdle rfl]
  simp only [Registry.category_find_eq_values_iff.2 hkeyword, variableScript, hvalue,
    List.cons_append]
  rw [assignsFirst_cons_of_not_isIdle (by simp [Event.isIdle]), Event.assign.injEq]

/-- A comment with a name and a value assigns first what is read of its body. -/
theorem assignsFirst_iff (hname : Keyword.IsVariable name) {written : Text}
    (hwritten : ¬ commentClose <:+: written) (behind : Text) (file : Path) :
    AssignsFirst (place.textScript context file
        (commentOpen ++ (name ++ ' ' :: written) ++ commentClose ++ behind)) name value ↔
      Keyword.ofBody? (name ++ ' ' :: written) = some (name, some value) := by
  have hbegins : Directive.begins (commentOpen ++ (name ++ ' ' :: written) ++ commentClose) := by
    simpa using begins_of_isName hname.toIsName (' ' :: written ++ commentClose)
  obtain ⟨⟨keyword, given⟩, hbody⟩ := Option.isSome_iff_exists.1
    (Keyword.isSome_ofBody? (Directive.begins_append hbegins behind))
  obtain ⟨directive, later, hpieces, hkeyword, hgiven, -⟩ :=
    Cursor.pieces_of_ofBody? (not_isInfix_body hname.unmarked hwritten) hbody hbegins behind 1
  rw [textScript, sourceScript, Piece.ofSource, hpieces, List.flatMap_cons, List.flatMap_cons,
    assignsFirst_cons_of_isIdle rfl, pieceScript, List.cons_append, List.nil_append,
    assignsFirst_cons_of_isIdle rfl, pieceScript, hbody, Option.some_inj, Prod.mk.injEq]
  cases given with
  | none =>
      refine iff_of_false (not_assignsFirst_of_value_eq_none hgiven _) ?_
      rintro ⟨-, hnone⟩
      cases hnone
  | some given =>
      have hsame : keyword = name := by
        obtain ⟨sigil, letter, rest, rfl, hsigil, -⟩ := Keyword.startsText_iff.1 hname.starts
        exact Keyword.eq_name_of_ofBody? hsigil (List.forall_mem_cons.1 hname.unended).2 hbody
      subst hsame
      rw [assignsFirst_of_value_eq_some (hkeyword ▸ hname.unreserved) hgiven, hkeyword,
        Option.some_inj]

/-- A comment with the name of a variable, a blank and a value, whatever follows it, gives exactly
that value to the variable before anything else happens if and only if the value has text, neither
begins nor ends with a blank, does not begin with an equals sign or a colon, and holds no closing
mark. -/
theorem expandText_assigns_first (hname : Keyword.IsVariable name) (place : Workplace)
    (file : Path) (value following : Text) (context : Context) :
    let source := commentOpen ++ (name ++ ' ' :: value) ++ commentClose ++ following
    let script := place.textScript context file source
    (place.expandText file source).run context = (place.perform script).run context ∧
      (AssignsFirst script name value ↔ value.IsTrimmed ∧
        (∀ c ∈ value.head?, c ≠ '=' ∧ c ≠ ':') ∧ ¬ commentClose <:+: value) ∧
      (AssignsFirst script name value → ∃ count reached,
        (place.perform (script.take count)).run context = .ok [] reached ∧
          reached.bindings = Table.put name value context.bindings) := by
  intro source script
  refine ⟨place.run_textScript file source context, ?_, fun hfirst => hfirst.exists_reached context⟩
  by_cases hvalue : commentClose <:+: value
  · refine iff_of_false (fun hfirst => ?_) fun hexact => hexact.2.2 hvalue
    -- the comment ends at the first mark in the value, so the whole value is not in its body
    obtain ⟨written, rest, hcut⟩ := exists_cut? (by decide) hvalue
    have hunmarked := not_isInfix_of_cut? (by decide) hcut
    have hsource : source = commentOpen ++ (name ++ ' ' :: written) ++ commentClose ++
        (rest ++ commentClose ++ following) := by
      show commentOpen ++ (name ++ ' ' :: value) ++ commentClose ++ following = _
      conv_lhs => rw [eq_of_cut? hcut]
      simp
    rw [show script = place.textScript context file source from rfl, hsource,
      assignsFirst_iff hname hunmarked] at hfirst
    exact not_isInfix_body hname.unmarked hunmarked (hvalue.trans (Keyword.value_isInfix hfirst))
  · obtain ⟨sigil, letter, tail, rfl, hsigil, -⟩ := Keyword.startsText_iff.1 hname.starts
    have hended := (List.forall_mem_cons.1 hname.unended).2
    rw [assignsFirst_iff hname hvalue, Keyword.ofBody?_eq_self_iff hsigil hended]
    simp only [hvalue, not_false_eq_true, and_true]

/-- A value may end with a dash, although the closing mark begins with one. -/
theorem expandText_assigns_first_dash :
    let place : Workplace := ⟨{ postsDirectory := ⟨.root, []⟩ }, .ofEntries [] ⟨.root, []⟩⟩
    let file : Path := ⟨.root, ["a.kit".toList]⟩
    let script := place.textScript {} file "<!--$x 1---><!--$x-->".toList
    Keyword.IsVariable "$x".toList ∧ ∃ count reached,
      (place.perform (script.take count)).run {} = .ok [] reached ∧
        reached.bindings = [("$x".toList, "1-".toList)] := by
  intro place file script
  have hname : Keyword.IsVariable "$x".toList :=
    { starts := by decide
      unended := by simp [Keyword.endsKeyword]
      unmarked := by decide
      unreserved := by decide }
  obtain ⟨-, hexact, hbinds⟩ :=
    expandText_assigns_first hname place file "1-".toList "<!--$x-->".toList {}
  have hvalue : Text.IsTrimmed "1-".toList := by decide
  exact ⟨hname, hbinds (hexact.2 ⟨hvalue, by simp, by decide⟩)⟩

end Workplace

end KitTemplate
