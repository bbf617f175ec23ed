import KitTemplate.Proofs.Expansion.Blame

/-! Runs side by side. Two outcomes match if they are both successes with the same value or both
failures with related faults, and leave contexts behind that differ in their journals only. The
journal has no influence on the expansion of a file (`steady_compileFile`). Work on some things,
one after the other, is compared thing by thing (`matches_concat`); where it fails in a way that
concerns one of the things, that is the thing at which it ends (`FailsWithin`). -/

namespace KitTemplate

namespace Context

theorem Agrees.refl (context : Context) : context.Agrees context := ⟨rfl, rfl⟩

theorem Agrees.symm {first second : Context} (hagrees : first.Agrees second) :
    second.Agrees first :=
  ⟨hagrees.1.symm, hagrees.2.symm⟩

theorem Agrees.note {first second : Context} (hagrees : first.Agrees second) (level level' : Int)
    (message message' : Text) : (first.note level message).Agrees (second.note level' message') :=
  hagrees

theorem Agrees.assign {first second : Context} (hagrees : first.Agrees second) (name value : Text) :
    (first.assign name value).Agrees (second.assign name value) :=
  ⟨congrArg (Table.put name value) hagrees.1, hagrees.2⟩

theorem Agrees.withTag {first second : Context} (hagrees : first.Agrees second) (tag tag' : Text) :
    (first.withTag tag).Agrees (second.withTag tag') :=
  hagrees

end Context

namespace Expansion

variable {α β : Type}

/-- Outcomes that differ in their journals only, but for faults that are related. -/
inductive Matches (like : Fault → Fault → Prop) :
    EStateM.Result Fault Context α → EStateM.Result Fault Context α → Prop
  | ok {value : α} {ended ended' : Context} (hagrees : ended'.Agrees ended) :
      Matches like (.ok value ended) (.ok value ended')
  | error {fault fault' : Fault} {ended ended' : Context} (hlike : like fault fault')
      (hagrees : ended'.Agrees ended) : Matches like (.error fault ended) (.error fault' ended')

/-- The value of a success. -/
def value? : EStateM.Result Fault Context α → Option α
  | .ok value _ => some value
  | .error _ _ => none

theorem exists_of_value? {outcome : EStateM.Result Fault Context α} {value : α}
    (hvalue : value? outcome = some value) : ∃ ended, outcome = .ok value ended := by
  cases outcome with
  | ok own ended =>
      obtain rfl := Option.some.inj hvalue
      exact ⟨ended, rfl⟩
  | error fault ended => cases hvalue

variable {like : Fault → Fault → Prop}

theorem Matches.value?_eq {outcome outcome' : EStateM.Result Fault Context α}
    (hmatches : Matches like outcome outcome') : value? outcome' = value? outcome := by
  cases hmatches <;> rfl

theorem Matches.of_ok {value : α} {ended : Context} {outcome : EStateM.Result Fault Context α}
    (hmatches : Matches like (.ok value ended) outcome) :
    ∃ ended', outcome = .ok value ended' ∧ ended'.Agrees ended := by
  cases hmatches with
  | ok hagrees => exact ⟨_, rfl, hagrees⟩

theorem Matches.of_error {fault : Fault} {ended : Context}
    {outcome : EStateM.Result Fault Context α}
    (hmatches : Matches like (.error fault ended) outcome) :
    ∃ fault' ended', outcome = .error fault' ended' ∧ like fault fault' ∧ ended'.Agrees ended := by
  cases hmatches with
  | error hlike hagrees => exact ⟨_, _, rfl, hlike, hagrees⟩

theorem Matches.mono {other : Fault → Fault → Prop} {outcome outcome' :
    EStateM.Result Fault Context α} (hmatches : Matches like outcome outcome')
    (hlike : ∀ fault ended fault', outcome = .error fault ended → like fault fault' →
      other fault fault') : Matches other outcome outcome' := by
  cases hmatches with
  | ok hagrees => exact .ok hagrees
  | error hfault hagrees => exact .error (hlike _ _ _ rfl hfault) hagrees

theorem Matches.bind {work work' : Expansion α} {next next' : α → Expansion β}
    {context context' : Context} (hwork : Matches like (work.run context) (work'.run context'))
    (hnext : ∀ value reached reached', work.run context = .ok value reached →
      reached'.Agrees reached →
        Matches like ((next value).run reached) ((next' value).run reached')) :
    Matches like ((work >>= next).run context) ((work' >>= next').run context') := by
  rw [EStateM.run_bind, EStateM.run_bind]
  generalize hrun : work.run context = outcome at hwork
  generalize work'.run context' = outcome' at hwork
  cases hwork with
  | ok hagrees => exact hnext _ _ _ hrun hagrees
  | error hlike hagrees => exact .error hlike hagrees

theorem Matches.mapContext {change change' : Context → Context} {outcome outcome' :
    EStateM.Result Fault Context α} (hmatches : Matches like outcome outcome')
    (hchange : ∀ ended ended', ended'.Agrees ended → (change' ended').Agrees (change ended)) :
    Matches like (Expansion.mapContext change outcome) (Expansion.mapContext change' outcome') := by
  cases hmatches with
  | ok hagrees => exact .ok (hchange _ _ hagrees)
  | error hlike hagrees => exact .error hlike (hchange _ _ hagrees)

/-- Notes in front of some work make no difference. -/
theorem Matches.note {work work' : Expansion α} {level level' : Int} {message message' : Text}
    {context context' : Context} (hagrees : context'.Agrees context)
    (hwork : ∀ noted noted', noted.Agrees context → noted'.Agrees noted →
      Matches like (work.run noted) (work'.run noted')) :
    Matches like ((do note level message; work : Expansion α).run context)
      ((do note level' message'; work' : Expansion α).run context') := by
  rw [EStateM.run_bind, EStateM.run_bind, run_note, run_note]
  exact hwork _ _ (context.agrees_note level message) (hagrees.note _ _ _ _)

/-! ### Work that does not look at the journal -/

/-- Work on which the journal has no influence. -/
def Steady (work : Expansion α) : Prop :=
  ∀ context context', context'.Agrees context →
    Matches Eq (work.run context) (work.run context')

theorem steady_pure (value : α) : Steady (pure value : Expansion α) := fun _ _ => .ok

theorem steady_attempt (outcome : Except Fault α) : Steady (attempt outcome) := by
  intro context context' hagrees
  cases outcome with
  | ok value => exact .ok hagrees
  | error fault => exact .error rfl hagrees

theorem steady_note (level : Int) (message : Text) : Steady (note level message) :=
  fun _ _ hagrees => .ok (hagrees.note _ _ _ _)

theorem steady_bind {work : Expansion α} {next : α → Expansion β} (hwork : Steady work)
    (hnext : ∀ value, Steady (next value)) : Steady (work >>= next) :=
  fun context context' hagrees => (hwork context context' hagrees).bind
    fun value reached reached' _ => hnext value reached reached'

theorem steady_withValue (name : Text) (file : Path) (line : Int) {work : Text → Expansion α}
    (hwork : ∀ value, Steady (work value)) : Steady (withValue name file line work) := by
  intro context context' hagrees
  rw [run_withValue, run_withValue, hagrees.1]
  cases context.bindings.lookup name with
  | none => exact .error rfl hagrees
  | some value => exact hwork value context context' hagrees

theorem steady_tagged (tag : Text) {work : Expansion α} (hwork : Steady work) :
    Steady (tagged tag work) := by
  intro context context' hagrees
  rw [run_tagged, run_tagged]
  exact (hwork _ _ (hagrees.withTag tag tag)).mapContext fun _ _ hended => hended.withTag _ _

theorem steady_concat {work : α → Expansion Text} (hwork : ∀ thing, Steady (work thing))
    (things : List α) : Steady (concat work things) := by
  induction things with
  | nil => exact steady_pure []
  | cons first rest ih =>
      exact steady_bind (hwork first) fun _ => steady_bind ih fun _ => steady_pure _

end Expansion

open Expansion

namespace Workplace

variable (place : Workplace)

theorem steady_expandPartial (file : Path) (line : Int) (name : Text) :
    Steady (place.expandPartial file line name) := by
  apply steady_withValue
  intro value
  apply steady_bind (steady_attempt _)
  intro found
  cases found with
  | false => exact steady_attempt (.error _)
  | true => exact steady_bind (steady_note _ _) fun _ => steady_attempt _

theorem steady_act (event : Event) : Steady (place.act event) := by
  cases event with
  | text text => exact steady_pure text
  | note tag level message =>
      exact steady_tagged tag (steady_bind (steady_note level message) fun _ => steady_pure [])
  | assign name value => exact fun _ _ hagrees => .ok (hagrees.assign name value)
  | use name file line => exact steady_withValue name file line steady_pure
  | insert tag name file line => exact steady_tagged tag (place.steady_expandPartial file line name)
  | stop fault => exact steady_attempt (.error fault)

theorem steady_perform (events : List Event) : Steady (place.perform events) :=
  steady_concat place.steady_act events

theorem steady_compileFile (path : Path) : Steady (place.compileFile path) := by
  intro context context' hagrees
  rw [compileFile, run_compileFileWithin, run_compileFileWithin, hagrees.2]
  exact place.steady_perform _ context context' hagrees

end Workplace

/-! ### Work on some things -/

namespace Expansion

variable {α : Type} {work work' : α → Expansion Text} {inner : α → Context → Fault → Prop}

/-- Work on some things comes to one of them at which it fails in a certain way. -/
def FailsWithin (work : α → Expansion Text) (inner : α → Context → Fault → Prop) (things : List α)
    (context : Context) (fault : Fault) : Prop :=
  ∃ before thing after text reached, things = before ++ thing :: after ∧
    (concat work before).run context = .ok text reached ∧ inner thing reached fault

/-- Some faults are the same in both of two runs, and all others are related. -/
def SameOr (same : Fault → Prop) (like : Fault → Fault → Prop) (fault fault' : Fault) : Prop :=
  (same fault → fault' = fault) ∧ (¬ same fault → like fault fault')

theorem FailsWithin.of_agrees {things : List α} {context context' : Context} {fault : Fault}
    (hfails : FailsWithin work inner things context fault) (hwork : ∀ thing, Steady (work thing))
    (hinner : ∀ thing context context' fault, context'.Agrees context →
      inner thing context fault → inner thing context' fault)
    (hagrees : context'.Agrees context) : FailsWithin work inner things context' fault := by
  obtain ⟨before, thing, after, text, reached, hthings, hbefore, hthing⟩ := hfails
  have hmatches := steady_concat hwork before context context' hagrees
  rw [hbefore] at hmatches
  obtain ⟨reached', hbefore', hreached⟩ := hmatches.of_ok
  exact ⟨before, thing, after, text, reached', hthings, hbefore', hinner _ _ _ _ hreached hthing⟩

section FailsWithin

variable {first : α} {rest : List α} {context reached : Context} {text : Text} {fault : Fault}
  (hinner : ∀ thing context fault, inner thing context fault →
    ∃ ended, (work thing).run context = .error fault ended)

include hinner

theorem failsWithin_cons_of_ok (hrun : (work first).run context = .ok text reached) :
    FailsWithin work inner (first :: rest) context fault ↔
      FailsWithin work inner rest reached fault := by
  constructor
  · rintro ⟨before, thing, after, passed, middle, hthings, hbefore, hfails⟩
    cases before with
    | nil =>
        obtain ⟨rfl, rfl⟩ := List.cons.inj hthings
        obtain ⟨rfl, rfl⟩ := EStateM.Result.ok.inj hbefore
        obtain ⟨ended, hended⟩ := hinner _ _ _ hfails
        rw [hrun] at hended
        cases hended
    | cons other before =>
        obtain ⟨rfl, rfl⟩ := List.cons.inj hthings
        obtain ⟨head, reached', tail, hhead, htail, -⟩ := (run_concat_cons_eq_ok _).1 hbefore
        obtain ⟨rfl, rfl⟩ := EStateM.Result.ok.inj (hrun.symm.trans hhead)
        exact ⟨before, thing, after, tail, middle, rfl, htail, hfails⟩
  · rintro ⟨before, thing, after, passed, middle, rfl, hbefore, hfails⟩
    exact ⟨first :: before, thing, after, text ++ passed, middle, rfl,
      (run_concat_cons_eq_ok _).2 ⟨text, reached, passed, hrun, hbefore, rfl⟩, hfails⟩

omit hinner in
theorem failsWithin_cons_of_error {own : Fault} {ended : Context}
    (hrun : (work first).run context = .error own ended) :
    FailsWithin work inner (first :: rest) context fault ↔ inner first context fault := by
  constructor
  · rintro ⟨before, thing, after, passed, middle, hthings, hbefore, hfails⟩
    cases before with
    | nil =>
        obtain ⟨rfl, rfl⟩ := List.cons.inj hthings
        obtain ⟨rfl, rfl⟩ := EStateM.Result.ok.inj hbefore
        exact hfails
    | cons other before =>
        obtain ⟨rfl, rfl⟩ := List.cons.inj hthings
        obtain ⟨head, reached', tail, hhead, -⟩ := (run_concat_cons_eq_ok _).1 hbefore
        rw [hrun] at hhead
        cases hhead
  · exact fun hfails => ⟨[], first, rest, [], context, rfl, rfl, hfails⟩

theorem exists_of_failsWithin {things : List α}
    (hfails : FailsWithin work inner things context fault) :
    ∃ ended, (concat work things).run context = .error fault ended := by
  obtain ⟨before, thing, after, passed, middle, rfl, hbefore, hthing⟩ := hfails
  obtain ⟨ended, hended⟩ := hinner _ _ _ hthing
  refine ⟨ended, ?_⟩
  rw [concat_append]
  refine (run_bind_eq_error _).2 (Or.inr ⟨passed, middle, hbefore, ?_⟩)
  refine (run_bind_eq_error _).2 (Or.inl ?_)
  exact (run_concat_cons_eq_error _).2 (Or.inl hended)

/-- Work that goes on in the same way with each of some things. -/
theorem matches_concat {like : Fault → Fault → Prop}
    (hwork : ∀ thing context context', context'.Agrees context →
      Matches (SameOr (inner thing context) like) ((work thing).run context)
        ((work' thing).run context'))
    (things : List α) {context context' : Context} (hagrees : context'.Agrees context) :
    Matches (SameOr (FailsWithin work inner things context) like)
      ((concat work things).run context) ((concat work' things).run context') := by
  induction things generalizing context context' with
  | nil => exact .ok hagrees
  | cons first rest ih =>
      rw [concat, concat]
      refine ((hwork first context context' hagrees).mono
        fun fault ended fault' hrun hlike => ?_).bind fun text reached reached' hrun hreached => ?_
      · rwa [SameOr, failsWithin_cons_of_error hrun]
      · refine ((ih hreached).mono fun fault ended fault' _ hlike => ?_).bind fun _ _ _ _ => .ok
        rwa [SameOr, failsWithin_cons_of_ok hinner hrun]

end FailsWithin

end Expansion

end KitTemplate
