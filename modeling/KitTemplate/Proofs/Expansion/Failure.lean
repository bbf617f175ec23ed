import KitTemplate.Expansion

/-! How expansions fail. Work that fails ends with the fault of that part of it which has failed,
and no part is tried after that one. -/

namespace KitTemplate

namespace Expansion

variable {α : Type} {fault : Fault} {context ended : Context}

theorem exists_of_mapError_eq_error {ε : Type} {change : ε → Fault} {outcome : Except ε α}
    (hmapped : outcome.mapError change = .error fault) :
    ∃ own, outcome = .error own ∧ fault = change own := by
  cases outcome with
  | ok value => cases hmapped
  | error own => exact ⟨own, rfl, (Except.error.inj hmapped).symm⟩

theorem eq_of_run_attempt_eq_error {outcome : Except Fault α}
    (hrun : (attempt outcome).run context = .error fault ended) : outcome = .error fault := by
  cases outcome with
  | ok value => cases hrun
  | error own =>
      obtain ⟨rfl, -⟩ := EStateM.Result.error.inj hrun
      rfl

theorem run_withValue_eq_error {name : Text} {file : Path} {line : Int} {work : Text → Expansion α}
    (hrun : (withValue name file line work).run context = .error fault ended) :
    fault = .template ⟨.undefinedVariable name, file.name, some line⟩ ∨
      ∃ value, context.bindings.lookup name = some value ∧
        (work value).run context = .error fault ended := by
  rw [run_withValue] at hrun
  cases hvalue : context.bindings.lookup name with
  | none =>
      rw [hvalue] at hrun
      exact Or.inl (EStateM.Result.error.inj hrun).1.symm
  | some value =>
      rw [hvalue] at hrun
      exact Or.inr ⟨value, rfl, hrun⟩

/-- Work fails inside a file, unless the file is open already. -/
theorem run_inside_eq_error {path : Path} {work : Expansion α}
    (hrun : (inside path work).run context = .error fault ended) :
    context.isOpen path ∧ fault = .template ⟨.cycle, path.name, none⟩ ∨
      ∃ reached, work.run { context with ancestry := context.ancestry ++ [path] } =
        .error fault reached := by
  rw [run_inside, Context.enter] at hrun
  by_cases hopen : context.isOpen path
  · rw [if_pos hopen] at hrun
    exact Or.inl ⟨hopen, (EStateM.Result.error.inj hrun).1.symm⟩
  · rw [if_neg hopen] at hrun
    right
    dsimp only at hrun
    cases hwork : work.run { context with ancestry := context.ancestry ++ [path] } with
    | ok value reached =>
        rw [hwork] at hrun
        cases hrun
    | error own reached =>
        rw [hwork] at hrun
        obtain ⟨rfl, -⟩ := EStateM.Result.error.inj hrun
        exact ⟨reached, rfl⟩

theorem run_tagged_eq_error {tag : Text} {work : Expansion α}
    (hrun : (tagged tag work).run context = .error fault ended) :
    ∃ reached, work.run (context.withTag tag) = .error fault reached := by
  rw [run_tagged] at hrun
  cases hwork : work.run (context.withTag tag) with
  | ok value reached =>
      rw [hwork] at hrun
      cases hrun
  | error own reached =>
      rw [hwork] at hrun
      obtain ⟨rfl, -⟩ := EStateM.Result.error.inj hrun
      exact ⟨reached, rfl⟩

end Expansion

namespace Workplace

open Expansion

variable {place : Workplace} {fault : Fault} {context ended : Context}

theorem exists_of_target_eq_error {file : Path} {spec : Text}
    (htarget : place.target file spec = .error fault) :
    ∃ problem, place.compiler.settings.applyExtension
        (Path.absolute place.tree.workingDirectory (file.parent.child spec)) = .error problem ∧
      fault = .rename problem :=
  exists_of_mapError_eq_error htarget

/-- A file of the posts directory is not included because the variable has no value, because the
path may not be looked at, because there is no such file, or because the file cannot be read. -/
theorem cases_of_expandPartial {file : Path} {line : Int} {name : Text}
    (hrun : (place.expandPartial file line name).run context = .error fault ended) :
    fault = .template ⟨.undefinedVariable name, file.name, some line⟩ ∨
      ∃ value, context.bindings.lookup name = some value ∧
        let path := place.compiler.postsDirectory.child value
        (∃ denial, place.tree.isFile path = .error denial ∧ fault = .denied denial) ∨
          fault = .template ⟨.partialMissing path, file.name, some line⟩ ∨
          place.compiler.readText place.tree path file.name (some line) = .error fault := by
  rcases run_withValue_eq_error hrun with hundefined | ⟨value, hvalue, hfile⟩
  · exact Or.inl hundefined
  refine Or.inr ⟨value, hvalue, ?_⟩
  rcases (run_bind_eq_error context).1 hfile with hdenied | ⟨found, reached, -, hfound⟩
  · exact Or.inl (exists_of_mapError_eq_error (eq_of_run_attempt_eq_error hdenied))
  · cases found with
    | false => exact Or.inr (Or.inl (EStateM.Result.error.inj hfound).1.symm)
    | true =>
        rcases (run_bind_eq_error reached).1 hfound with hnote | ⟨_, noted, -, hread⟩
        · cases hnote
        · exact Or.inr (Or.inr (eq_of_run_attempt_eq_error hread))

end Workplace

end KitTemplate
