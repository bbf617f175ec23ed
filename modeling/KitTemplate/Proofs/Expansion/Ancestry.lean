import KitTemplate.Proofs.Expansion.Independence

/-! The files that are open. A guard opens a file only if none is open under its path, whatever the
letter case, and turns it away otherwise; so the files that are open stay different from one another
however guards are entered and left (`HasDistinctFiles.of_guards`). Work on a source opens and
closes files of its own, but it leaves open what was open before, also where a fault ends it inside
of other files. -/

namespace KitTemplate

open Expansion

/-- No file is open twice. -/
def Context.HasDistinctFiles (context : Context) : Prop :=
  (context.ancestry.map Context.pathKey).Nodup

/-- What a guard does to a context: it opens a file, it ends work on a file that is open already, or
it closes the file that was opened last. -/
inductive Guards : Context → Context → Prop
  | opens {context opened : Context} {path : Path} (henter : context.enter path = .ok opened) :
      Guards context opened
  | rejects {context ended : Context} {path : Path} {work : Expansion Text} {fault : Fault}
      (hopen : context.isOpen path)
      (hrun : (inside path work).run context = .error fault ended) : Guards context ended
  | closes (context : Context) : Guards context context.leave

namespace Context.HasDistinctFiles

variable {context other : Context}

theorem of_guard (hcontext : context.HasDistinctFiles) (hguard : Guards context other) :
    other.HasDistinctFiles := by
  cases hguard with
  | @opens _ path henter =>
      rw [Context.enter] at henter
      split at henter
      · cases henter
      · rename_i hclosed
        obtain rfl := Except.ok.inj henter
        exact Workplace.nodup_concat_iff.2 ⟨hcontext, hclosed⟩
  | rejects hopen hrun =>
      rw [Workplace.run_inside_of_isOpen hopen] at hrun
      obtain ⟨-, rfl⟩ := EStateM.Result.error.inj hrun
      exact hcontext
  | closes =>
      have hclosed : context.leave.ancestry.Sublist context.ancestry :=
        List.dropLast_sublist context.ancestry
      exact List.Nodup.sublist (hclosed.map Context.pathKey) hcontext

theorem of_guards (hcontext : context.HasDistinctFiles)
    (hguards : Relation.ReflTransGen Guards context other) : other.HasDistinctFiles := by
  induction hguards with
  | refl => exact hcontext
  | tail _ hguard ih => exact ih.of_guard hguard

end Context.HasDistinctFiles

namespace Workplace

variable {place : Workplace}

/-- A template is opened inside files that are all different from it. -/
theorem hasDistinctFiles_of_opens {outer inner : Expanding}
    (hopens : Relation.ReflTransGen place.Opens outer inner)
    (houter : outer.context.HasDistinctFiles) : inner.context.HasDistinctFiles := by
  induction hopens with
  | refl => exact houter
  | tail _ hopens ih =>
      obtain ⟨hancestry, hclosed⟩ := hopens.ancestry_eq
      rw [Context.HasDistinctFiles, hancestry]
      exact nodup_concat_iff.2 ⟨ih, hclosed⟩

variable (place)

theorem keepsAncestry_compileFile (path : Path) :
    Keeps (·.ancestry) (place.compileFile path) := by
  intro context
  rw [run_compileFile]
  exact place.keepsAncestry_perform _ context

theorem keepsAncestry_expandText (file : Path) (source : Text) :
    Keeps (·.ancestry) (place.expandText file source) := by
  intro context
  rw [run_textScript]
  exact place.keepsAncestry_perform _ context

end Workplace

/-- However guards are entered and left, no file is open twice, and a guard that turns a file away
leaves everything as it was. The expansion of a file and that of a source leave exactly those files
open that were open before, whether they succeed or fail; and the templates that are opened on the
way, one inside another, are all different. -/
theorem ancestry_is_guarded :
    (∀ context other, Relation.ReflTransGen Guards context other → context.HasDistinctFiles →
        other.HasDistinctFiles) ∧
      (∀ (context : Context) (path : Path) (work : Expansion Text), context.isOpen path →
        (inside path work).run context = .error (.template ⟨.cycle, path.name, none⟩) context) ∧
      ∀ place : Workplace,
        (∀ path context,
          (Workplace.ending ((place.compileFile path).run context)).ancestry = context.ancestry) ∧
        (∀ file source context,
          (Workplace.ending ((place.expandText file source).run context)).ancestry =
            context.ancestry) ∧
        ∀ outer inner, Relation.ReflTransGen place.Opens outer inner →
          outer.context.HasDistinctFiles → inner.context.HasDistinctFiles :=
  ⟨fun _ _ hguards hcontext => hcontext.of_guards hguards,
    fun _ _ work hopen => Workplace.run_inside_of_isOpen hopen work,
    fun place => ⟨place.keepsAncestry_compileFile, place.keepsAncestry_expandText,
      fun _ _ hopens houter => Workplace.hasDistinctFiles_of_opens hopens houter⟩⟩

/-- A file that is opened inside another one, and the outer file again in other letters: it is
turned away, and the two files stay open. -/
theorem ancestry_is_guarded_letter_case :
    let context : Context := { ancestry := [⟨.root, ["a.kit".toList]⟩] }
    let opened : Context :=
      { ancestry := [⟨.root, ["a.kit".toList]⟩, ⟨.root, ["b.kit".toList]⟩] }
    let path : Path := ⟨.root, ["A.KIT".toList]⟩
    Guards context opened ∧ opened.HasDistinctFiles ∧ opened.leave.HasDistinctFiles ∧
      (inside path (pure ([] : Text))).run opened =
        .error (.template ⟨.cycle, "A.KIT".toList, none⟩) opened := by
  intro context opened path
  have henter : context.enter ⟨.root, ["b.kit".toList]⟩ = .ok opened := by cbv
  have hopens : Guards context opened := .opens henter
  have hcontext : context.HasDistinctFiles := List.nodup_singleton _
  have hopen : opened.isOpen path := by decide +kernel
  obtain ⟨hguards, hrejects, -⟩ := ancestry_is_guarded
  have hopened := hguards context opened (.single hopens) hcontext
  exact ⟨hopens, hopened, hguards opened opened.leave (.single (.closes opened)) hopened,
    hrejects opened path (pure []) hopen⟩

end KitTemplate
