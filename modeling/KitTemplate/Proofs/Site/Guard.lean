import KitTemplate.Proofs.Compilation.Effect
import KitTemplate.Proofs.Path.Naming
import KitTemplate.Site.Build

/-! What a build refuses to empty. The output directory is compared with the sources of the site
before anything is changed, and the build ends there if it is one of them or contains one. Paths are
compared by their parts and anchors as they stand. So the guard sees a source that its path spells
from the root by names alone. It misses one whose path goes through a double dot, as the posts and
the templates may, and one behind the other kind of anchor. -/

namespace KitTemplate

namespace Path

/-- A path is that of a directory which contains another one, or the same. -/
theorem covers_iff {outer inner : Path} :
    (decide (outer = inner) || outer.isAbove inner) = true ↔
      outer.anchor = inner.anchor ∧ outer.parts <+: inner.parts := by
  simp only [isAbove, Bool.or_eq_true, Bool.and_eq_true, decide_eq_true_eq,
    List.isPrefixOf_iff_prefix]
  constructor
  · rintro (rfl | ⟨⟨hanchor, -⟩, habove⟩)
    · exact ⟨rfl, List.prefix_rfl⟩
    · exact ⟨hanchor, habove⟩
  · rintro ⟨hanchor, habove⟩
    rcases Nat.lt_or_eq_of_le habove.length_le with hlt | hlength
    · exact Or.inr ⟨⟨hanchor, hlt⟩, habove⟩
    · obtain ⟨anchor, parts⟩ := outer
      obtain ⟨anchor', parts'⟩ := inner
      have hparts : parts = parts' := habove.eq_of_length hlength
      exact Or.inl (by rw [hparts, show anchor = anchor' from hanchor])

end Path

namespace Site

variable {site : Site} {tree : FileTree}

/-- The guard lets a build begin only if the templates are there and no source has the output
directory at or above it, as the paths are spelled. -/
theorem problem?_eq_none_iff :
    site.problem? tree = .ok none ↔ tree.isDirectory site.templates = .ok true ∧
      ∀ source ∈ site.sources tree.workingDirectory,
        ¬ (site.output.anchor = source.2.anchor ∧ site.output.parts <+: source.2.parts) := by
  rw [problem?]
  cases hdirectory : tree.isDirectory site.templates with
  | error denial => simp [bind, Except.bind]
  | ok found =>
      cases found with
      | false => simp [bind, Except.bind, pure, Except.pure]
      | true =>
          simp only [bind, Except.bind, pure, Except.pure, if_true, Except.ok.injEq,
            Option.map_eq_none_iff, List.find?_eq_none, true_and]
          exact forall₂_congr fun source _ => not_congr Path.covers_iff

theorem problem?_eq_error_iff {denial : Denial} :
    site.problem? tree = .error denial ↔ tree.isDirectory site.templates = .error denial := by
  rw [problem?]
  cases tree.isDirectory site.templates with
  | error own => simp [bind, Except.bind]
  | ok found => cases found <;> simp [bind, Except.bind, pure, Except.pure]

/-- A build that the guard does not let begin leaves the workspace as it was. -/
theorem cases_of_problem? (workspace : Workspace)
    (hproblem : site.problem? workspace.tree ≠ .ok none) :
    (∃ problem, site.build.run workspace = .error (.site problem) workspace) ∨
      ∃ denial, workspace.tree.isDirectory site.templates = .error denial ∧
        site.build.run workspace = .error (.denied denial) workspace := by
  rw [build, EStateM.run_bind, EStateM.run_get]
  dsimp only
  split
  · rename_i denial hdenied
    exact Or.inr ⟨denial, problem?_eq_error_iff.1 hdenied, rfl⟩
  · rename_i problem _
    exact Or.inl ⟨problem, rfl⟩
  · rename_i hnone
    exact absurd hnone hproblem

/-- A build whose output directory is, or contains, the place of a source ends before anything is
changed: with a problem of the site, or because the path of the templates may not be looked at. This
holds of sources behind the same anchor as the output directory, and of the posts and the templates
if their paths go through no double dot. -/
theorem build_keeps_sources (settings : Settings) (root : Path) (output : Option Path)
    (compiler : Option Compiler) (workspace : Workspace) (source : Text × Path) :
    let site := configure settings workspace.tree.workingDirectory root output compiler
    source ∈ site.sources workspace.tree.workingDirectory →
    site.output.anchor = source.2.anchor →
    (source.1 = "the posts directory".toList ∨ source.1 = "the templates directory".toList →
      ['.', '.'] ∉ source.2.parts) →
    site.output.place <+: source.2.place →
    (∃ problem, site.build.run workspace = .error (.site problem) workspace) ∨
      ∃ denial, workspace.tree.isDirectory site.templates = .error denial ∧
        site.build.run workspace = .error (.denied denial) workspace := by
  intro site hsource hanchor hdots hplace
  have hspelled (path : Path) :
      ['.', '.'] ∉ (Path.absolute workspace.tree.workingDirectory path).parts :=
    (Path.isAbsolute_absolute workspace.tree.isAbsolute path).not_mem_dots
  have houtput : ['.', '.'] ∉ site.output.parts := hspelled _
  have hsource' : ['.', '.'] ∉ source.2.parts := by
    simp only [sources, List.mem_cons, List.not_mem_nil, or_false] at hsource
    rcases hsource with rfl | rfl | rfl | rfl
    · exact hspelled root
    · exact hdots (Or.inl rfl)
    · exact hdots (Or.inr rfl)
    · exact hspelled _
  rw [Path.place_of_not_mem hsource', Path.place_of_not_mem houtput] at hplace
  refine cases_of_problem? workspace fun hnone => ?_
  exact (problem?_eq_none_iff.1 hnone).2 source hsource ⟨hanchor, hplace⟩

/-- A site that would be built into the directory that holds its posts. -/
theorem build_keeps_sources_posts :
    let workspace := Workspace.ofEntries [["site".toList], ["site".toList, "posts".toList],
      ["site".toList, "templates".toList]] []
    let site := configure {} workspace.tree.workingDirectory ⟨.relative, ["site".toList]⟩
      (some ⟨.relative, ["site".toList, ".".toList]⟩) none
    ∃ problem, site.build.run workspace = .error (.site problem) workspace := by
  intro workspace site
  have hkept := build_keeps_sources {} ⟨.relative, ["site".toList]⟩
    (some ⟨.relative, ["site".toList, ".".toList]⟩) none workspace
    ("the posts directory".toList, site.posts) (by decide +kernel) (by decide +kernel)
    (by decide +kernel) (by decide +kernel)
  refine hkept.resolve_right ?_
  rintro ⟨denial, hdenied, -⟩
  have hdirectory : workspace.tree.isDirectory site.templates = .ok true := by rfl
  rw [hdirectory] at hdenied
  cases hdenied

/-- Templates whose path goes through a double dot: the directory that holds them is emptied. -/
theorem build_empties_templates :
    let workspace := Workspace.ofEntries
      [["shared".toList], ["site".toList], ["site".toList, "posts".toList]]
      [(["shared".toList, "post.kit".toList], "P".toList),
       (["shared".toList, "index.kit".toList], "I".toList),
       (["site".toList, "posts".toList, "a.kit".toList], "<h1>A</h1>".toList)]
    let site := configure { templatesDirectory := "../shared".toList }
      workspace.tree.workingDirectory ⟨.relative, ["site".toList]⟩
      (some ⟨.relative, ["shared".toList]⟩) none
    site.output.place = site.templates.place ∧
      workspace.tree.names ["shared".toList] = ["post.kit".toList, "index.kit".toList] ∧
      (Work.left (site.build.run workspace)).tree.names ["shared".toList] = [] := by
  decide +kernel

end Site

end KitTemplate
