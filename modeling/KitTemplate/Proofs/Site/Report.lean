import KitTemplate.Proofs.FileTree.Likeness
import KitTemplate.Proofs.Site.Frame
import KitTemplate.Proofs.Table

/-! Reports of builds. A build compiles its pages one after another, whatever becomes of each, and
the report has the file of every page that was compiled and the failure of every one that was not.
The failures of posts that cannot be read stand before those of pages, in one table: a failure under
a name that the table has already takes the place of the one before it. -/

namespace KitTemplate

open Work

/-! ### Posts -/

namespace Post

variable (settings : Settings) (compiler : Compiler) (tree : FileTree)

/-- The failure that is reported for a post that cannot be read. -/
def unreadable? (path : Path) : Option (Text × Text) :=
  match isCandidate settings tree path, compiler.readText tree path [] none with
  | .ok true, .error (.template error) => some (path.stem, error.message)
  | _, _ => none

/-- The failures that are reported for the posts of a directory that cannot be read. -/
def unreadable (directory : Path) : List (Text × Text) :=
  (directoryPaths tree directory).filterMap (unreadable? settings compiler tree)

variable {settings compiler} {workspace ended : Workspace}

theorem failures_of_readAll {paths : List Path} {failures failed : List (Text × Text)}
    {posts : List Post}
    (hrun : (readAll settings compiler paths failures).run workspace = .ok (posts, failed) ended) :
    failed = Table.putAll failures
      (paths.filterMap (unreadable? settings compiler workspace.tree)) := by
  induction paths generalizing failures workspace posts with
  | nil =>
      obtain ⟨hresult, -⟩ := EStateM.Result.ok.inj hrun
      exact (Prod.mk.inj hresult).2.symm
  | cons path rest ih =>
      rw [List.filterMap_cons, unreadable?]
      rcases cases_of_readAll hrun with ⟨hcandidate, hrest⟩ |
        ⟨hcandidate, ⟨text, post, more, hread, -, -, hrest⟩ | ⟨error, journal, hread, hrest⟩⟩
      · simp only [hcandidate]
        exact ih hrest
      · simp only [hcandidate, hread]
        exact ih hrest
      · have hfailed := ih hrest
        simp only [hcandidate, hread]
        exact hfailed

/-- Names that are in order already are listed as they stand. -/
theorem directoryPaths_of_pairwise {tree : FileTree} {directory : Path} {location : Location}
    (hlocate : tree.locate directory = .ok location)
    (hnames : (tree.names location).Pairwise fun name other => Text.le name other) :
    directoryPaths tree directory = (tree.names location).map directory.entry := by
  rw [directoryPaths, hlocate]
  dsimp only
  rw [List.mergeSort_of_pairwise hnames]

theorem directoryPaths_of_isDirectory {tree : FileTree} {directory : Path}
    (hdirectory : tree.isDirectory directory = .ok false) : directoryPaths tree directory = [] := by
  rw [directoryPaths]
  cases hlocate : tree.locate directory with
  | error refusal => rfl
  | ok location =>
      have hentry : tree.entry? location ≠ some .directory := by
        simp only [FileTree.isDirectory, FileTree.inspect, hlocate] at hdirectory
        exact of_decide_eq_false (Except.ok.inj hdirectory)
      dsimp only
      rw [FileTree.names_eq_nil hentry, List.mergeSort_nil, List.map_nil]

/-- The failures that are collected are those of the posts that cannot be read. -/
theorem failures_of_collect {directory : Path} {posts : List Post} {failed : List (Text × Text)}
    (hrun : (collect settings compiler directory).run workspace = .ok (posts, failed) ended) :
    failed = Table.putAll [] (unreadable settings compiler workspace.tree directory) := by
  rcases cases_of_collect hrun with ⟨hdirectory, -, rfl⟩ | ⟨found, hread, -⟩
  · rw [unreadable, directoryPaths_of_isDirectory hdirectory]
    rfl
  · exact failures_of_readAll hread

/-- Posts that were read are collected in their arrangement. -/
theorem collect_of_readAll {directory : Path} {paths : List Path} {posts : List Post}
    {failures : List (Text × Text)} (hdirectory : workspace.tree.isDirectory directory = .ok true)
    (hpaths : directoryPaths workspace.tree directory = paths)
    (hread : (readAll settings compiler paths []).run workspace = .ok (posts, failures) ended) :
    (collect settings compiler directory).run workspace = .ok (arrange posts, failures) ended := by
  rw [collect, EStateM.run_bind, EStateM.run_get]
  dsimp only
  rw [hdirectory, hpaths]
  dsimp only
  rw [EStateM.run_bind, hread]
  rfl

end Post

/-! ### Pages -/

namespace Site

/-- A page with the answer of its compilation. -/
abbrev Outcome := Page × Compilation

/-- The file of a page that was compiled. -/
def Outcome.written? : Outcome → Option Path
  | (page, .compiled ..) => some page.output
  | (_, .failed _) => none

/-- The failure of a page, under its name. -/
def Outcome.failure? : Outcome → Option (Text × Text)
  | (_, .compiled ..) => none
  | (page, .failed error) => some (page.name, error.message)

/-- Pages compiled one after another, each with a note on its outcome. -/
inductive Compiles (compiler : Compiler) : List Outcome → Workspace → Workspace → Prop
  | nil (workspace : Workspace) : Compiles compiler [] workspace workspace
  | cons {page : Page} {compilation : Compilation} {rest : List Outcome} {journal : Journal}
      {before reached after : Workspace}
      (hcompile : (compiler.compileSource page.source page.file (some page.output)).run before =
        .ok compilation reached)
      (hrest : Compiles compiler rest { reached with journal } after) :
      Compiles compiler ((page, compilation) :: rest) before after

variable {site : Site}

/-- The pages of a build are compiled one after another, and the report has their outcomes. -/
theorem exists_of_buildPages {pages : List Page} {report final : Report}
    {before after : Workspace}
    (hrun : (site.buildPages report pages).run before = .ok final after) :
    ∃ outcomes : List Outcome, Compiles site.compiler outcomes before after ∧
      outcomes.map Prod.fst = pages ∧ final.posts = report.posts ∧
      final.pages = report.pages ++ outcomes.filterMap Outcome.written? ∧
      final.failures = Table.putAll report.failures (outcomes.filterMap Outcome.failure?) := by
  induction pages generalizing report before with
  | nil =>
      obtain ⟨rfl, rfl⟩ := EStateM.Result.ok.inj hrun
      exact ⟨[], .nil _, rfl, rfl, (List.append_nil _).symm, rfl⟩
  | cons page rest ih =>
      rw [buildPages, buildPage, bind_assoc] at hrun
      obtain ⟨compilation, reached, hcompile, hrun⟩ := run_bind_eq_ok.1 hrun
      cases compilation with
      | compiled text written =>
          obtain ⟨outcomes, hcompiles, hpages, hposts, hwritten, hfailures⟩ := ih hrun
          refine ⟨(page, .compiled text written) :: outcomes, .cons hcompile hcompiles,
            congrArg (page :: ·) hpages, hposts, ?_, hfailures⟩
          rw [hwritten, List.append_assoc]
          rfl
      | failed error =>
          obtain ⟨outcomes, hcompiles, hpages, hposts, hwritten, hfailures⟩ := ih hrun
          exact ⟨(page, .failed error) :: outcomes, .cons hcompile hcompiles,
            congrArg (page :: ·) hpages, hposts, hwritten, hfailures⟩

/-- What a build has done. -/
theorem trace_of_build {workspace ended : Workspace} {report : Report}
    (hbuild : site.build.run workspace = .ok report ended) :
    ∃ prepared begun built failures outcomes,
      site.prepare.run workspace = .ok ⟨⟩ prepared ∧
      (Post.collect site.settings site.compiler site.posts).run prepared =
        .ok (report.posts, failures) begun ∧
      Compiles site.compiler outcomes begun built ∧ built.tree = ended.tree ∧
      outcomes.map Prod.fst = (if report.posts = [] then []
        else report.posts.map site.postPage ++ [site.indexPage report.posts]) ∧
      report.pages = outcomes.filterMap Outcome.written? ∧
      report.failures = Table.putAll failures (outcomes.filterMap Outcome.failure?) := by
  rw [build, EStateM.run_bind, EStateM.run_get] at hbuild
  dsimp only at hbuild
  split at hbuild
  · cases hbuild
  · cases hbuild
  obtain ⟨done, prepared, hprepare, hbuild⟩ := run_bind_eq_ok.1 hbuild
  obtain ⟨⟨posts, failures⟩, begun, hcollect, hbuild⟩ := run_bind_eq_ok.1 hbuild
  dsimp only at hbuild
  split at hbuild
  · rename_i hposts
    obtain ⟨rfl, rfl⟩ := EStateM.Result.ok.inj hbuild
    rw [hposts] at hcollect
    exact ⟨prepared, begun, begun, failures, [], hprepare, hcollect, .nil begun, rfl, rfl, rfl, rfl⟩
  · rename_i hposts
    obtain ⟨final, built, hpages, hbuild⟩ := run_bind_eq_ok.1 hbuild
    obtain ⟨rfl, rfl⟩ := EStateM.Result.ok.inj hbuild
    obtain ⟨outcomes, hcompiles, hfirst, hfinal, hwritten, hfailures⟩ := exists_of_buildPages hpages
    obtain rfl : final.posts = posts := hfinal
    exact ⟨prepared, begun, built, failures, outcomes, hprepare, hcollect, hcompiles, rfl,
      hfirst.trans (if_neg hposts).symm, hwritten, hfailures⟩

end Site

end KitTemplate
