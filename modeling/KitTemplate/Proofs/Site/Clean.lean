import KitTemplate.Proofs.Compilation.Persistence
import KitTemplate.Proofs.FileTree.Outside
import KitTemplate.Proofs.Site.Guard
import KitTemplate.Proofs.Site.Parallel
import KitTemplate.Proofs.Site.Report

/-! Builds over earlier output. Whether a build may begin is settled by what stands outside of the
output directory, and once that is emptied nothing is left that trees with different output differ
in. So earlier output has no influence on a build and does not survive it, unless the build is
stopped before it touches anything, or halted by an entry of the output directory that it cannot
look at (`HaltsOn`). At the end of a build the files below the output directory are those of the
pages in its report: there was none when the pages were begun, a page that is compiled adds its
file, and a page that fails adds none (`Covers`). -/

namespace KitTemplate

open FileTree Work

namespace Site

variable {site : Site}

/-! ### The same build on trees with different output -/

/-- The path of the templates spells their location if the setting goes through no double dot. -/
theorem isAbsolute_templates {settings : Settings} {base : Path} (hbase : base.IsAbsolute)
    (hdots : ['.', '.'] ∉ (Path.ofText settings.templatesDirectory).parts) (root : Path)
    (output : Option Path) (compiler : Option Compiler) :
    (configure settings base root output compiler).templates.IsAbsolute := by
  have hroot : (Path.absolute base root).IsAbsolute := Path.isAbsolute_absolute hbase root
  refine ⟨Path.anchor_child hroot.rooted _, fun part hpart => ?_⟩
  rcases Path.mem_parts_child hpart with habove | hsetting
  · exact hroot.plain part habove
  · obtain ⟨hempty, hdot, hslash⟩ := Path.mem_parts_ofText hsetting
    exact ⟨hempty, hdot, fun heq => hdots (heq ▸ hsetting), hslash⟩

/-- A build that ends while it empties the output directory: the entries listed before the first one
whose path is too long are gone, with all that stood below them, and nothing else has changed. -/
def HaltsOn (site : Site) (workspace : Workspace) : Prop :=
  ∃ removed name ended, workspace.tree.HaltsAt site.output removed name ∧
    site.build.run workspace = .error (.denied ⟨.nameTooLong, site.output.entry name⟩) ended ∧
    Loses site.output.parts removed workspace.tree ended.tree

/-- A build that may begin ends so if the path of some entry is too long. -/
theorem haltsOn_of_not_isClearable (houtput : site.output.IsAbsolute) {workspace : Workspace}
    (hnames : workspace.tree.IsWellNamed) (hproblem : site.problem? workspace.tree = .ok none)
    {found : Bool} (hdirectory : workspace.tree.isDirectory site.output = .ok found)
    (hclearable : ¬ workspace.tree.IsClearable site.output) : site.HaltsOn workspace := by
  cases found with
  | false =>
      refine absurd (fun name hname => ?_) hclearable
      rw [names_eq_nil (entry?_of_isDirectory houtput hdirectory)] at hname
      cases hname
  | true =>
      obtain ⟨removed, name, hhalts⟩ := exists_haltsAt hclearable
      obtain ⟨reached, hrun, hloses⟩ := emptyDirectory_of_haltsAt houtput hdirectory hnames hhalts
      have hprepare := run_prepare houtput workspace
      rw [hdirectory] at hprepare
      dsimp only at hprepare
      rw [run_adopt, hrun] at hprepare
      have hbuild := site.run_build workspace
      rw [hproblem] at hbuild
      dsimp only at hbuild
      rw [EStateM.run_bind, hprepare] at hbuild
      exact ⟨removed, name, _, hhalts, hbuild, hloses⟩

/-- Workspaces with the same journal whose trees agree outside of the output directory. -/
structure Agrees (site : Site) (first second : Workspace) : Prop where
  tree : AgreesOutside site.output.parts first.tree second.tree
  journal : second.journal = first.journal

section Agrees

variable {first second : Workspace} (hagrees : site.Agrees first second)

include hagrees

/-- The guard looks at nothing below the output directory. -/
theorem problem?_eq_of_agrees (htemplates : site.templates.IsAbsolute)
    (hbelow : site.output.parts <+: site.templates.parts →
      site.templates.parts = site.output.parts) :
    site.problem? second.tree = site.problem? first.tree := by
  rw [problem?, problem?, hagrees.tree.isDirectory_eq htemplates hbelow,
    hagrees.tree.workingDirectory]

/-- Once the output directory is prepared, the trees are the same. -/
theorem parallel_prepare_of_agrees (houtput : site.output.IsAbsolute) {found : Bool}
    (hdirectory : first.tree.isDirectory site.output = .ok found)
    (hfirst : first.tree.IsClearable site.output) (hsecond : second.tree.IsClearable site.output) :
    Parallel (Workspace.Alike Same id) Eq (site.prepare.run first) (site.prepare.run second) := by
  have hdirectory' := (hagrees.tree.isDirectory_eq houtput fun _ => rfl).trans hdirectory
  rw [run_prepare houtput, run_prepare houtput, hdirectory, hdirectory']
  cases found with
  | false =>
      have hsame := hagrees.tree.same (entry?_of_isDirectory houtput hdirectory)
      exact parallel_adopt hagrees.journal (isLikeness_same.makeDirectories hsame site.output false)
  | true =>
      obtain ⟨emptied, hrun, hloses⟩ := emptyDirectory_of_isClearable houtput hdirectory hfirst
      obtain ⟨emptied', hrun', hloses'⟩ :=
        emptyDirectory_of_isClearable houtput hdirectory' hsecond
      dsimp only
      rw [hrun, hrun', hagrees.journal]
      exact parallel_adopt rfl ⟨hagrees.tree.same_of_loses hloses hloses', rfl⟩

/-- A build on trees that agree outside of the output directory is stopped before anything is
touched, or it is halted where an entry of the output directory has a path that is too long, or it
comes to the same and leaves the same tree behind. -/
theorem cases_of_build_of_agrees (houtput : site.output.IsAbsolute)
    (htemplates : site.templates.IsAbsolute)
    (hbelow : site.output.parts <+: site.templates.parts →
      site.templates.parts = site.output.parts)
    (hfirst : first.tree.IsWellNamed) (hsecond : second.tree.IsWellNamed) :
    (∃ fault, site.build.run first = .error fault first ∧
        site.build.run second = .error fault second ∧
        ((∃ problem, fault = .site problem) ∨ ∃ denial, fault = .denied denial ∧
          (first.tree.isDirectory site.templates = .error denial ∨
            first.tree.isDirectory site.output = .error denial))) ∨
      (¬ first.tree.IsClearable site.output → site.HaltsOn first) ∧
      (¬ second.tree.IsClearable site.output → site.HaltsOn second) ∧
      (first.tree.IsClearable site.output → second.tree.IsClearable site.output →
        Parallel (Workspace.Alike Same id) Eq (site.build.run first) (site.build.run second)) := by
  have hproblems := problem?_eq_of_agrees hagrees htemplates hbelow
  have hdirectories := hagrees.tree.isDirectory_eq houtput fun _ => rfl
  cases hproblem : site.problem? first.tree with
  | error denial =>
      rw [run_build, run_build, hproblems, hproblem]
      exact Or.inl ⟨_, rfl, rfl, Or.inr ⟨denial, rfl, Or.inl (problem?_eq_error_iff.1 hproblem)⟩⟩
  | ok problem =>
      cases problem with
      | some problem =>
          rw [run_build, run_build, hproblems, hproblem]
          exact Or.inl ⟨_, rfl, rfl, Or.inl ⟨problem, rfl⟩⟩
      | none =>
          cases hdirectory : first.tree.isDirectory site.output with
          | error denial =>
              rw [run_build, run_build, hproblems, hproblem]
              dsimp only
              rw [EStateM.run_bind, EStateM.run_bind, run_prepare houtput, run_prepare houtput,
                hdirectories, hdirectory]
              exact Or.inl ⟨_, rfl, rfl, Or.inr ⟨denial, rfl, Or.inr rfl⟩⟩
          | ok found =>
              refine Or.inr ⟨haltsOn_of_not_isClearable houtput hfirst hproblem hdirectory,
                haltsOn_of_not_isClearable houtput hsecond (hproblems.trans hproblem)
                  (hdirectories.trans hdirectory), fun hclear hclear' => ?_⟩
              have hprepared :=
                parallel_prepare_of_agrees hagrees houtput hdirectory hclear hclear'
              rw [run_build, run_build, hproblems, hproblem]
              dsimp only
              rw [EStateM.run_bind, EStateM.run_bind]
              generalize site.prepare.run first = outcome at hprepared
              generalize site.prepare.run second = outcome' at hprepared
              cases hprepared with
              | ok _ halike =>
                  exact site.steady_fill isLikeness_same Journal.isUnnoticed_id _ _ halike
              | error halike => exact .error halike

end Agrees

/-! ### The files of a build -/

/-- The files below the output directory are those of some pages. -/
structure Covers (output : Path) (pages : List Path) (tree : FileTree) : Prop where
  written : ∀ page ∈ pages, ∃ location, tree.locate page = .ok location ∧
    tree.file? location ≠ none
  reported : ∀ location, output.parts <+: location → location ≠ output.parts →
    tree.file? location ≠ none → ∃ page ∈ pages, tree.locate page = .ok location

namespace Covers

variable {output : Path} {pages : List Path} {before after : FileTree}

theorem file?_iff (hcovers : Covers output pages after) {location : Location}
    (hbelow : output.parts <+: location) (hne : location ≠ output.parts) :
    after.file? location ≠ none ↔ ∃ page ∈ pages, after.locate page = .ok location := by
  refine ⟨hcovers.reported location hbelow hne, ?_⟩
  rintro ⟨page, hpage, hlocate⟩
  obtain ⟨own, hown, hfile⟩ := hcovers.written page hpage
  obtain rfl := Except.ok.inj (hown.symm.trans hlocate)
  exact hfile

/-- A page that fails leaves the files as they were. -/
theorem of_failed (hcovers : Covers output pages before) (hgrows : before.Extends after)
    (hfiles : ∀ location, after.file? location = before.file? location) :
    Covers output pages after where
  written page hpage := by
    obtain ⟨location, hlocate, hfile⟩ := hcovers.written page hpage
    exact ⟨location, hgrows.locate hlocate, by rwa [hfiles]⟩
  reported location hbelow hne hfile := by
    rw [hfiles] at hfile
    obtain ⟨page, hpage, hlocate⟩ := hcovers.reported location hbelow hne hfile
    exact ⟨page, hpage, hgrows.locate hlocate⟩

/-- A page that is compiled has its file, and the others are as they were. -/
theorem of_compiled (hcovers : Covers output pages before) (hgrows : before.Extends after)
    {path : Path} {place : Location} (hplace : after.locate path = .ok place)
    (hthere : after.file? place ≠ none)
    (hothers : ∀ other, other ≠ place → after.file? other = before.file? other) :
    Covers output (pages ++ [path]) after where
  written page hpage := by
    rcases List.mem_append.1 hpage with hearlier | hlast
    · obtain ⟨location, hlocate, hfile⟩ := hcovers.written page hearlier
      refine ⟨location, hgrows.locate hlocate, ?_⟩
      by_cases hsame : location = place
      · rwa [hsame]
      · rwa [hothers location hsame]
    · rw [List.mem_singleton.1 hlast]
      exact ⟨place, hplace, hthere⟩
  reported location hbelow hne hfile := by
    by_cases hsame : location = place
    · rw [hsame]
      exact ⟨path, List.mem_append_right _ (List.mem_singleton_self path), hplace⟩
    · rw [hothers location hsame] at hfile
      obtain ⟨page, hpage, hlocate⟩ := hcovers.reported location hbelow hne hfile
      exact ⟨page, List.mem_append_left _ hpage, hgrows.locate hlocate⟩

end Covers

section Files

variable {workspace prepared ended : Workspace} {report : Report}

/-- Pages that are compiled one after another have their files. -/
theorem Compiles.covers {output : Path} {pages : List Path} {outcomes : List Outcome}
    {before after : Workspace} (hcompiles : Compiles site.compiler outcomes before after)
    (hcovers : Covers output pages before.tree) :
    Covers output (pages ++ outcomes.filterMap Outcome.written?) after.tree := by
  induction hcompiles generalizing pages with
  | nil workspace => rwa [List.filterMap_nil, List.append_nil]
  | @cons page compilation rest journal before reached after hcompile hrest ih =>
      have hmoves : Moves FileTree.Extends
          (site.compiler.compileSource page.source page.file (some page.output)) :=
        Compiler.moves_compileSource ⟨Extends.refl, fun _ _ _ => Extends.trans⟩ site.compiler
          page.source page.file fun tree text =>
            Compiler.extends_of_writeText site.compiler tree page.output text
      have hgrows : before.tree.Extends reached.tree := hmoves.of_ok hcompile
      have hfiles := Compiler.files_of_compileSource hcompile
      cases compilation with
      | compiled text written =>
          obtain ⟨place, hplace, hthere, hothers⟩ := hfiles
          have hlater := ih (hcovers.of_compiled hgrows hplace hthere hothers)
          rwa [List.append_assoc] at hlater
      | failed error => exact ih (hcovers.of_failed hgrows hfiles)

theorem covers_build (houtput : site.output.IsAbsolute)
    (hrun : site.build.run workspace = .ok report ended) :
    Covers site.output report.pages ended.tree := by
  obtain ⟨prepared, begun, built, failures, outcomes, hprepare, hcollect, hcompiles, htree, -,
    hwritten, -⟩ := trace_of_build hrun
  have hbegun : begun.tree = prepared.tree := (Post.same_collect site.posts).of_ok hcollect
  have hnone : Covers site.output [] begun.tree := by
    rw [hbegun]
    refine ⟨nofun, fun location hbelow hne hfile => absurd ?_ hfile⟩
    rw [file?, entry?_prepare houtput hprepare hbelow hne]
  have hcovers := hcompiles.covers hnone
  rwa [List.nil_append, ← hwritten, htree] at hcovers

end Files

/-! ### Clean builds -/

/-- Builds are clean. If the trees of two builds agree outside of the output directory, the outcomes
are the same and so are the trees that are left behind. A build that is refused, or that may not
look at the templates or at the output directory, leaves behind the tree that it found, and one that
meets an entry of the output directory whose path is too long ends when it has removed those listed
before it. When a build ends with a report, the files below the output directory are those of the
pages that the report names. The path of the templates goes through no double dot and does not lead
below the output directory. -/
theorem build_is_clean (settings : Settings) (root : Path) (output : Option Path)
    (compiler : Option Compiler) (first second : FileTree) (journal : Journal)
    (hdots : ['.', '.'] ∉ (Path.ofText settings.templatesDirectory).parts)
    (hfirst : first.IsWellNamed) (hsecond : second.IsWellNamed) :
    let site := configure settings first.workingDirectory root output compiler
    (site.output.parts <+: site.templates.parts → site.templates.parts = site.output.parts) →
    AgreesOutside site.output.parts first second →
    ((∃ fault, site.build.run ⟨first, journal⟩ = .error fault ⟨first, journal⟩ ∧
        site.build.run ⟨second, journal⟩ = .error fault ⟨second, journal⟩ ∧
        ((∃ problem, fault = .site problem) ∨ ∃ denial, fault = .denied denial ∧
          (first.isDirectory site.templates = .error denial ∨
            first.isDirectory site.output = .error denial))) ∨
      (¬ first.IsClearable site.output → site.HaltsOn ⟨first, journal⟩) ∧
      (¬ second.IsClearable site.output → site.HaltsOn ⟨second, journal⟩) ∧
      (first.IsClearable site.output → second.IsClearable site.output →
        Parallel (Workspace.Alike Same id) Eq (site.build.run ⟨first, journal⟩)
          (site.build.run ⟨second, journal⟩))) ∧
      ∀ report ended, site.build.run ⟨first, journal⟩ = .ok report ended →
        ∀ location, site.output.parts <+: location → location ≠ site.output.parts →
          (ended.tree.file? location ≠ none ↔
            ∃ page ∈ report.pages, ended.tree.locate page = .ok location) := by
  intro site hbelow hagrees
  have houtput : site.output.IsAbsolute := Path.isAbsolute_absolute first.isAbsolute _
  have htemplates : site.templates.IsAbsolute :=
    isAbsolute_templates first.isAbsolute hdots root output compiler
  have hworkspaces : site.Agrees ⟨first, journal⟩ ⟨second, journal⟩ := ⟨hagrees, rfl⟩
  refine ⟨cases_of_build_of_agrees hworkspaces houtput htemplates hbelow hfirst hsecond, ?_⟩
  intro report ended hrun location hlocation hne
  exact (covers_build houtput hrun).file?_iff hlocation hne

/-- A file that an earlier build has left is gone after the next one, which comes to the same as a
build without it. -/
theorem build_is_clean_stale :
    let files : List (Location × Text) :=
      [(["posts".toList, "a.kit".toList], "text".toList),
       (["templates".toList, "post.kit".toList], "post".toList),
       (["templates".toList, "index.kit".toList], "index".toList)]
    let workspace := Workspace.ofEntries
      [["posts".toList], ["templates".toList], ["build".toList]] files
    let stale := Workspace.ofEntries
      [["posts".toList], ["templates".toList], ["build".toList]]
      (files ++ [(["build".toList, "b.html".toList], "old".toList)])
    let site := configure {} workspace.tree.workingDirectory ⟨.root, []⟩ none none
    ∃ report ended ended', site.build.run workspace = .ok report ended ∧
      site.build.run stale = .ok report ended' ∧ ended.tree.Same ended'.tree ∧
      stale.tree.file? ["build".toList, "b.html".toList] ≠ none ∧
      ended'.tree.file? ["build".toList, "b.html".toList] = none := by
  intro files workspace stale site
  have hplace : workspace.tree.IsPlace ["build".toList, "b.html".toList] :=
    ⟨by decide +kernel, by decide +kernel⟩
  have hfree : workspace.tree.entry? ["build".toList, "b.html".toList] ≠ some .directory := by
    decide +kernel
  have hagrees : AgreesOutside ["build".toList] workspace.tree stale.tree :=
    .of_put hplace hfree (by decide +kernel) (by decide +kernel)
      (.file ("old".toList.flatMap String.utf8EncodeChar) ⟨0⟩)
  have hcompletes : (value? (site.build.run workspace)).isSome = true := by decide +kernel
  obtain ⟨report, hvalue⟩ := Option.isSome_iff_exists.1 hcompletes
  obtain ⟨ended, hrun⟩ := exists_of_value? hvalue
  have hnames : workspace.tree.IsWellNamed := isWellNamed_of_entries (by decide +kernel)
  have hnames' : stale.tree.IsWellNamed := isWellNamed_of_entries (by decide +kernel)
  obtain ⟨houtcomes, hfiles⟩ := build_is_clean {} ⟨.root, []⟩ none none workspace.tree stale.tree
    workspace.journal (by decide +kernel) hnames hnames' (by decide +kernel) hagrees
  rcases houtcomes with ⟨fault, hfault, -⟩ | ⟨-, -, hparallel⟩
  · cases hrun.symm.trans hfault
  · specialize hparallel (by decide +kernel) (by decide +kernel)
    rw [show site.build.run ⟨workspace.tree, workspace.journal⟩ = .ok report ended from hrun]
      at hparallel
    obtain ⟨_, ended', hrun', rfl, halike⟩ := hparallel.exists_of_ok
    have hgone : (left (site.build.run stale)).tree.file? ["build".toList, "b.html".toList] =
        none := by decide +kernel
    rw [show site.build.run stale = .ok report ended' from hrun'] at hgone
    exact ⟨report, ended, ended', hrun, hrun', halike.tree, by decide +kernel, hgone⟩

/-- A path of the templates that is too long: the build is stopped and the output of an earlier one
stays. -/
theorem build_keeps_stale_output :
    let settings : Settings := { templatesDirectory := List.replicate 256 'x' }
    let workspace := Workspace.ofEntries [["build".toList]] []
    let stale := Workspace.ofEntries [["build".toList]]
      [(["build".toList, "b.html".toList], "old".toList)]
    let site := configure settings workspace.tree.workingDirectory ⟨.root, []⟩ none none
    ['.', '.'] ∉ (Path.ofText settings.templatesDirectory).parts ∧
      (site.output.parts <+: site.templates.parts → site.templates.parts = site.output.parts) ∧
      AgreesOutside site.output.parts workspace.tree stale.tree ∧
      (∃ denial, site.build.run workspace = .error (.denied denial) workspace ∧
        site.build.run stale = .error (.denied denial) stale) ∧
      workspace.tree.file? ["build".toList, "b.html".toList] = none ∧
      stale.tree.file? ["build".toList, "b.html".toList] ≠ none := by
  intro settings workspace stale site
  have hplace : workspace.tree.IsPlace ["build".toList, "b.html".toList] :=
    ⟨by decide +kernel, by decide +kernel⟩
  have hfree : workspace.tree.entry? ["build".toList, "b.html".toList] ≠ some .directory := by
    decide +kernel
  have hagrees : AgreesOutside site.output.parts workspace.tree stale.tree :=
    .of_put hplace hfree (by decide +kernel) (by decide +kernel)
      (.file ("old".toList.flatMap String.utf8EncodeChar) ⟨0⟩)
  have hdenied : site.problem? workspace.tree = .error ⟨.nameTooLong, site.templates⟩ := by
    decide +kernel
  have hdenied' : site.problem? stale.tree = .error ⟨.nameTooLong, site.templates⟩ := by
    decide +kernel
  refine ⟨by decide +kernel, by decide +kernel, hagrees, ⟨⟨.nameTooLong, site.templates⟩, ?_, ?_⟩,
    by decide +kernel, by decide +kernel⟩
  · rw [run_build, hdenied]
  · rw [run_build, hdenied']

end Site

end KitTemplate
