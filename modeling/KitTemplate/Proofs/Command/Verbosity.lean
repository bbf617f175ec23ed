import KitTemplate.Command.Run
import KitTemplate.Proofs.Site.Parallel

/-! Verbosity of runs. A run at a lower verbosity does what the run at a higher one does; only its
journal is the other one's, limited to the verbosity. -/

namespace KitTemplate

open FileTree Work

namespace Command

/-- Consoles after the same prints, with the journal of the second one limited to a verbosity. -/
structure Console.Alike (verbosity : Int) (first second : Console) : Prop where
  workspace : Workspace.Alike Eq (Journal.limitTo verbosity) first.workspace second.workspace
  errors : second.errors = first.errors

/-- The job with another verbosity. -/
def Job.atVerbosity (verbosity : Int) (job : Job) : Job := { job with verbosity }

/-- The second job is the first one at a verbosity. -/
def Job.IsAt (verbosity : Int) (job other : Job) : Prop := other = job.atVerbosity verbosity

/-- The banner is noted only where notes of its level are kept anyway. -/
def greet (job : Job) : Stage Unit := if 2 ≤ job.verbosity then Stage.note 2 banner else pure ⟨⟩

def requireTask (job : Job) : Stage Unit :=
  if job.inputFile = [] && !job.site then Stage.quit "Error: Specify --inputFile or --site".toList
  else pure ⟨⟩

def foldersInEffect (settings : Settings) (job : Job) : Stage (List Path) :=
  match job.searchFolder with
  | some folders => Stage.ofWork (pathsOf folders)
  | none => pure (settings.searchFolders.map Path.ofText)

def postsInEffect (settings : Settings) (job : Job) : Path :=
  match job.postsDirectory with
  | none | some [] => job.inputDirectory.child settings.postsDirectory
  | some directory => Path.ofText directory

/-- The job with its search folders and its posts directory settled, and the output directory
made. -/
def settleFolders (settings : Settings) (job : Job) : Stage Job := do
  let folders ← foldersInEffect settings job
  Stage.note 2 ("Search folders: ".toList ++ Text.quotedList (folders.map Path.toText))
  let posts := postsInEffect settings job
  Stage.note 2 ("Posts directory: ".toList ++ posts.toText)
  makeOutputDirectory job.outputDirectory
  Stage.note 2 ("Output directory: ".toList ++ job.outputDirectory.toText)
  return { job with folders, posts, ready := true }

namespace Stage

variable {verbosity : Int} {α β : Type} {values : α → β → Prop}

theorem along_ofWork {work : Work α} {work' : Work β}
    (hwork : GoesAlong (Workspace.Alike Eq (Journal.limitTo verbosity)) values work work') :
    GoesAlong (Console.Alike verbosity) values (ofWork work) (ofWork work') := by
  intro first second halike
  have hreached := hwork first.workspace second.workspace halike.workspace
  unfold EStateM.run ofWork at *
  generalize work first.workspace = outcome at hreached
  generalize work' second.workspace = outcome' at hreached
  cases hreached with
  | ok hvalue hstate => exact .ok hvalue ⟨hstate, halike.errors⟩
  | error hstate => exact .error ⟨hstate, halike.errors⟩

theorem along_note {level : Int}
    (hlevel : 1 ≤ level ∧ level ≤ 3) (message : Text) :
    GoesAlong (Console.Alike verbosity) Eq (note level message) (note level message) :=
  along_ofWork (steady_note (Journal.isUnnoticed_limitTo verbosity) hlevel message)

theorem along_print (line : Text) :
    GoesAlong (Console.Alike verbosity) Eq (print line) (print line) :=
  .modify fun _ _ halike => ⟨halike.workspace, by rw [halike.errors]⟩

theorem along_quit (line : Text) :
    GoesAlong (Console.Alike verbosity) values (quit line) (quit line) :=
  .bind (along_print line) fun _ _ _ => .throw (Interruption.exit 1)

end Stage

open Stage

section Stages

variable {verbosity : Int} (settings : Settings) (job : Job)

theorem along_findSource :
    GoesAlong (Console.Alike verbosity) (Job.IsAt verbosity) (findSource settings job)
      (findSource settings (job.atVerbosity verbosity)) := by
  unfold findSource
  by_cases hfile : job.inputFile = []
  · rw [if_pos hfile, if_pos (show (job.atVerbosity verbosity).inputFile = [] from hfile)]
    exact .pure rfl
  · rw [if_neg hfile, if_neg (show (job.atVerbosity verbosity).inputFile ≠ [] from hfile)]
    refine .bind .get fun first second halike => ?_
    rw [halike.workspace.tree]
    dsimp only [Job.atVerbosity]
    split
    · exact .throw _
    · exact along_quit _
    · exact .bind (along_note (by decide) _) fun _ _ _ => .pure rfl

theorem along_makeOutputDirectory (path : Path) :
    GoesAlong (Console.Alike verbosity) Eq (makeOutputDirectory path) (makeOutputDirectory path) := by
  refine .bind .get fun first second halike => ?_
  rw [halike.workspace.tree]
  refine .bind (.modify fun console console' halike' => ?_) fun _ _ _ => ?_
  · exact ⟨⟨rfl, halike'.workspace.journal⟩, halike'.errors⟩
  · split
    · exact .throw _
    · exact .pure rfl

theorem steady_pathsOf (folders : List (Option Text)) : IsSteady Eq (Journal.limitTo verbosity) (pathsOf folders) := by
  induction folders with
  | nil => exact steady_pure []
  | cons folder rest ih =>
      cases folder with
      | none => exact steady_throw _
      | some value => exact steady_bind ih fun _ => steady_pure _

/-- The steps of checking the environment, one after another. -/
theorem checkEnvironment_eq :
    checkEnvironment settings job = (do
      greet job
      Stage.note 2 "Checking environment...".toList
      requireTask job
      settleFolders settings (← findSource settings job)) := by
  have hfolders (job : Job) : settleFolders settings job = (do
      let folders ←
        match job.searchFolder with
        | some folders => ofWork (pathsOf folders)
        | none => pure (settings.searchFolders.map Path.ofText)
      Stage.note 2 ("Search folders: ".toList ++ Text.quotedList (folders.map Path.toText))
      let posts :=
        match job.postsDirectory with
        | none | some [] => job.inputDirectory.child settings.postsDirectory
        | some directory => Path.ofText directory
      Stage.note 2 ("Posts directory: ".toList ++ posts.toText)
      makeOutputDirectory job.outputDirectory
      Stage.note 2 ("Output directory: ".toList ++ job.outputDirectory.toText)
      return { job with folders, posts, ready := true }) := by
    rw [settleFolders, foldersInEffect]
    cases job.searchFolder <;> rfl
  simp only [hfolders]
  rw [checkEnvironment, greet, requireTask]
  split <;> split <;> rfl

theorem along_requireTask :
    GoesAlong (Console.Alike verbosity) Eq (requireTask job)
      (requireTask (job.atVerbosity verbosity)) := by
  have hsame : requireTask (job.atVerbosity verbosity) = requireTask job := rfl
  rw [hsame, requireTask]
  split
  · exact along_quit _
  · exact .pure rfl

theorem along_settleFolders :
    GoesAlong (Console.Alike verbosity) (Job.IsAt verbosity) (settleFolders settings job)
      (settleFolders settings (job.atVerbosity verbosity)) := by
  have hfolders : GoesAlong (Console.Alike verbosity) Eq (foldersInEffect settings job)
      (foldersInEffect settings (job.atVerbosity verbosity)) := by
    have hsame : foldersInEffect settings (job.atVerbosity verbosity) =
        foldersInEffect settings job := rfl
    rw [hsame, foldersInEffect]
    cases job.searchFolder with
    | some folders => exact along_ofWork (steady_pathsOf folders)
    | none => exact .pure rfl
  refine .bind hfolders ?_
  rintro folders _ rfl
  refine .bind (along_note (by decide) _) fun _ _ _ => ?_
  refine .bind (along_note (by decide) _) fun _ _ _ => ?_
  refine .bind (along_makeOutputDirectory job.outputDirectory) fun _ _ _ => ?_
  exact .bind (along_note (by decide) _) fun _ _ _ => .pure rfl

/-- A banner that one run notes and the other one passes over is not kept by the other one. -/
theorem along_greet (hle : verbosity ≤ job.verbosity) :
    GoesAlong (Console.Alike verbosity) Eq (greet job)
      (greet (job.atVerbosity verbosity)) := by
  unfold greet
  by_cases hquiet : 2 ≤ verbosity
  · rw [if_pos (hquiet.trans hle), if_pos (show 2 ≤ (job.atVerbosity verbosity).verbosity from hquiet)]
    exact along_note (by decide) _
  · rw [if_neg (show ¬ 2 ≤ (job.atVerbosity verbosity).verbosity from hquiet)]
    split
    · intro first second halike
      refine .ok rfl ⟨⟨halike.workspace.tree, ?_⟩, halike.errors⟩
      rw [halike.workspace.journal]
      exact (Journal.limitTo_note_of_lt (by decide) (by omega) _ _).symm
    · exact .pure rfl

theorem along_checkEnvironment (hle : verbosity ≤ job.verbosity) :
    GoesAlong (Console.Alike verbosity) (Job.IsAt verbosity)
      (checkEnvironment settings job)
      (checkEnvironment settings (job.atVerbosity verbosity)) := by
  rw [checkEnvironment_eq, checkEnvironment_eq]
  refine .bind (along_greet job hle) fun _ _ _ => ?_
  refine .bind (along_note (by decide) _) fun _ _ _ => ?_
  refine .bind (along_requireTask job) fun _ _ _ => ?_
  refine .bind (along_findSource settings job) ?_
  rintro job _ rfl
  exact along_settleFolders settings job

theorem along_compileJob :
    GoesAlong (Console.Alike verbosity) (Job.IsAt verbosity) (compileJob settings job)
      (compileJob settings (job.atVerbosity verbosity)) := by
  unfold compileJob
  by_cases hsite : job.site = true
  · rw [if_pos hsite, if_pos (show (job.atVerbosity verbosity).site = true from hsite)]
    refine .bind (along_note (by decide) _) fun _ _ _ => ?_
    refine .bind .get fun first second halike => ?_
    refine .bind .get fun begun begun' hbegun => ?_
    rw [halike.workspace.tree]
    dsimp only [Job.atVerbosity]
    have hbuild := Site.steady_build (Journal.isUnnoticed_limitTo verbosity)
      (Site.configure settings second.workspace.tree.workingDirectory job.inputDirectory
        (some job.outputDirectory) (some ⟨settings, job.folders, job.posts⟩))
      begun.workspace begun'.workspace hbegun.workspace
    unfold EStateM.run at hbuild
    generalize Site.build _ begun.workspace = outcome at hbuild ⊢
    generalize Site.build _ begun'.workspace = outcome' at hbuild ⊢
    cases hbuild with
    | ok hvalue hstate =>
        subst hvalue
        exact .bind (.modify fun _ _ hconsole => ⟨hstate, hconsole.errors⟩) fun _ _ _ => .pure rfl
    | @error fault _ _ hstate =>
        refine .bind (.modify fun _ _ hconsole => ⟨hstate, hconsole.errors⟩) fun _ _ _ => ?_
        cases fault with
        | site problem => exact along_quit _
        | _ => exact .throw _
  · rw [if_neg hsite, if_neg (show (job.atVerbosity verbosity).site ≠ true from hsite)]
    refine .bind (along_note (by decide) _) fun _ _ _ => ?_
    refine .bind (along_ofWork (Compiler.steady_compile isLikeness_eq (Journal.isUnnoticed_limitTo verbosity) _ _)) ?_
    rintro compilation _ rfl
    cases compilation with
    | failed error => exact along_quit _
    | compiled text written => exact .pure rfl

theorem along_printFailures (failures : List (Text × Text)) :
    GoesAlong (Console.Alike verbosity) Eq (printFailures failures) (printFailures failures) := by
  induction failures with
  | nil => exact .pure rfl
  | cons failure rest ih => exact .bind (along_print _) fun _ _ _ => ih

theorem along_reportJob :
    GoesAlong (Console.Alike verbosity) (Job.IsAt verbosity) (reportJob job)
      (reportJob (job.atVerbosity verbosity)) := by
  unfold reportJob
  dsimp only [Job.atVerbosity]
  split
  · refine .bind (along_note (by decide) _) fun _ _ _ => ?_
    refine .bind (along_note (by decide) _) fun _ _ _ => ?_
    refine .bind (along_note (by decide) _) fun _ _ _ => ?_
    refine .bind (along_printFailures _) fun _ _ _ => ?_
    split
    · exact .pure rfl
    · exact .throw _
  · refine .bind (along_note (by decide) _) fun _ _ _ => ?_
    exact .bind (along_note (by decide) _) fun _ _ _ => .pure rfl
  · exact .pure rfl

theorem along_runJob (hle : verbosity ≤ job.verbosity) :
    GoesAlong (Console.Alike verbosity) (Job.IsAt verbosity)
      (runJob settings job) (runJob settings (job.atVerbosity verbosity)) := by
  refine .bind (along_checkEnvironment settings job hle) ?_
  rintro job _ rfl
  refine .bind (along_compileJob settings job) ?_
  rintro job _ rfl
  exact along_reportJob job

theorem along_requireDirectory (path : Path) :
    GoesAlong (Console.Alike verbosity) Eq (requireDirectory path) (requireDirectory path) := by
  refine .bind .get fun first second halike => ?_
  rw [halike.workspace.tree]
  split
  · exact .throw _
  · exact .pure rfl
  · exact along_quit _

theorem along_prepareDirectories (input output : Path) :
    GoesAlong (Console.Alike verbosity) Eq (prepareDirectories input output)
      (prepareDirectories input output) := by
  refine .bind .get fun first second halike => ?_
  rw [halike.workspace.tree]
  split
  · exact fun _ _ hconsole => .error hconsole
  · exact .bind (along_requireDirectory output) fun _ _ _ => along_requireDirectory input
  · refine .bind .get fun begun begun' hbegun => ?_
    rw [hbegun.workspace.tree]
    refine .bind (.modify fun _ _ hconsole =>
      ⟨⟨rfl, hconsole.workspace.journal⟩, hconsole.errors⟩) fun _ _ _ => ?_
    split
    · exact fun _ _ hconsole => .error hconsole
    · exact .bind (along_requireDirectory output) fun _ _ _ => along_requireDirectory input

end Stages

end Command

/-- The workspace of a run in which nothing has been noted yet. -/
def Workspace.begin (tree : FileTree) (tag : Text) (verbosity : Int) : Workspace :=
  { tree, journal := { verbosity, tag } }

/-- What a run leaves behind at one verbosity and at a lower one: the same tree, and the same
records but for those that need more than the lower one. -/
structure Workspace.IsQuieter (verbosity : Int) (loud quiet : Workspace) : Prop where
  tree : quiet.tree = loud.tree
  records : quiet.journal.records = loud.journal.records.filter (·.isWithin verbosity)

theorem Workspace.Alike.isQuieter {verbosity : Int} {loud quiet : Workspace}
    (halike : Workspace.Alike Eq (Journal.limitTo verbosity) loud quiet) :
    Workspace.IsQuieter verbosity loud quiet := by
  refine ⟨halike.tree.symm, ?_⟩
  rw [halike.journal, Journal.records_limitTo]

theorem Workspace.alike_begin {quieter louder : Int} (hle : quieter ≤ louder) (tree : FileTree)
    (tag : Text) :
    Workspace.Alike Eq (Journal.limitTo quieter) (.begin tree tag louder)
      (.begin tree tag quieter) := by
  refine ⟨rfl, ?_⟩
  have hmin : min quieter louder = quieter := min_eq_left hle
  simp [begin, Journal.limitTo, hmin]

namespace Command

/-- The outcome of a run whose stages have ended. -/
def outcomeOf : EStateM.Result Interruption Console Job → Outcome
  | .ok _ console =>
    { ending := .ok 0, errors := console.errors, workspace := console.workspace }
  | .error (.exit status) console =>
    { ending := .ok status, errors := console.errors, workspace := console.workspace }
  | .error (.fault fault) console =>
    { ending := .error fault, errors := console.errors, workspace := console.workspace }

/-- What the run of the program comes to at one verbosity and at a lower one. -/
structure Outcome.IsQuieter (verbosity : Int) (loud quiet : Outcome) : Prop where
  ending : quiet.ending = loud.ending
  output : quiet.output = loud.output
  errors : quiet.errors = loud.errors
  workspace : Workspace.IsQuieter verbosity loud.workspace quiet.workspace

theorem isQuieter_outcomeOf {verbosity : Int} {loud quiet : EStateM.Result Interruption Console Job}
    (hparallel : Parallel (Console.Alike verbosity) (Job.IsAt verbosity) loud quiet) :
    Outcome.IsQuieter verbosity (outcomeOf loud) (outcomeOf quiet) := by
  cases hparallel with
  | ok _ hconsole => exact ⟨rfl, rfl, hconsole.errors, hconsole.workspace.isQuieter⟩
  | @error interruption _ _ hconsole =>
      cases interruption <;> exact ⟨rfl, rfl, hconsole.errors, hconsole.workspace.isQuieter⟩

/-- The whole of a job, from the first look at its directories on. -/
def performJob (settings : Settings) (job : Job) : Stage Job := do
  prepareDirectories job.inputDirectory job.outputDirectory
  runJob settings job

theorem perform_eq {settings : Settings} (hdebug : settings.debug = false) (tree : FileTree)
    (job : Job) :
    perform settings tree job =
      outcomeOf ((performJob settings job).run
        { workspace := .begin tree ['-'] job.verbosity }) := by
  rw [perform, hdebug]
  rfl

theorem along_performJob {verbosity : Int} (settings : Settings) (job : Job)
    (hle : verbosity ≤ job.verbosity) :
    GoesAlong (Console.Alike verbosity) (Job.IsAt verbosity) (performJob settings job)
      (performJob settings (job.atVerbosity verbosity)) :=
  .bind (along_prepareDirectories job.inputDirectory job.outputDirectory) fun _ _ _ =>
    along_runJob settings job hle

end Command

/-- Verbosity has an influence on the records only. A compilation of a file or of a source, the
build of a site and the stages of a job come to the same at two verbosities: the same value or the
same fault, the same tree, the same prints. What is recorded at the lower verbosity is what is
recorded at the higher one, without the records that need more. So is the run of the program that a
job asks for, unless its settings keep all records. -/
theorem verbosity_is_observational {quieter louder : Int} (hle : quieter ≤ louder)
    (tree : FileTree) (tag : Text) :
    (∀ (compiler : Compiler) (file : Path) (output : Option Path),
      Parallel (Workspace.IsQuieter quieter) Eq
        ((compiler.compile file output).run (.begin tree tag louder))
        ((compiler.compile file output).run (.begin tree tag quieter))) ∧
      (∀ (compiler : Compiler) (source : Text) (file : Path) (output : Option Path),
        Parallel (Workspace.IsQuieter quieter) Eq
          ((compiler.compileSource source file output).run (.begin tree tag louder))
          ((compiler.compileSource source file output).run (.begin tree tag quieter))) ∧
      (∀ site : Site,
        Parallel (Workspace.IsQuieter quieter) Eq (site.build.run (.begin tree tag louder))
          (site.build.run (.begin tree tag quieter))) ∧
      (∀ (settings : Settings) (job : Command.Job),
        Parallel
          (fun loud quiet : Command.Console => quiet.errors = loud.errors ∧
            Workspace.IsQuieter quieter loud.workspace quiet.workspace)
          (fun loud quiet : Command.Job => quiet = { loud with verbosity := quieter })
          ((Command.runJob settings { job with verbosity := louder }).run
            { workspace := .begin tree tag louder })
          ((Command.runJob settings { job with verbosity := quieter }).run
            { workspace := .begin tree tag quieter })) ∧
      ∀ (settings : Settings) (job : Command.Job), settings.debug = false →
        Command.Outcome.IsQuieter quieter
          (Command.perform settings tree { job with verbosity := louder })
          (Command.perform settings tree { job with verbosity := quieter }) := by
  have hchange := Journal.isUnnoticed_limitTo quieter
  have hbegin := Workspace.alike_begin hle tree tag
  have hquieter {α : Type} {work : Work α}
      (hsteady : IsSteady Eq (Journal.limitTo quieter) work) :
      Parallel (Workspace.IsQuieter quieter) Eq (work.run (.begin tree tag louder))
        (work.run (.begin tree tag quieter)) :=
    (hsteady _ _ hbegin).mono (fun _ _ halike => halike.isQuieter) fun _ _ => id
  refine ⟨fun compiler file output => hquieter (compiler.steady_compile isLikeness_eq hchange _ _),
    fun compiler source file output =>
      hquieter (compiler.steady_compileSource isLikeness_eq hchange _ _ _),
    fun site => hquieter (Site.steady_build hchange site), fun settings job => ?_,
    fun settings job hdebug => ?_⟩
  · have hjob := Command.along_runJob settings { job with verbosity := louder } hle
    exact (hjob ⟨.begin tree tag louder, []⟩ ⟨.begin tree tag quieter, []⟩ ⟨hbegin, rfl⟩).mono
      (fun _ _ halike => ⟨halike.errors, halike.workspace.isQuieter⟩) fun _ _ => id
  · rw [Command.perform_eq hdebug, Command.perform_eq hdebug]
    exact Command.isQuieter_outcomeOf
      (Command.along_performJob settings { job with verbosity := louder } hle _ _
        ⟨Workspace.alike_begin hle tree ['-'], rfl⟩)

/-- An import that is noted at the second level, and what is noted at the third one besides. -/
theorem verbosity_is_observational_import :
    let tree := (Workspace.ofFiles
      [("a.kit".toList, "<!-- @import b -->".toList), ("b.kit".toList, "b".toList)]).tree
    let work := ({ postsDirectory := ⟨.root, []⟩ } : Compiler).compile ⟨.root, ["a.kit".toList]⟩ none
    let loud := left (work.run (.begin tree ['-'] 3))
    let quiet := left (work.run (.begin tree ['-'] 2))
    (2 : Int) ≤ 3 ∧ Workspace.IsQuieter 2 loud quiet ∧
      loud.journal.records.map (·.level) = [.debug, .trace, .trace, .debug, .trace] ∧
      quiet.journal.records.map (·.level) = [.debug, .debug] := by
  intro tree work loud quiet
  have hle : (2 : Int) ≤ 3 := by decide
  have hparallel := (verbosity_is_observational hle tree ['-']).1
    { postsDirectory := ⟨.root, []⟩ } ⟨.root, ["a.kit".toList]⟩ none
  refine ⟨hle, hparallel.left, ?_, ?_⟩
  · decide +kernel
  · decide +kernel

end KitTemplate
