import KitTemplate.Proofs.Compilation.Effect
import KitTemplate.Proofs.Compilation.Writing
import KitTemplate.Proofs.FileTree.Emptying
import KitTemplate.Proofs.Path.Naming
import KitTemplate.Site.Build

/-! What a build changes. The output directory is emptied, as far as its entries can be looked at,
or it is made with the directories above it. Every page is written below it: the page of a post goes
into a directory that is named by the stem of the post's file. A stem is a plain name, or it is made
of dots. A single dot leaves the page in the output directory itself, but a double dot leads to the
directory above, so the page of a post with that stem is written beside the output directory and not
inside. -/

namespace KitTemplate

open FileTree Work

theorem FileTree.isEffect_changesWithin (output : Location) (others : Location → Prop) :
    IsEffect (ChangesWithin output others) where
  refl := .refl
  trans _ _ _ := .trans

theorem Work.isEffect_same : IsEffect fun before after => after = before where
  refl _ := rfl
  trans _ _ _ hfirst hsecond := hsecond.trans hfirst

namespace Work

variable (changed : FileTree × Option Denial) (workspace : Workspace)

theorem run_adopt :
    (adopt changed).run workspace =
      match changed.2 with
      | none => .ok ⟨⟩ { workspace with tree := changed.1 }
      | some denial => .error (.denied denial) { workspace with tree := changed.1 } := by
  obtain ⟨tree, denial⟩ := changed
  cases denial <;> rfl

theorem left_adopt : (left ((adopt changed).run workspace)).tree = changed.1 := by
  rw [run_adopt]
  split <;> rfl

variable {changed workspace}

theorem eq_of_run_adopt {adopted : Workspace}
    (hrun : (adopt changed).run workspace = .ok ⟨⟩ adopted) :
    changed.2 = none ∧ adopted.tree = changed.1 := by
  rw [run_adopt] at hrun
  split at hrun
  · obtain ⟨-, rfl⟩ := EStateM.Result.ok.inj hrun
    exact ⟨‹_›, rfl⟩
  · cases hrun

end Work

/-! ### Posts -/

namespace Post

variable {settings : Settings} {compiler : Compiler} {workspace ended : Workspace}

theorem slug_of_ofFile {tree : FileTree} {path : Path} {text : Text} {post : Post}
    (hfile : ofFile tree path text = .ok post) : post.slug = path.stem := by
  rw [ofFile] at hfile
  cases hdate : dateOf tree path with
  | error fault =>
      rw [hdate] at hfile
      cases hfile
  | ok date =>
      rw [hdate] at hfile
      rw [← Except.ok.inj hfile]

theorem same_readAll (paths : List Path) (failures : List (Text × Text)) :
    Moves (fun before after => after = before) (readAll settings compiler paths failures) := by
  induction paths generalizing failures with
  | nil => exact moves_pure isEffect_same _
  | cons path rest ih =>
      refine moves_bind isEffect_same (moves_get isEffect_same) fun workspace => ?_
      dsimp only
      split
      · exact moves_throw isEffect_same _
      · exact ih failures
      · split
        · split
          · exact moves_bind isEffect_same (ih failures) fun _ => moves_pure isEffect_same _
          · exact moves_throw isEffect_same _
        · exact moves_bind isEffect_same (moves_note isEffect_same _ _) fun _ => ih _
        · exact moves_throw isEffect_same _

/-- What becomes of the first of some paths: it is passed over, it is that of a post, or it is that
of a post that cannot be read. -/
theorem cases_of_readAll {path : Path} {rest : List Path} {failures failed : List (Text × Text)}
    {posts : List Post}
    (hrun : (readAll settings compiler (path :: rest) failures).run workspace =
      .ok (posts, failed) ended) :
    isCandidate settings workspace.tree path = .ok false ∧
        (readAll settings compiler rest failures).run workspace = .ok (posts, failed) ended ∨
      isCandidate settings workspace.tree path = .ok true ∧
        ((∃ text post more, compiler.readText workspace.tree path [] none = .ok text ∧
            ofFile workspace.tree path text = .ok post ∧ posts = post :: more ∧
            (readAll settings compiler rest failures).run workspace = .ok (more, failed) ended) ∨
          ∃ error journal,
            compiler.readText workspace.tree path [] none = .error (.template error) ∧
            (readAll settings compiler rest (Table.put path.stem error.message failures)).run
              { workspace with journal } = .ok (posts, failed) ended) := by
  rw [readAll, EStateM.run_bind, EStateM.run_get] at hrun
  dsimp only at hrun
  split at hrun
  · cases hrun
  · rename_i hcandidate
    exact Or.inl ⟨hcandidate, hrun⟩
  rename_i hcandidate
  refine Or.inr ⟨hcandidate, ?_⟩
  split at hrun
  · rename_i text hread
    split at hrun
    · rename_i post hfile
      obtain ⟨result, reached, hrest, hrun⟩ := run_bind_eq_ok.1 hrun
      obtain ⟨hresult, rfl⟩ := EStateM.Result.ok.inj hrun
      obtain ⟨rfl, rfl⟩ := Prod.mk.inj hresult
      exact Or.inl ⟨text, post, result.1, hread, hfile, rfl, hrest⟩
    · cases hrun
  · rename_i error hread
    exact Or.inr ⟨error, _, hread, hrun⟩
  · cases hrun

/-- Every post that was read is that of a candidate among the paths. -/
theorem exists_of_mem_readAll {paths : List Path} {failures failed : List (Text × Text)}
    {posts : List Post}
    (hrun : (readAll settings compiler paths failures).run workspace = .ok (posts, failed) ended)
    {post : Post} (hpost : post ∈ posts) :
    ∃ path ∈ paths,
      isCandidate settings workspace.tree path = .ok true ∧ path.stem = post.slug := by
  induction paths generalizing failures workspace posts failed ended with
  | nil =>
      obtain ⟨hposts, -⟩ := EStateM.Result.ok.inj hrun
      obtain ⟨rfl, -⟩ := Prod.mk.inj hposts
      cases hpost
  | cons path rest ih =>
      have hlater {failures : List (Text × Text)} {begun : Workspace} {more : List Post}
          (hrest : (readAll settings compiler rest failures).run begun = .ok (more, failed) ended)
          (hmore : post ∈ more) (htree : begun.tree = workspace.tree) : ∃ path' ∈ path :: rest,
            isCandidate settings workspace.tree path' = .ok true ∧ path'.stem = post.slug := by
        obtain ⟨found, hfound, hcandidate⟩ := ih hrest hmore
        rw [htree] at hcandidate
        exact ⟨found, List.mem_cons_of_mem _ hfound, hcandidate⟩
      rcases cases_of_readAll hrun with
        ⟨-, hrest⟩ | ⟨hcandidate, ⟨text, own, more, -, hfile, rfl, hrest⟩ | ⟨_, _, -, hrest⟩⟩
      · exact hlater hrest hpost rfl
      · rcases List.mem_cons.1 hpost with rfl | hmore
        · exact ⟨path, List.mem_cons_self, hcandidate, (slug_of_ofFile hfile).symm⟩
        · exact hlater hrest hmore rfl
      · exact hlater hrest hpost rfl

theorem same_collect (directory : Path) :
    Moves (fun before after => after = before) (collect settings compiler directory) := by
  refine moves_bind isEffect_same (moves_get isEffect_same) fun workspace => ?_
  dsimp only
  split
  · exact moves_throw isEffect_same _
  · exact moves_pure isEffect_same _
  · exact moves_bind isEffect_same (same_readAll _ _) fun _ => moves_pure isEffect_same _

/-- Posts are collected from a directory only. -/
theorem cases_of_collect {directory : Path} {posts : List Post} {failed : List (Text × Text)}
    (hrun : (collect settings compiler directory).run workspace = .ok (posts, failed) ended) :
    workspace.tree.isDirectory directory = .ok false ∧ posts = [] ∧ failed = [] ∨
      ∃ found, (readAll settings compiler (directoryPaths workspace.tree directory) []).run
        workspace = .ok (found, failed) ended ∧ posts = arrange found := by
  rw [collect, EStateM.run_bind, EStateM.run_get] at hrun
  dsimp only at hrun
  split at hrun
  · cases hrun
  · rename_i hdirectory
    obtain ⟨hresult, -⟩ := EStateM.Result.ok.inj hrun
    obtain ⟨rfl, rfl⟩ := Prod.mk.inj hresult
    exact Or.inl ⟨hdirectory, rfl, rfl⟩
  · obtain ⟨result, reached, hread, hrun⟩ := run_bind_eq_ok.1 hrun
    obtain ⟨hresult, rfl⟩ := EStateM.Result.ok.inj hrun
    obtain ⟨rfl, rfl⟩ := Prod.mk.inj hresult
    exact Or.inr ⟨result.1, hread, rfl⟩

theorem exists_of_mem_collect {directory : Path} {posts : List Post} {failed : List (Text × Text)}
    (hrun : (collect settings compiler directory).run workspace = .ok (posts, failed) ended)
    {post : Post} (hpost : post ∈ posts) :
    ∃ path ∈ directoryPaths workspace.tree directory,
      isCandidate settings workspace.tree path = .ok true ∧ path.stem = post.slug := by
  rcases cases_of_collect hrun with ⟨-, rfl, -⟩ | ⟨found, hread, rfl⟩
  · cases hpost
  · rw [arrange, List.mem_mergeSort, List.mem_mergeSort] at hpost
    exact exists_of_mem_readAll hread hpost

/-- What stands in a directory has a plain name. -/
theorem isPlain_name {tree : FileTree} (hnames : tree.IsWellNamed) {directory path : Path}
    (hpath : path ∈ directoryPaths tree directory) : Path.IsPlain path.name := by
  rw [directoryPaths] at hpath
  split at hpath
  · cases hpath
  · rename_i location hlocate
    obtain ⟨name, hname, rfl⟩ := List.mem_map.1 hpath
    rw [Path.name_of_parts rfl]
    refine hnames _ (entry?_of_mem_names (List.mem_mergeSort.1 hname)) name ?_
    exact List.mem_append_right _ (List.mem_singleton_self name)

/-- The stem of what stands in a directory is plain, or it is made of dots. -/
theorem cases_of_stem {tree : FileTree} (hnames : tree.IsWellNamed) {directory path : Path}
    (hpath : path ∈ directoryPaths tree directory) :
    Path.IsPlain path.stem ∨ path.stem = ['.'] ∨ path.stem = ['.', '.'] :=
  Path.cases_of_stem (isPlain_name hnames hpath)

end Post

/-! ### Pages -/

namespace Site

/-- The name of the file that every page is written to. -/
def indexName : Text := "index.html".toList

theorem isPlain_indexName : Path.IsPlain indexName := by
  refine ⟨?_, ?_, ?_, ?_⟩ <;> decide

/-- The place to which a double dot leads from the output directory. -/
def placeBeside (output : Path) : Location := output.parts.dropLast ++ [indexName]

section Pages

variable {output path : Path} {others : Location → Prop}

theorem changesWithin_of_prepared {places : Location → Prop} {compiler : Compiler}
    {tree : FileTree} (text : Text) (hadds : Adds places tree (Compiler.prepared tree path))
    (hplaces : ∀ location, places location → location <+: output.parts ∨ output.parts <+: location)
    (hlocation : ∀ location, (Compiler.prepared tree path).locateNew path = .ok location →
      (output.parts <+: location ∧ location ≠ output.parts) ∨ others location) :
    ChangesWithin output.parts others tree (compiler.writeText tree path text).1 := by
  have hmade : ChangesWithin output.parts others tree (Compiler.prepared tree path) :=
    .of_adds hadds hplaces
  rcases (Compiler.writing_writeText compiler tree path text).cases_tree with
    htree | ⟨location, content, hnew, hwrites⟩
  · rw [htree]
    exact hmade
  · exact hmade.trans (.of_writes hwrites (hlocation location hnew))

/-- A page at a path of plain names that stand below the output directory. -/
theorem changesWithin_of_isAbsolute (compiler : Compiler) (tree : FileTree) (text : Text)
    (hpath : path.IsAbsolute) {above : Location} {name : Text}
    (hparts : path.parts = above ++ [name]) (hbelow : output.parts <+: above) :
    ChangesWithin output.parts others tree (compiler.writeText tree path text).1 := by
  have hparent : path.parent.parts = above := by rw [Path.parent, hparts, List.dropLast_concat]
  refine changesWithin_of_prepared text (makeDirectories_of_isAbsolute tree true hpath.parent).1
    (fun location habove => ?_) fun location hnew => Or.inl ?_
  · rw [hparent] at habove
    exact List.prefix_or_prefix_of_prefix habove hbelow
  · rw [locateNew_of_isAbsolute hpath hnew, hparts]
    refine ⟨hbelow.trans (List.prefix_append _ _), fun heq => ?_⟩
    have hlength := hbelow.length_le
    rw [← heq, List.length_append, List.length_singleton] at hlength
    omega

/-- A page at a path that goes through a double dot. -/
theorem changesWithin_of_dots (compiler : Compiler) (tree : FileTree) (text : Text)
    (houtput : output.IsAbsolute) (hothers : others (placeBeside output)) :
    ChangesWithin output.parts others tree
      (compiler.writeText tree ((output.child ['.', '.']).child indexName) text).1 := by
  have hdots : output.child ['.', '.'] = { output with parts := output.parts ++ [['.', '.']] } :=
    Path.child_of_not_mem (by decide) (by decide) (by decide) output
  have hparent : ((output.child ['.', '.']).child indexName).parent = output.child ['.', '.'] := by
    rw [Path.child_of_plain isPlain_indexName, Path.parent]
    simp only [List.dropLast_concat]
  -- directories are made for the output directory and those above it, and then none is missing
  have hadds : Adds (· <+: output.parts) tree
      (Compiler.prepared tree ((output.child ['.', '.']).child indexName)) := by
    rw [Compiler.prepared, hparent]
    refine (cases_of_makeDirectories (· <+: output.parts)
      (fun above => above = output.child ['.', '.'] ∨
        (above.IsAbsolute ∧ above.parts <+: output.parts)) ?_ ?_ tree true (Or.inl rfl)).1
    · rintro above (rfl | ⟨habsolute, habove⟩)
      · refine Or.inr ?_
        rw [hdots, Path.parent]
        simp only [List.dropLast_concat]
        exact ⟨houtput, List.prefix_rfl⟩
      · exact Or.inr ⟨habsolute.parent, (List.dropLast_prefix _).trans habove⟩
    · rintro above made location (rfl | ⟨habsolute, habove⟩) hnew
      · rw [hdots] at hnew
        rw [locateNew_dots houtput hnew]
        exact List.dropLast_prefix _
      · rwa [locateNew_of_isAbsolute habsolute hnew]
  refine changesWithin_of_prepared text hadds (fun location => Or.inl) fun location hnew => ?_
  rw [hdots, Path.child_of_plain isPlain_indexName] at hnew
  rw [locateNew_behind_dots houtput isPlain_indexName hnew]
  exact Or.inr hothers

/-- The page in the directory that a slug names. -/
theorem changesWithin_page (compiler : Compiler) (tree : FileTree) (text : Text)
    (houtput : output.IsAbsolute) {slug : Text}
    (hslug : Path.IsPlain slug ∨ slug = ['.'] ∨ slug = ['.', '.'] ∧ others (placeBeside output)) :
    ChangesWithin output.parts others tree
      (compiler.writeText tree ((output.child slug).child indexName) text).1 := by
  rcases hslug with hplain | rfl | ⟨rfl, hothers⟩
  · refine changesWithin_of_isAbsolute compiler tree text
      ((houtput.child hplain).child isPlain_indexName)
      (by rw [Path.child_of_plain isPlain_indexName]) ?_
    rw [Path.child_of_plain hplain]
    exact List.prefix_append _ _
  · rw [Path.child_dot]
    exact changesWithin_of_isAbsolute compiler tree text (houtput.child isPlain_indexName)
      (by rw [Path.child_of_plain isPlain_indexName]) List.prefix_rfl
  · exact changesWithin_of_dots compiler tree text houtput hothers

end Pages

variable {site : Site} {others : Location → Prop}

/-- A page that goes into the directory named by a slug. -/
def Page.IsIn (page : Page) (output : Path) (slug : Text) : Prop :=
  page.output = (output.child slug).child indexName

theorem moves_buildPage (houtput : site.output.IsAbsolute) {page : Page} {slug : Text}
    (hslug : Path.IsPlain slug ∨ slug = ['.'] ∨
      slug = ['.', '.'] ∧ others (placeBeside site.output))
    (hpage : page.IsIn site.output slug) (report : Report) :
    Moves (ChangesWithin site.output.parts others) (site.buildPage report page) := by
  have heffect := isEffect_changesWithin site.output.parts others
  refine moves_bind heffect (Compiler.moves_compileSource heffect site.compiler _ _ ?_)
    fun result => ?_
  · intro tree text
    rw [hpage]
    exact changesWithin_page site.compiler tree text houtput hslug
  · cases result with
    | compiled text written =>
        exact moves_bind heffect (moves_note heffect _ _) fun _ => moves_pure heffect _
    | failed error =>
        exact moves_bind heffect (moves_note heffect _ _) fun _ => moves_pure heffect _

theorem moves_buildPages (houtput : site.output.IsAbsolute) {pages : List Page}
    (hpages : ∀ page ∈ pages, ∃ slug, (Path.IsPlain slug ∨ slug = ['.'] ∨
      slug = ['.', '.'] ∧ others (placeBeside site.output)) ∧ page.IsIn site.output slug)
    (report : Report) :
    Moves (ChangesWithin site.output.parts others) (site.buildPages report pages) := by
  have heffect := isEffect_changesWithin site.output.parts others
  induction pages generalizing report with
  | nil => exact moves_pure heffect report
  | cons page rest ih =>
      obtain ⟨⟨slug, hslug, hpage⟩, hrest⟩ := List.forall_mem_cons.1 hpages
      exact moves_bind heffect (moves_buildPage houtput hslug hpage report) fun _ => ih hrest _

/-! ### The output directory -/

/-- An output directory that is there is emptied, and one that is not is made. -/
theorem run_prepare (houtput : site.output.IsAbsolute) (workspace : Workspace) :
    site.prepare.run workspace =
      match workspace.tree.isDirectory site.output with
      | .error denial => .error (.denied denial) workspace
      | .ok true =>
        (Work.adopt (workspace.tree.emptyDirectory site.output site.output.parts)).run
          { workspace with
            journal := workspace.journal.note 2
              ("Cleaning build directory ".toList ++ site.output.toText) }
      | .ok false =>
        (Work.adopt (workspace.tree.makeDirectories site.output false)).run workspace := by
  rw [prepare, EStateM.run_bind, EStateM.run_get]
  dsimp only
  cases hdirectory : workspace.tree.isDirectory site.output with
  | error denial => rfl
  | ok found =>
      cases found with
      | false => rfl
      | true =>
          obtain ⟨location, hlocate, -⟩ := exists_of_isDirectory hdirectory
          rw [hlocate]
          obtain rfl := locate_of_isAbsolute houtput hlocate
          rfl

/-- The output directory loses entries, or it is made with the directories above it. -/
theorem cases_of_prepare (houtput : site.output.IsAbsolute) (workspace : Workspace) :
    (∃ removed, Loses site.output.parts removed workspace.tree
        (left (site.prepare.run workspace)).tree) ∨
      Adds (· <+: site.output.parts) workspace.tree (left (site.prepare.run workspace)).tree := by
  rw [run_prepare houtput]
  split
  · exact Or.inr (.refl _)
  · rename_i hdirectory
    obtain ⟨location, hlocate, hentry⟩ := exists_of_isDirectory hdirectory
    obtain rfl := locate_of_isAbsolute houtput hlocate
    obtain ⟨removed, -, hloses, -⟩ := loses_removeEntries site.output
      (workspace.tree.names site.output.parts) hentry
    rw [left_adopt]
    exact Or.inl ⟨removed, hloses⟩
  · rw [left_adopt]
    exact Or.inr (makeDirectories_of_isAbsolute workspace.tree false houtput).1

/-- Once the output directory is prepared, nothing is left below it. -/
theorem entry?_prepare (houtput : site.output.IsAbsolute) {workspace prepared : Workspace}
    (hprepare : site.prepare.run workspace = .ok ⟨⟩ prepared) {location : Location}
    (hbelow : site.output.parts <+: location) (hne : location ≠ site.output.parts) :
    prepared.tree.entry? location = none := by
  have hrun := run_prepare houtput workspace
  rw [hprepare] at hrun
  split at hrun
  · cases hrun
  · rename_i hdirectory
    obtain ⟨place, hlocate, hentry⟩ := exists_of_isDirectory hdirectory
    obtain rfl := locate_of_isAbsolute houtput hlocate
    obtain ⟨removed, -, hloses, hall⟩ := loses_removeEntries site.output
      (workspace.tree.names site.output.parts) hentry
    obtain ⟨hnone, htree⟩ := eq_of_run_adopt hrun.symm
    rw [htree]
    exact (hall hnone ▸ hloses).entry?_below hbelow hne
  · rename_i hdirectory
    have hnone : workspace.tree.entry? location = none :=
      Decidable.byContradiction fun hthere =>
        entry?_of_isDirectory houtput hdirectory (entry?_of_above hbelow hne.symm hthere)
    have hadds := (makeDirectories_of_isAbsolute workspace.tree false houtput).1
    rw [(eq_of_run_adopt hrun.symm).2]
    rcases hadds.entries location with hsame | ⟨habove, -⟩
    · exact hsame.trans hnone
    · exact absurd (habove.eq_of_length_le hbelow.length_le) hne

theorem moves_prepare (houtput : site.output.IsAbsolute) :
    Moves (ChangesWithin site.output.parts others) site.prepare := by
  intro workspace
  rcases cases_of_prepare houtput workspace with ⟨removed, hloses⟩ | hadds
  · exact hloses.changesWithin others
  · exact .of_adds hadds fun location => Or.inl

theorem isWellNamed_prepare (houtput : site.output.IsAbsolute) {workspace : Workspace}
    (hnames : workspace.tree.IsWellNamed) :
    (left (site.prepare.run workspace)).tree.IsWellNamed := by
  rcases cases_of_prepare houtput workspace with ⟨removed, hloses⟩ | hadds
  · exact hloses.isWellNamed hnames
  · exact hnames.of_adds hadds fun location habove name hname =>
      houtput.plain name (habove.subset hname)

/-! ### The whole build -/

/-- A file of the posts directory that a build reads as a post has a given stem. -/
def Collects (site : Site) (workspace : Workspace) (slug : Text) : Prop :=
  ∃ prepared path, site.prepare.run workspace = .ok ⟨⟩ prepared ∧
    path ∈ Post.directoryPaths prepared.tree site.posts ∧
    Post.isCandidate site.settings prepared.tree path = .ok true ∧ path.stem = slug

theorem moves_build (houtput : site.output.IsAbsolute) {workspace : Workspace}
    (hnames : workspace.tree.IsWellNamed)
    (hothers : site.Collects workspace ['.', '.'] → others (placeBeside site.output)) :
    ChangesWithin site.output.parts others workspace.tree
      (left (site.build.run workspace)).tree := by
  have heffect := isEffect_changesWithin site.output.parts others
  rw [build, EStateM.run_bind, EStateM.run_get]
  dsimp only
  split
  · exact .refl _
  · exact .refl _
  rw [EStateM.run_bind]
  have hwellNamed := isWellNamed_prepare houtput hnames
  cases hprepare : site.prepare.run workspace with
  | error fault prepared => exact (moves_prepare houtput).of_error hprepare
  | ok done prepared =>
      refine ((moves_prepare houtput).of_ok hprepare).trans ?_
      rw [hprepare] at hwellNamed
      dsimp only
      rw [EStateM.run_bind]
      have hsame : Moves _ (Post.collect site.settings site.compiler site.posts) :=
        Post.same_collect site.posts
      cases hcollect : (Post.collect site.settings site.compiler site.posts).run prepared with
      | error fault collected => exact hsame.of_error hcollect ▸ .refl _
      | ok result collected =>
          obtain ⟨posts, failures⟩ := result
          have htree : collected.tree = prepared.tree := hsame.of_ok hcollect
          have hslugs : ∀ post ∈ posts, Path.IsPlain post.slug ∨ post.slug = ['.'] ∨
              post.slug = ['.', '.'] ∧ others (placeBeside site.output) := by
            intro post hpost
            obtain ⟨path, hpath, hcandidate, hstem⟩ := Post.exists_of_mem_collect hcollect hpost
            rw [← hstem]
            refine (Post.cases_of_stem hwellNamed hpath).imp_right (Or.imp_right fun hdots => ?_)
            exact ⟨hdots, hothers ⟨prepared, path, hprepare, hpath, hcandidate, hdots⟩⟩
          rw [← htree]
          refine (show Moves (ChangesWithin site.output.parts others) _ from ?_) collected
          split
          · exact moves_bind heffect (moves_note heffect _ _) fun _ => moves_pure heffect _
          · refine moves_bind heffect (moves_buildPages houtput ?_ _) fun report =>
              moves_bind heffect (moves_note heffect _ _) fun _ => moves_pure heffect _
            intro page hpage
            rcases List.mem_append.1 hpage with hpost | hindex
            · obtain ⟨post, hmem, rfl⟩ := List.mem_map.1 hpost
              exact ⟨post.slug, hslugs post hmem, rfl⟩
            · obtain rfl := List.mem_singleton.1 hindex
              refine ⟨['.'], Or.inr (Or.inl rfl), ?_⟩
              rw [Page.IsIn, Path.child_dot]
              rfl

/-- A build changes what stands below its output directory, makes that directory and those above it
where they are missing, and changes nothing else, also where pages fail; except that it writes a
page beside the output directory if the stem of a post's file is a double dot. -/
theorem build_changes_within_output (settings : Settings) (root : Path) (output : Option Path)
    (compiler : Option Compiler) (workspace : Workspace) (hnames : workspace.tree.IsWellNamed) :
    let site := configure settings workspace.tree.workingDirectory root output compiler
    ChangesWithin site.output.parts
      (fun location => site.Collects workspace ['.', '.'] ∧ location = placeBeside site.output)
      workspace.tree (left (site.build.run workspace)).tree :=
  moves_build (Path.isAbsolute_absolute workspace.tree.isAbsolute _) hnames fun hcollects =>
    ⟨hcollects, rfl⟩

/-- A site with one post, whose page is put into a directory below the output directory. -/
theorem build_changes_within_output_post :
    let workspace := Workspace.ofEntries [["posts".toList], ["templates".toList]]
      [(["posts".toList, "a.kit".toList], "text".toList),
       (["templates".toList, "post.kit".toList], "post".toList),
       (["templates".toList, "index.kit".toList], "index".toList)]
    let site := configure {} workspace.tree.workingDirectory ⟨.root, []⟩ none none
    FileTree.entry? (left (site.build.run workspace)).tree
        ["build".toList, "a".toList, indexName] ≠ none ∧
      ChangesWithin ["build".toList]
        (fun location => site.Collects workspace ['.', '.'] ∧ location = placeBeside site.output)
        workspace.tree (left (site.build.run workspace)).tree := by
  intro workspace site
  have hnames : workspace.tree.IsWellNamed := isWellNamed_of_entries (by decide +kernel)
  exact ⟨by decide +kernel, build_changes_within_output {} ⟨.root, []⟩ none none workspace hnames⟩

/-- A post whose stem is a double dot: its page takes the place of a file beside the output
directory. -/
theorem build_overwrites_file_beside_output :
    let workspace := Workspace.ofEntries [["posts".toList], ["templates".toList]]
      [(["posts".toList, "...kit".toList], "<h1>A</h1>".toList),
       (["templates".toList, "post.kit".toList], "P".toList),
       (["templates".toList, "index.kit".toList], "I".toList),
       (["index.html".toList], "mine".toList)]
    let site := configure {} workspace.tree.workingDirectory ⟨.root, []⟩ none none
    site.output.parts = ["build".toList] ∧
      workspace.tree.file? ["index.html".toList] =
        some ("mine".toList.flatMap String.utf8EncodeChar, ⟨0⟩) ∧
      (left (site.build.run workspace)).tree.file? ["index.html".toList] =
        some ("P".toList.flatMap String.utf8EncodeChar, ⟨0⟩) := by
  decide +kernel

end Site

end KitTemplate
