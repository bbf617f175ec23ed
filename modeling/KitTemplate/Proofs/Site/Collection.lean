import KitTemplate.Proofs.Site.Date
import KitTemplate.Proofs.Site.Parallel
import KitTemplate.Proofs.Site.Report

/-! Collections of posts. The files of a directory are read by name, and what becomes of each hangs
on what the directory holds under its name (`reads_reading`). So a collection has one post for every
file that counts as a post and can be read, and a failure for every other one. The posts are sorted
three times, by files, slugs and dates; each time, those that are equal keep their order
(`pairwise_mergeSort_of_pairwise`), so the last sort counts most and the first one least. Dates are
those of the local clock, so posts stand in the order of their times where dates tell these apart.
The work is stopped by a path that is too long, or by a time that is no date, as those far from 1970
may be. -/

namespace KitTemplate

open FileTree Work

/-! ### Sorting -/

/-- Items that are equal are sorted in the order in which they stood. -/
theorem pairwise_mergeSort_of_pairwise {α : Type} {le : α → α → Bool} {before : α → α → Prop}
    {items : List α} (htrans : ∀ first second third, le first second → le second third →
      le first third) (htotal : ∀ first second, (le first second || le second first) = true)
    (hitems : items.Pairwise before) :
    (items.mergeSort le).Pairwise fun first second =>
      le first second ∧ (le second first → before first second) := by
  rw [List.pairwise_iff_forall_sublist]
  intro first second hpair
  have hle : le first second :=
    List.pairwise_iff_forall_sublist.1 (List.pairwise_mergeSort htrans htotal items) hpair
  refine ⟨hle, fun hge => List.pairwise_iff_forall_sublist.1 hitems ?_⟩
  let same (item : α) : Bool := le first item && le item first
  have hequal : (items.mergeSort le).filter same = items.filter same := by
    have hsorted : (items.filter same).Pairwise fun item other => le item other := by
      refine List.pairwise_of_forall_mem_list fun item hitem other hother => ?_
      have hitem' := (List.mem_filter.1 hitem).2
      have hother' := (List.mem_filter.1 hother).2
      simp only [same, Bool.and_eq_true] at hitem' hother'
      exact htrans _ _ _ hitem'.2 hother'.1
    have hkept := (List.sublist_mergeSort htrans htotal hsorted List.filter_sublist).filter same
    rw [List.filter_filter] at hkept
    simp only [Bool.and_self] at hkept
    refine (hkept.eq_of_length ?_).symm
    exact ((List.mergeSort_perm items le).filter same).length_eq.symm
  have hself : le first first := by simpa using htotal first first
  have hfiltered := hpair.filter same
  rw [hequal, List.filter_cons_of_pos (by simp [same, hself]),
    List.filter_cons_of_pos (by simp [same, hle, hge]), List.filter_nil] at hfiltered
  exact hfiltered.trans List.filter_sublist

/-! ### What a directory holds -/

namespace FileTree

/-- The names in a directory, in the order in which it lists them. -/
def listing (tree : FileTree) (directory : Path) : List Text :=
  match tree.locate directory with
  | .ok location => tree.names location
  | .error _ => []

/-- What a directory holds under a name. -/
def held? (tree : FileTree) (directory : Path) (name : Text) : Option Entry :=
  match tree.locate directory with
  | .ok location => tree.entry? (location ++ [name])
  | .error _ => none

/-- A directory lists names that its entries can have, and none of them twice. -/
structure IsListed (tree : FileTree) (directory : Path) : Prop where
  plain : ∀ name ∈ tree.listing directory, Path.IsPlain name
  distinct : (tree.listing directory).Nodup

variable {tree : FileTree} {directory : Path} {location : Location} {name : Text}

/-- The path of an entry leads to it, unless the path is too long. -/
theorem cases_of_locate_entry (hlocate : tree.locate directory = .ok location)
    (hlisted : name ∈ tree.names location) (hname : Path.IsPlain name) :
    tree.locate (directory.entry name) = .ok (location ++ [name]) ∨
      tree.locate (directory.entry name) = .error .nameTooLong := by
  have hwalk : tree.walk (tree.origin directory) (route directory) = .ok location := by
    rw [locate] at hlocate
    split at hlocate
    · cases hlocate
    · exact hlocate
  have hdirectory : tree.entry? location = some .directory := by
    refine Decidable.byContradiction fun hnone => ?_
    rw [names_eq_nil hnone] at hlisted
    cases hlisted
  have hstep : tree.stepInto location name = .ok (location ++ [name]) ∨
      tree.stepInto location name = .error .nameTooLong := by
    rw [stepInto, if_neg (not_not.2 hdirectory), if_neg hname.2.1, if_neg hname.2.2.1]
    split
    · exact Or.inr rfl
    · exact Or.inl (if_neg (entry?_of_mem_names hlisted))
  rw [locate]
  split
  · exact Or.inr rfl
  · rw [route_entry hname, walk_concat, show tree.origin (directory.entry name) =
      tree.origin directory from rfl, hwalk]
    exact hstep

/-- What the path of an entry names is what the directory holds. -/
theorem cases_of_inspect_entry (hdirectory : tree.IsListed directory)
    (hlisted : name ∈ tree.listing directory) :
    tree.inspect (directory.entry name) = .ok (tree.held? directory name) ∨
      tree.inspect (directory.entry name) = .error ⟨.nameTooLong, directory.entry name⟩ := by
  have hname := hdirectory.plain name hlisted
  rw [listing] at hlisted
  split at hlisted
  · rename_i location hlocate
    rw [held?, hlocate]
    rcases cases_of_locate_entry hlocate hlisted hname with hentry | hlong
    · exact Or.inl (by rw [inspect, hentry])
    · exact Or.inr (by rw [inspect, hlong])
  · cases hlisted

end FileTree

namespace Post

variable {settings : Settings} {compiler : Compiler} {charset : Charset} {tree : FileTree}
  {directory : Path} {name : Text} {content : Bytes} {changed : Instant}

theorem directoryPaths_eq_map (tree : FileTree) (directory : Path) :
    directoryPaths tree directory =
      ((tree.listing directory).mergeSort Text.le).map directory.entry := by
  rw [directoryPaths, listing]
  cases tree.locate directory with
  | error refusal => simp
  | ok location => rfl

/-! ### The files of posts -/

/-- A file of a directory counts as a post: it is a regular one, its name does not begin with an
underscore, and its suffix is the template extension in any letter case. -/
structure IsPostFile (settings : Settings) (tree : FileTree) (directory : Path) (name : Text)
    (content : Bytes) (changed : Instant) : Prop where
  listed : name ∈ tree.listing directory
  held : tree.held? directory name = some (.file content changed)
  shown : name.head? ≠ some '_'
  suffix : (Path.splitSuffix name).2.lowerCase = settings.templateExtension.lowerCase

/-- A post is that of a file with some text that was changed at some time. -/
structure IsPostOf (post : Post) (zone : Zone) (name text : Text) (changed : Instant) : Prop where
  slug : post.slug = (Path.splitSuffix name).1
  title : post.title = Site.title text post.slug
  file : post.file = name
  date : Site.date zone changed = .ok post.date

/-- What becomes of a file: a fault stops the work, the file is passed over, it is a failure, or it
is a post. -/
def reading (settings : Settings) (compiler : Compiler) (tree : FileTree) (path : Path) :
    Except Fault (Option (Except TemplateError Post)) :=
  match isCandidate settings tree path with
  | .error fault => .error fault
  | .ok false => .ok none
  | .ok true =>
    match compiler.readText tree path [] none with
    | .ok text => (ofFile tree path text).map fun post => some (.ok post)
    | .error (.template error) => .ok (some (.error error))
    | .error fault => .error fault

/-- What becomes of a file by what its directory holds. -/
inductive Reads (settings : Settings) (charset : Charset) (tree : FileTree) (directory : Path)
    (name : Text) : Except Fault (Option (Except TemplateError Post)) → Prop
  | denied (hlong : IsTooLong (directory.entry name)) :
      Reads settings charset tree directory name
        (.error (.denied ⟨.nameTooLong, directory.entry name⟩))
  | passed (hnone : ∀ content changed, ¬ IsPostFile settings tree directory name content changed) :
      Reads settings charset tree directory name (.ok none)
  | failed {content : Bytes} {changed : Instant} {problem : Charset.Undecodable}
      (hfile : IsPostFile settings tree directory name content changed)
      (hdecode : charset.decode content = .error problem) (error : TemplateError) :
      Reads settings charset tree directory name (.ok (some (.error error)))
  | undated {content : Bytes} {changed : Instant} {text : Text} {problem : Site.DateProblem}
      (hfile : IsPostFile settings tree directory name content changed)
      (hdecode : charset.decode content = .ok text)
      (hdate : Site.date tree.zone changed = .error problem) :
      Reads settings charset tree directory name (.error (.date problem))
  | read {content : Bytes} {changed : Instant} {text : Text} {post : Post}
      (hfile : IsPostFile settings tree directory name content changed)
      (hdecode : charset.decode content = .ok text)
      (hpost : post.IsPostOf tree.zone name text changed) :
      Reads settings charset tree directory name (.ok (some (.ok post)))

section Inspection

variable {path : Path}

theorem isCandidate_of_denied {denial : Denial} (hinspect : tree.inspect path = .error denial) :
    isCandidate settings tree path = .error (.denied denial) := by
  rw [isCandidate, isFile, hinspect]
  rfl

theorem isCandidate_of_no_file {entry : Option Entry} (hinspect : tree.inspect path = .ok entry)
    (hentry : ∀ content changed, entry ≠ some (.file content changed)) :
    isCandidate settings tree path = .ok false := by
  rw [isCandidate, isFile, hinspect]
  rcases entry with _ | _ | ⟨content, changed⟩
  · rfl
  · rfl
  · exact absurd rfl (hentry content changed)

variable (hinspect : tree.inspect path = .ok (some (.file content changed)))

include hinspect

theorem isCandidate_of_file : isCandidate settings tree path =
    .ok (decide (path.name.head? ≠ some '_' ∧
      path.suffix.lowerCase = settings.templateExtension.lowerCase)) := by
  rw [isCandidate, isFile, hinspect, Bool.decide_and, decide_not, ← beq_eq_decide]
  rfl

theorem readText_of_file (hcharset : Charset.named? compiler.settings.encoding = some charset) :
    compiler.readText tree path [] none =
      (charset.decode content).mapError fun _ =>
        .template ⟨.undecodable path.name compiler.settings.encoding, path.name, none⟩ := by
  obtain ⟨location, hlocate, hentry⟩ := exists_of_inspect hinspect
  rw [Compiler.readText, read_of_entry? hlocate hentry]
  dsimp only
  rw [hcharset]
  dsimp only
  cases charset.decode content <;> rfl

theorem ofFile_of_file (text : Text) : ofFile tree path text =
    ((Site.date tree.zone changed).mapError Fault.date).map fun date =>
      { slug := path.stem, title := Site.title text path.stem, file := path.name, date } := by
  rw [ofFile, dateOf, hinspect]
  dsimp only
  cases Site.date tree.zone changed <;> rfl

end Inspection

theorem reads_reading (hcharset : Charset.named? compiler.settings.encoding = some charset)
    (hdirectory : tree.IsListed directory) (hlisted : name ∈ tree.listing directory) :
    Reads settings charset tree directory name
      (reading settings compiler tree (directory.entry name)) := by
  have hname : (directory.entry name).name = name := Path.name_of_parts rfl
  rw [reading]
  rcases cases_of_inspect_entry hdirectory hlisted with hinspect | hinspect
  · by_cases hfile : ∃ content changed, tree.held? directory name = some (.file content changed)
    · obtain ⟨content, changed, hheld⟩ := hfile
      rw [hheld] at hinspect
      rw [isCandidate_of_file hinspect, Path.suffix, hname]
      by_cases hcounts : name.head? ≠ some '_' ∧
          (Path.splitSuffix name).2.lowerCase = settings.templateExtension.lowerCase
      · have hpost : IsPostFile settings tree directory name content changed :=
          ⟨hlisted, hheld, hcounts.1, hcounts.2⟩
        rw [decide_eq_true hcounts]
        dsimp only
        rw [readText_of_file hinspect hcharset]
        cases hdecode : charset.decode content with
        | error problem => exact .failed hpost hdecode _
        | ok text =>
            dsimp only [Except.mapError]
            rw [ofFile_of_file hinspect, Path.stem, hname]
            cases hdate : Site.date tree.zone changed with
            | error problem => exact .undated hpost hdecode hdate
            | ok date => exact .read hpost hdecode ⟨rfl, rfl, rfl, hdate⟩
      · rw [decide_eq_false hcounts]
        exact .passed fun content changed hpost => hcounts ⟨hpost.shown, hpost.suffix⟩
    · rw [isCandidate_of_no_file hinspect fun content changed hheld =>
        hfile ⟨content, changed, hheld⟩]
      exact .passed fun content changed hpost => hfile ⟨content, changed, hpost.held⟩
  · rw [isCandidate_of_denied hinspect]
    exact .denied (isTooLong_of_inspect hinspect).1

/-! ### Reading one after another -/

/-- The post in a file, if it can be read. -/
def post? (settings : Settings) (compiler : Compiler) (tree : FileTree) (path : Path) :
    Option Post :=
  match reading settings compiler tree path with
  | .ok (some (.ok post)) => some post
  | _ => none

theorem unreadable?_eq (path : Path) :
    unreadable? settings compiler tree path =
      match reading settings compiler tree path with
      | .ok (some (.error error)) => some (path.stem, error.message)
      | _ => none := by
  rw [unreadable?, reading]
  cases isCandidate settings tree path with
  | error fault => rfl
  | ok candidate =>
      cases candidate with
      | false => rfl
      | true =>
          dsimp only
          cases compiler.readText tree path [] none with
          | ok text =>
              dsimp only
              cases ofFile tree path text <;> rfl
          | error fault => cases fault <;> rfl

theorem run_readAll_cons (path : Path) (rest : List Path) (failures : List (Text × Text))
    (workspace : Workspace) :
    (readAll settings compiler (path :: rest) failures).run workspace =
      match reading settings compiler workspace.tree path with
      | .error fault => .error fault workspace
      | .ok none => (readAll settings compiler rest failures).run workspace
      | .ok (some (.ok post)) => (do
          let (posts, failed) ← readAll settings compiler rest failures
          return (post :: posts, failed) : Work (List Post × List (Text × Text))).run workspace
      | .ok (some (.error error)) =>
        (readAll settings compiler rest (Table.put path.stem error.message failures)).run
          { workspace with
            journal := workspace.journal.note 1
              ("Skipping post ".toList ++ path.name ++ ": ".toList ++ error.message) } := by
  rw [readAll, EStateM.run_bind, EStateM.run_get, reading]
  dsimp only
  cases isCandidate settings workspace.tree path with
  | error fault => rfl
  | ok candidate =>
      cases candidate with
      | false => rfl
      | true =>
          dsimp only
          cases compiler.readText workspace.tree path [] none with
          | ok text =>
              dsimp only
              cases ofFile workspace.tree path text <;> rfl
          | error fault => cases fault <;> rfl

/-- Files are read until a fault stops the work. -/
theorem cases_of_run_readAll (settings : Settings) (compiler : Compiler) (paths : List Path)
    (failures : List (Text × Text)) (workspace : Workspace) :
    (∃ path ∈ paths, ∃ fault ended, reading settings compiler workspace.tree path = .error fault ∧
        (readAll settings compiler paths failures).run workspace = .error fault ended) ∨
      (∀ path ∈ paths, ∀ fault, reading settings compiler workspace.tree path ≠ .error fault) ∧
        ∃ failed ended, (readAll settings compiler paths failures).run workspace =
          .ok (paths.filterMap (post? settings compiler workspace.tree), failed) ended := by
  induction paths generalizing failures workspace with
  | nil => exact Or.inr ⟨List.forall_mem_nil _, failures, workspace, rfl⟩
  | cons path rest ih =>
      rw [run_readAll_cons, List.filterMap_cons, List.forall_mem_cons, post?]
      cases hreading : reading settings compiler workspace.tree path with
      | error fault =>
          exact Or.inl ⟨path, List.mem_cons_self, fault, workspace, hreading, rfl⟩
      | ok result =>
          have hpath (fault : Fault) : (.ok result : Except Fault _) ≠ .error fault := nofun
          rcases result with _ | error | post
          · rcases ih failures workspace with
              ⟨found, hfound, hstopped⟩ | ⟨hnone, hread⟩
            · exact Or.inl ⟨found, List.mem_cons_of_mem path hfound, hstopped⟩
            · exact Or.inr ⟨⟨hpath, hnone⟩, hread⟩
          · rcases ih (Table.put path.stem error.message failures) { workspace with
                journal := workspace.journal.note 1
                  ("Skipping post ".toList ++ path.name ++ ": ".toList ++ error.message) } with
              ⟨found, hfound, hstopped⟩ | ⟨hnone, hread⟩
            · exact Or.inl ⟨found, List.mem_cons_of_mem path hfound, hstopped⟩
            · exact Or.inr ⟨⟨hpath, hnone⟩, hread⟩
          · dsimp only
            rw [EStateM.run_bind]
            rcases ih failures workspace with
              ⟨found, hfound, fault, ended, hfault, hrun⟩ | ⟨hnone, failed, ended, hrun⟩
            · rw [hrun]
              exact Or.inl ⟨found, List.mem_cons_of_mem path hfound, fault, ended, hfault, rfl⟩
            · rw [hrun]
              exact Or.inr ⟨⟨hpath, hnone⟩, failed, ended, rfl⟩

section Listed

variable (hcharset : Charset.named? compiler.settings.encoding = some charset)
  (hdirectory : tree.IsListed directory) (hlisted : name ∈ tree.listing directory)

include hcharset hdirectory hlisted

theorem isPostOf_of_post? {post : Post}
    (hpost : post? settings compiler tree (directory.entry name) = some post) :
    ∃ content changed text, IsPostFile settings tree directory name content changed ∧
      charset.decode content = .ok text ∧ post.IsPostOf tree.zone name text changed := by
  have hreads : Reads settings charset tree directory name _ :=
    reads_reading hcharset hdirectory hlisted
  rw [post?] at hpost
  generalize reading settings compiler tree (directory.entry name) = result at hreads hpost
  cases hreads with
  | read hfile hdecode hown =>
      obtain rfl := Option.some.inj hpost
      exact ⟨_, _, _, hfile, hdecode, hown⟩
  | _ => cases hpost

theorem isPostFile_of_unreadable? {failure : Text × Text}
    (hfailure : unreadable? settings compiler tree (directory.entry name) = some failure) :
    ∃ content changed problem, IsPostFile settings tree directory name content changed ∧
      charset.decode content = .error problem ∧ failure.1 = (Path.splitSuffix name).1 := by
  have hreads : Reads settings charset tree directory name _ :=
    reads_reading hcharset hdirectory hlisted
  rw [unreadable?_eq] at hfailure
  generalize reading settings compiler tree (directory.entry name) = result at hreads hfailure
  cases hreads with
  | failed hfile hdecode error =>
      obtain rfl := Option.some.inj hfailure
      exact ⟨_, _, _, hfile, hdecode, by rw [Path.stem, Path.name_of_parts rfl]⟩
  | _ => cases hfailure

end Listed

theorem IsPostFile.unique {content' : Bytes} {changed' : Instant}
    (hfile : IsPostFile settings tree directory name content changed)
    (hfile' : IsPostFile settings tree directory name content' changed') :
    content' = content ∧ changed' = changed := by
  obtain ⟨rfl, rfl⟩ := Entry.file.inj (Option.some.inj (hfile'.held.symm.trans hfile.held))
  exact ⟨rfl, rfl⟩

section PostFile

variable (hcharset : Charset.named? compiler.settings.encoding = some charset)
  (hdirectory : tree.IsListed directory)
  (hfile : IsPostFile settings tree directory name content changed)
  (hgoes : ∀ fault, reading settings compiler tree (directory.entry name) ≠ .error fault)

include hcharset hdirectory hfile hgoes

/-- A file that can be read has a post, unless the work is stopped. -/
theorem exists_post? {text : Text} (hdecode : charset.decode content = .ok text) :
    ∃ post, post? settings compiler tree (directory.entry name) = some post ∧
      post.IsPostOf tree.zone name text changed := by
  have hreads : Reads settings charset tree directory name _ :=
    reads_reading hcharset hdirectory hfile.listed
  rw [post?]
  generalize reading settings compiler tree (directory.entry name) = result at hreads hgoes ⊢
  cases hreads with
  | denied | undated => exact absurd rfl (hgoes _)
  | passed hnone => exact absurd hfile (hnone content changed)
  | failed hfile' hdecode' error =>
      obtain ⟨rfl, rfl⟩ := hfile.unique hfile'
      cases hdecode.symm.trans hdecode'
  | @read _ _ _ post hfile' hdecode' hown =>
      obtain ⟨rfl, rfl⟩ := hfile.unique hfile'
      obtain rfl := Except.ok.inj (hdecode.symm.trans hdecode')
      exact ⟨post, rfl, hown⟩

/-- A file that cannot be read has a failure under its stem, unless the work is stopped. -/
theorem exists_unreadable? {problem : Charset.Undecodable}
    (hdecode : charset.decode content = .error problem) :
    ∃ failure, unreadable? settings compiler tree (directory.entry name) = some failure ∧
      failure.1 = (Path.splitSuffix name).1 := by
  have hreads : Reads settings charset tree directory name _ :=
    reads_reading hcharset hdirectory hfile.listed
  rw [unreadable?_eq]
  generalize reading settings compiler tree (directory.entry name) = result at hreads hgoes ⊢
  cases hreads with
  | denied | undated => exact absurd rfl (hgoes _)
  | passed hnone => exact absurd hfile (hnone content changed)
  | failed hfile' hdecode' error =>
      exact ⟨_, rfl, by rw [Path.stem, Path.name_of_parts rfl]⟩
  | read hfile' hdecode' hown =>
      obtain ⟨rfl, rfl⟩ := hfile.unique hfile'
      cases hdecode.symm.trans hdecode'

end PostFile

/-! ### The order of posts -/

/-- A post stands before another one if it is from a later time, if they are from one time and its
slug is less, or if they have one slug as well and its file is less. -/
def Precedes (time time' : Int) (post other : Post) : Prop :=
  time' < time ∨ time' = time ∧
    (post.slug < other.slug ∨ post.slug = other.slug ∧ post.file < other.file)

theorem pairwise_arrange {posts : List Post}
    (hposts : posts.Pairwise fun post other => post.file < other.file) :
    (arrange posts).Pairwise fun post other => Precedes post.date other.date post other := by
  have hslugs : (posts.mergeSort fun post other => Text.le post.slug other.slug).Pairwise
      fun post other => Text.le post.slug other.slug ∧
        (Text.le other.slug post.slug → post.file < other.file) :=
    pairwise_mergeSort_of_pairwise (fun _ _ _ => Text.le_trans _ _ _)
      (fun _ _ => Text.le_total _ _) hposts
  have hdates := pairwise_mergeSort_of_pairwise
    (show ∀ first second third : Post, decide (second.date ≤ first.date) →
      decide (third.date ≤ second.date) → decide (third.date ≤ first.date) by
        simp only [decide_eq_true_eq]
        omega)
    (by simp only [Bool.or_eq_true, decide_eq_true_eq]; omega) hslugs
  refine hdates.imp fun {post other} hordered => ?_
  simp only [decide_eq_true_eq, Text.le_iff] at hordered
  obtain ⟨hdate, hequal⟩ := hordered
  rcases hdate.lt_or_eq with hlt | heq
  · exact Or.inl hlt
  · obtain ⟨hslug, hfile⟩ := hequal heq.ge
    refine Or.inr ⟨heq, ?_⟩
    rcases hslug.lt_or_eq with hlt | hsame
    · exact Or.inl hlt
    · exact Or.inr ⟨hsame, hfile hsame.ge⟩

section Times

variable {post other : Post} {name' text text' : Text} {changed' : Instant}
  (hown : post.IsPostOf tree.zone name text changed)
  (hother : other.IsPostOf tree.zone name' text' changed')
  (hordered : Precedes post.date other.date post other)

include hown hother hordered

/-- A post stands before a newer one only if both have one date, or the clock was set back. -/
theorem date_eq_of_isPostOf (horder : Site.InOrder tree.zone changed changed')
    (hlt : changed.nanoseconds < changed'.nanoseconds) : post.date = other.date := by
  have hle := Site.date_le_date hown.date hother.date horder hlt
  rcases hordered with hnewer | ⟨hsame, -⟩
  · exact absurd hnewer hle.not_gt
  · exact hsame.symm

/-- Posts in the order of their dates are in that of their times where dates tell these apart. -/
theorem precedes_of_isPostOf
    (htells : changed = changed' ∨ Site.TellsApart tree.zone changed changed') :
    Precedes changed.nanoseconds changed'.nanoseconds post other := by
  rcases htells with rfl | htells
  · have hsame := Except.ok.inj (hown.date.symm.trans hother.date)
    rcases hordered with hlt | ⟨-, hslugs⟩
    · exact absurd hsame hlt.ne'
    · exact Or.inr ⟨rfl, hslugs⟩
  · have hless := Site.date_lt_date_iff hown.date hother.date htells
    have hmore := Site.date_lt_date_iff hother.date hown.date htells.symm
    rcases hordered with hlt | ⟨hsame, hslugs⟩
    · exact Or.inl (hmore.1 hlt)
    · refine Or.inr ⟨?_, hslugs⟩
      omega

end Times

/-! ### Collections -/

/-- A collection from a directory: one post for every file that counts as one and can be read, in
the order of dates, and a failure under the stem of every other file. Unless the clock was set back,
a post stands before a newer one only if both have one date, and where dates tell two times apart,
their order is that of the times. -/
structure IsCollection (settings : Settings) (charset : Charset) (tree : FileTree)
    (directory : Path) (posts : List Post) (failures : List (Text × Text)) : Prop where
  complete : ∀ {name content changed text},
    IsPostFile settings tree directory name content changed → charset.decode content = .ok text →
      ∃ post ∈ posts, post.IsPostOf tree.zone name text changed
  sound : ∀ post ∈ posts, ∃ name content changed text,
    IsPostFile settings tree directory name content changed ∧ charset.decode content = .ok text ∧
      post.IsPostOf tree.zone name text changed
  files : (posts.map Post.file).Nodup
  ordered : posts.Pairwise fun post other => Precedes post.date other.date post other
  newest : posts.Pairwise fun post other => ∀ {content content' changed changed'},
    IsPostFile settings tree directory post.file content changed →
      IsPostFile settings tree directory other.file content' changed' →
        (Site.InOrder tree.zone changed changed' → changed.nanoseconds < changed'.nanoseconds →
          post.date = other.date) ∧
        (changed = changed' ∨ Site.TellsApart tree.zone changed changed' →
          Precedes changed.nanoseconds changed'.nanoseconds post other)
  failures : ∀ slug, slug ∈ failures.map Prod.fst ↔ ∃ name content changed problem,
    IsPostFile settings tree directory name content changed ∧
      charset.decode content = .error problem ∧ (Path.splitSuffix name).1 = slug

/-- What stops a collection: the path of the directory or of an entry is too long, or a post that
can be read is from a time that is no date, which is one far from 1970. -/
inductive Stops (settings : Settings) (charset : Charset) (tree : FileTree) (directory : Path) :
    Fault → Prop
  | tooLong {path : Path} (hpath : path = directory ∨
        ∃ name ∈ tree.listing directory, path = directory.entry name) (hlong : IsTooLong path) :
      Stops settings charset tree directory (.denied ⟨.nameTooLong, path⟩)
  | undated {name : Text} {content : Bytes} {changed : Instant} {text : Text}
      {problem : Site.DateProblem}
      (hfile : IsPostFile settings tree directory name content changed)
      (hdecode : charset.decode content = .ok text)
      (hdate : Site.date tree.zone changed = .error problem) (hfar : ¬ Site.IsNear changed) :
      Stops settings charset tree directory (.date problem)

theorem mem_directoryPaths {path : Path} : path ∈ directoryPaths tree directory ↔
    ∃ name ∈ tree.listing directory, directory.entry name = path := by
  rw [directoryPaths_eq_map, List.mem_map]
  simp only [List.mem_mergeSort]

section

variable (hcharset : Charset.named? compiler.settings.encoding = some charset)
  (hdirectory : tree.IsListed directory)

include hcharset hdirectory

/-- The posts are read in the order of their files. -/
theorem pairwise_filterMap_post? :
    ((directoryPaths tree directory).filterMap (post? settings compiler tree)).Pairwise
      fun post other => post.file < other.file := by
  have hfile {name : Text} (hname : name ∈ (tree.listing directory).mergeSort Text.le) {post : Post}
      (hpost : post? settings compiler tree (directory.entry name) = some post) :
      post.file = name := by
    obtain ⟨_, _, _, -, -, hown⟩ :=
      isPostOf_of_post? hcharset hdirectory (List.mem_mergeSort.1 hname) hpost
    exact hown.file
  have hsorted : ((tree.listing directory).mergeSort Text.le).Pairwise fun name other =>
      Text.le name other :=
    List.pairwise_mergeSort Text.le_trans Text.le_total _
  have hdistinct : ((tree.listing directory).mergeSort Text.le).Pairwise (· ≠ ·) :=
    (List.mergeSort_perm _ _).nodup_iff.2 hdirectory.distinct
  rw [directoryPaths_eq_map, List.pairwise_filterMap, List.pairwise_map]
  refine (hsorted.and hdistinct).imp_of_mem ?_
  intro name other hname hother hless post hpost next hnext
  rw [hfile hname hpost, hfile hother hnext]
  exact lt_of_le_of_ne (Text.le_iff.1 hless.1) hless.2

/-- A post that has been read is that of a file which counts as one. -/
theorem exists_of_mem_arrange {post : Post} (hpost : post ∈
      arrange ((directoryPaths tree directory).filterMap (post? settings compiler tree))) :
    ∃ name content changed text, IsPostFile settings tree directory name content changed ∧
      charset.decode content = .ok text ∧ post.IsPostOf tree.zone name text changed := by
  rw [arrange, List.mem_mergeSort, List.mem_mergeSort] at hpost
  obtain ⟨path, hpath, hpost⟩ := List.mem_filterMap.1 hpost
  obtain ⟨name, hname, rfl⟩ := mem_directoryPaths.1 hpath
  exact ⟨name, isPostOf_of_post? hcharset hdirectory hname hpost⟩

/-- Files that have been read without a fault are a collection. -/
theorem isCollection_of_readings (hgoes : ∀ path ∈ directoryPaths tree directory, ∀ fault,
      reading settings compiler tree path ≠ .error fault) :
    IsCollection settings charset tree directory
      (arrange ((directoryPaths tree directory).filterMap (post? settings compiler tree)))
      (Table.putAll [] (unreadable settings compiler tree directory)) where
  complete {name content changed text} hfile hdecode := by
    have hpath := mem_directoryPaths.2 ⟨name, hfile.listed, rfl⟩
    obtain ⟨post, hpost, hown⟩ := exists_post? hcharset hdirectory hfile (hgoes _ hpath) hdecode
    rw [arrange]
    simp only [List.mem_mergeSort]
    exact ⟨post, List.mem_filterMap.2 ⟨_, hpath, hpost⟩, hown⟩
  sound post hpost := exists_of_mem_arrange hcharset hdirectory hpost
  files := by
    have hread : ((directoryPaths tree directory).filterMap
        (post? settings compiler tree)).Pairwise fun post other => post.file < other.file :=
      pairwise_filterMap_post? hcharset hdirectory
    have hperm : (arrange ((directoryPaths tree directory).filterMap
        (post? settings compiler tree))).Perm _ :=
      (List.mergeSort_perm _ _).trans (List.mergeSort_perm _ _)
    rw [(hperm.map Post.file).nodup_iff]
    exact List.pairwise_map.2 (hread.imp fun hless => ne_of_lt hless)
  ordered := pairwise_arrange (pairwise_filterMap_post? hcharset hdirectory)
  newest := by
    refine (pairwise_arrange (pairwise_filterMap_post? hcharset hdirectory)).imp_of_mem ?_
    intro post other hpost hother hordered content content' changed changed' hfile hfile'
    obtain ⟨name, _, _, text, hread, -, hown⟩ :=
      exists_of_mem_arrange hcharset hdirectory hpost
    obtain ⟨name', _, _, text', hread', -, hown'⟩ :=
      exists_of_mem_arrange hcharset hdirectory hother
    rw [hown.file] at hfile
    rw [hown'.file] at hfile'
    obtain ⟨rfl, rfl⟩ := hfile.unique hread
    obtain ⟨rfl, rfl⟩ := hfile'.unique hread'
    exact ⟨date_eq_of_isPostOf hown hown' hordered, precedes_of_isPostOf hown hown' hordered⟩
  failures slug := by
    rw [Table.mem_keys_putAll, List.map_nil, List.mem_map]
    constructor
    · rintro (hnone | ⟨failure, hfailure, rfl⟩)
      · cases hnone
      · obtain ⟨path, hpath, hfailure⟩ := List.mem_filterMap.1 hfailure
        obtain ⟨name, hname, rfl⟩ := mem_directoryPaths.1 hpath
        obtain ⟨content, changed, problem, hfile, hdecode, hstem⟩ :=
          isPostFile_of_unreadable? hcharset hdirectory hname hfailure
        exact ⟨name, content, changed, problem, hfile, hdecode, hstem.symm⟩
    · rintro ⟨name, content, changed, problem, hfile, hdecode, rfl⟩
      have hpath := mem_directoryPaths.2 ⟨name, hfile.listed, rfl⟩
      obtain ⟨failure, hfailure, hstem⟩ :=
        exists_unreadable? hcharset hdirectory hfile (hgoes _ hpath) hdecode
      exact Or.inr ⟨failure, List.mem_filterMap.2 ⟨_, hpath, hfailure⟩, hstem⟩

/-- A fault in reading stops the collection. -/
theorem stops_of_reading {path : Path} (hpath : path ∈ directoryPaths tree directory)
    {fault : Fault} (hfault : reading settings compiler tree path = .error fault) :
    Stops settings charset tree directory fault := by
  obtain ⟨name, hname, rfl⟩ := mem_directoryPaths.1 hpath
  have hreads : Reads settings charset tree directory name _ :=
    reads_reading hcharset hdirectory hname
  rw [hfault] at hreads
  cases hreads with
  | denied hlong => exact .tooLong (Or.inr ⟨name, hname, rfl⟩) hlong
  | undated hfile hdecode hdate =>
      refine .undated hfile hdecode hdate fun hnear => ?_
      rw [Site.date_of_isNear tree.zone hnear] at hdate
      cases hdate

end

/-- In a directory that lists its entries, whatever their order, all posts are collected in one
order and with one table of failures, unless a path is too long or a post is from a time that is no
date. -/
theorem collect_is_canonical (settings : Settings) {compiler : Compiler} {charset : Charset}
    (hcharset : Charset.named? compiler.settings.encoding = some charset) {workspace : Workspace}
    {directory : Path} (hdirectory : workspace.tree.IsListed directory) :
    (match (collect settings compiler directory).run workspace with
      | .ok (posts, failures) _ =>
        IsCollection settings charset workspace.tree directory posts failures
      | .error fault _ => Stops settings charset workspace.tree directory fault) ∧
    ∀ tree, workspace.tree.Same tree →
      Parallel (Workspace.Alike Same id) Eq ((collect settings compiler directory).run workspace)
        ((collect settings compiler directory).run { workspace with tree }) := by
  refine ⟨?_, fun tree hsame => ?_⟩
  · rw [collect, EStateM.run_bind, EStateM.run_get]
    dsimp only
    cases hkind : workspace.tree.isDirectory directory with
    | error denial =>
        obtain ⟨hlong, rfl⟩ := isTooLong_of_isDirectory hkind
        exact .tooLong (Or.inl rfl) hlong
    | ok isDirectory =>
        cases isDirectory with
        | false =>
            have hempty := @isCollection_of_readings settings _ _ _ _ hcharset hdirectory
            rw [unreadable, directoryPaths_of_isDirectory hkind, List.filterMap_nil,
              List.filterMap_nil, arrange, List.mergeSort_nil, List.mergeSort_nil] at hempty
            exact hempty (List.forall_mem_nil _)
        | true =>
            dsimp only
            rw [EStateM.run_bind]
            rcases cases_of_run_readAll settings compiler
                (directoryPaths workspace.tree directory) [] workspace with
              ⟨path, hpath, fault, ended, hfault, hrun⟩ | ⟨hgoes, failed, ended, hrun⟩
            · rw [hrun]
              exact stops_of_reading hcharset hdirectory hpath hfault
            · rw [hrun, failures_of_readAll hrun]
              exact isCollection_of_readings hcharset hdirectory hgoes
  · exact steady_collect isLikeness_same Journal.isUnnoticed_id directory workspace
      { workspace with tree } ⟨hsame, rfl⟩

/-- Posts of two dates, of which two differ in the letter case of the extension, beside a draft and
a post that cannot be read. -/
theorem collect_is_canonical_letter_case :
    let entries : List (Location × Entry) :=
      [(["posts".toList], .directory),
       (["posts".toList, "b.kit".toList], .file [98] (.ofMicroseconds 1)),
       (["posts".toList, "a.kit".toList], .file [97] (.ofMicroseconds 1)),
       (["posts".toList, "_d.kit".toList], .file [100] (.ofMicroseconds 3)),
       (["posts".toList, "b.KIT".toList], .file [66] (.ofMicroseconds 1)),
       (["posts".toList, "c.kit".toList], .file [99] (.ofMicroseconds 2)),
       (["posts".toList, "e.kit".toList], .file [255] (.ofMicroseconds 1))]
    let workspace : Workspace := { tree := .ofEntries entries ⟨.root, []⟩ }
    let compiler : Compiler := { postsDirectory := ⟨.root, ["posts".toList]⟩ }
    Charset.named? compiler.settings.encoding = some .utf8 ∧
      workspace.tree.IsListed compiler.postsDirectory ∧
      ∃ posts failures ended,
        (collect {} compiler compiler.postsDirectory).run workspace = .ok (posts, failures) ended ∧
        IsCollection {} .utf8 workspace.tree compiler.postsDirectory posts failures ∧
        posts.map Post.file = ["c.kit", "a.kit", "b.KIT", "b.kit"].map (·.toList) ∧
        failures.map Prod.fst = ["e".toList] := by
  intro entries workspace compiler
  have hcharset : Charset.named? compiler.settings.encoding = some .utf8 := by decide +kernel
  have hdirectory : workspace.tree.IsListed compiler.postsDirectory :=
    ⟨by decide +kernel, by decide +kernel⟩
  have hisDirectory : workspace.tree.isDirectory compiler.postsDirectory = .ok true := by
    decide +kernel
  have hlisting : workspace.tree.listing compiler.postsDirectory =
      ["b.kit", "a.kit", "_d.kit", "b.KIT", "c.kit", "e.kit"].map (·.toList) := by
    decide +kernel
  have hpaths : directoryPaths workspace.tree compiler.postsDirectory =
      ["_d.kit", "a.kit", "b.KIT", "b.kit", "c.kit", "e.kit"].map
        fun name => compiler.postsDirectory.entry name.toList := by
    rw [directoryPaths_eq_map, hlisting]
    cbv
  let read : List Post :=
    [⟨"a".toList, "a".toList, "a.kit".toList, 1⟩, ⟨"b".toList, "b".toList, "b.KIT".toList, 1⟩,
      ⟨"b".toList, "b".toList, "b.kit".toList, 1⟩, ⟨"c".toList, "c".toList, "c.kit".toList, 2⟩]
  have hread : (value? ((readAll {} compiler (["_d.kit", "a.kit", "b.KIT", "b.kit", "c.kit",
      "e.kit"].map fun name => compiler.postsDirectory.entry name.toList) []).run workspace)).map
        (fun result => (result.1, result.2.map Prod.fst)) = some (read, ["e".toList]) := by
    decide +kernel
  obtain ⟨⟨posts, failures⟩, hvalue, hresult⟩ := Option.map_eq_some_iff.1 hread
  obtain ⟨rfl, hfailures⟩ := Prod.mk.inj hresult
  obtain ⟨ended, hrun⟩ := exists_of_value? hvalue
  have hcollect := collect_of_readAll hisDirectory hpaths hrun
  have hcollection := (collect_is_canonical {} hcharset hdirectory).1
  rw [hcollect] at hcollection
  exact ⟨hcharset, hdirectory, _, failures, ended, hcollect, hcollection, by cbv, hfailures⟩

/-- A post that can be read, from the first second of the year 10000: it is not collected, and the
build that has emptied the output directory ends without a report. -/
theorem collect_stops_at_undated_post :
    let bytes (text : String) : Bytes := text.toList.flatMap String.utf8EncodeChar
    let time : Instant := .ofMicroseconds 253402300800000000
    let entries : List (Location × Entry) :=
      [(["posts".toList], .directory), (["templates".toList], .directory),
       (["posts".toList, "a.kit".toList], .file (bytes "<h1>A</h1>") time),
       (["templates".toList, "post.kit".toList], .file (bytes "P") ⟨0⟩),
       (["templates".toList, "index.kit".toList], .file (bytes "I") ⟨0⟩)]
    let workspace : Workspace := { tree := .ofEntries entries ⟨.root, []⟩ }
    let site := Site.configure {} ⟨.root, []⟩ ⟨.root, []⟩ none none
    workspace.tree.IsListed site.posts ∧
      IsPostFile site.settings workspace.tree site.posts "a.kit".toList (bytes "<h1>A</h1>")
        time ∧
      Charset.named? site.compiler.settings.encoding = some .utf8 ∧
      (∃ text, Charset.decode .utf8 (bytes "<h1>A</h1>") = .ok text) ∧
      (∃ ended, (collect site.settings site.compiler site.posts).run workspace =
        .error (.date (.outsideYears 10000)) ended) ∧
      ∃ ended, site.build.run workspace = .error (.date (.outsideYears 10000)) ended := by
  intro bytes time entries workspace site
  have hfile : IsPostFile site.settings workspace.tree site.posts "a.kit".toList
      (bytes "<h1>A</h1>") time :=
    ⟨by decide +kernel, by decide +kernel, by decide +kernel, by decide +kernel⟩
  have hdecode : Charset.decode .utf8 (bytes "<h1>A</h1>") = .ok "<h1>A</h1>".toList := by
    decide +kernel
  have hcollect : Compiler.fault? ((collect site.settings site.compiler site.posts).run
      workspace) = some (.date (.outsideYears 10000)) := by decide +kernel
  have hbuild : Compiler.fault? (site.build.run workspace) =
      some (.date (.outsideYears 10000)) := by decide +kernel
  exact ⟨⟨by decide +kernel, by decide +kernel⟩, hfile, by decide +kernel, ⟨_, hdecode⟩,
    Compiler.exists_of_fault? hcollect, Compiler.exists_of_fault? hbuild⟩

end Post

end KitTemplate
