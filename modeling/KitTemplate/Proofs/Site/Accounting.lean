import Mathlib.Data.List.Nodup
import Mathlib.Tactic.SplitIfs
import KitTemplate.Proofs.Compilation.Persistence
import KitTemplate.Proofs.Site.Report

/-! Accounts of builds. Every page of a build has a name to be reported under and a place to be
written to, and so has every post that cannot be read a name. Where no two of these are the same, no
failure takes the place of another one in the report and no page is written over another one: each
page is found in its place at the end, and each failure in the report. The names are the same for
posts whose files differ in the letter case of their extension, and the place is that of the list of
posts for a post whose stem is a dot. -/

namespace KitTemplate

open FileTree Work

namespace Site.Compiles

variable {compiler : Compiler} {outcomes : List Outcome} {before after : Workspace}

/-- Pages that are written elsewhere leave a file as it is. -/
theorem holds_of_holds (hcompiles : Compiles compiler outcomes before after)
    (hplaces : ∀ outcome ∈ outcomes, outcome.1.output.LeadsTo outcome.1.output.place) {path : Path}
    {location : Location} {content : Bytes} (hholds : before.tree.Holds path location content)
    (hothers : ∀ outcome ∈ outcomes, outcome.1.output.place ≠ location) :
    after.tree.Holds path location content := by
  induction hcompiles with
  | nil => exact hholds
  | @cons page compilation rest journal before reached after hcompile hrest ih =>
      obtain ⟨hpage, hrestPlaces⟩ := List.forall_mem_cons.1 hplaces
      obtain ⟨hother, hrestOthers⟩ := List.forall_mem_cons.1 hothers
      have hmoves := Compiler.moves_compileSource (isEffect_changesFile page.output.place) compiler
        page.source page.file (Compiler.changesFile_writeText hpage)
      have hreached : reached.tree.Holds path location content :=
        hholds.of_changesFile (hmoves.of_ok hcompile) hother
      exact ih hrestPlaces hreached hrestOthers

/-- Each page that was compiled stands in its place at the end, if no two pages have one place. -/
theorem holds (hcompiles : Compiles compiler outcomes before after)
    (hplaces : ∀ outcome ∈ outcomes, outcome.1.output.LeadsTo outcome.1.output.place)
    (hnodup : (outcomes.map fun outcome => outcome.1.output.place).Nodup) :
    ∀ outcome ∈ outcomes, ∀ text written, outcome.2 = .compiled text written →
      ∃ charset bytes, Charset.named? compiler.settings.encoding = some charset ∧
        charset.encode text = .ok bytes ∧
        after.tree.Holds outcome.1.output outcome.1.output.place bytes := by
  induction hcompiles with
  | nil => nofun
  | @cons page compilation rest journal before reached after hcompile hrest ih =>
      obtain ⟨hpage, hrestPlaces⟩ := List.forall_mem_cons.1 hplaces
      rw [List.map_cons, List.nodup_cons] at hnodup
      intro outcome houtcome text written hcompiled
      rcases List.mem_cons.1 houtcome with rfl | hmem
      · dsimp only at hcompiled
        rw [hcompiled] at hcompile
        obtain ⟨charset, bytes, hcharset, hencode, hholds⟩ :=
          Compiler.holds_of_compileSource hcompile hpage
        refine ⟨charset, bytes, hcharset, hencode, ?_⟩
        refine hrest.holds_of_holds hrestPlaces hholds fun other hother heq => hnodup.1 ?_
        exact List.mem_map.2 ⟨other, hother, heq⟩
      · exact ih hrestPlaces hnodup.2 outcome hmem text written hcompiled

end Site.Compiles

/-! ### Places of pages -/

namespace Site

/-- The place of a page that goes into the directory named by a slug. -/
def placeIn (output : Path) (slug : Text) : Location :=
  if slug = ['.'] then output.parts ++ [indexName]
  else if slug = ['.', '.'] then placeBeside output
  else output.parts ++ [slug, indexName]

variable {output : Path} {slug other : Text} {page : Page}

/-- A page is found where its slug says, and nowhere else. -/
theorem leadsTo_placeIn (houtput : output.IsAbsolute)
    (hslug : Path.IsPlain slug ∨ slug = ['.'] ∨ slug = ['.', '.']) :
    ((output.child slug).child indexName).LeadsTo (placeIn output slug) ∧
      ((output.child slug).child indexName).place = placeIn output slug := by
  have hspelled {path : Path} (hpath : path.IsAbsolute) (hplace : path.parts = placeIn output slug) :
      path.LeadsTo (placeIn output slug) ∧ path.place = placeIn output slug := by
    rw [← hplace]
    exact ⟨fun tree found hnew => locateNew_of_isAbsolute hpath hnew,
      Path.place_of_not_mem hpath.not_mem_dots⟩
  rcases hslug with hplain | rfl | rfl
  · refine hspelled ((houtput.child hplain).child isPlain_indexName) ?_
    rw [placeIn, if_neg hplain.2.1, if_neg hplain.2.2.1, Path.child_of_plain isPlain_indexName,
      Path.child_of_plain hplain]
    simp
  · rw [Path.child_dot]
    refine hspelled (houtput.child isPlain_indexName) ?_
    rw [placeIn, if_pos rfl, Path.child_of_plain isPlain_indexName]
  · have hplace : placeIn output ['.', '.'] = output.parts.dropLast ++ [indexName] := by
      rw [placeIn, if_neg (by decide), if_pos rfl, placeBeside]
    rw [hplace, Path.child_of_not_mem (by decide) (by decide) (by decide) output,
      Path.child_of_plain isPlain_indexName]
    refine ⟨fun tree found hnew => locateNew_behind_dots houtput isPlain_indexName hnew, ?_⟩
    calc Path.collapse [] (output.parts ++ [['.', '.']] ++ [indexName])
        = Path.collapse (output.parts.reverse ++ []) [['.', '.'], indexName] := by
          rw [List.append_assoc, Path.collapse_append houtput.not_mem_dots]
          rfl
      _ = (indexName :: output.parts.reverse.tail).reverse := by
          rw [List.append_nil, Path.collapse, if_pos rfl, Path.collapse, if_neg (by decide),
            Path.collapse]
      _ = output.parts.dropLast ++ [indexName] := by
          rw [List.reverse_cons, List.tail_reverse, List.reverse_reverse]

/-- Different slugs give pages different places, unless the output directory is the root. -/
theorem placeIn_injective (houtput : output.parts ≠ [])
    (heq : placeIn output slug = placeIn output other) : slug = other := by
  have hpos : 0 < output.parts.length := List.length_pos_iff.2 houtput
  -- the three kinds of places differ in length
  have hlength := congrArg List.length heq
  unfold placeIn placeBeside at heq hlength
  split_ifs at heq hlength
  all_goals
    simp only [List.length_append, List.length_dropLast, List.length_cons, List.length_nil]
      at hlength
  · rename_i hslug hother
    rw [hslug, hother]
  · omega
  · omega
  · omega
  · rename_i hslug _ hother
    rw [hslug, hother]
  · omega
  · omega
  · omega
  · exact (List.cons.inj (List.append_cancel_left heq)).1

variable {site : Site} {workspace prepared ended : Workspace} {posts : List Post}

/-- Nothing is left to be collected if the root is emptied. -/
theorem parts_ne_nil_of_collect (houtput : site.output.IsAbsolute)
    {failures : List (Text × Text)} (hprepare : site.prepare.run workspace = .ok ⟨⟩ prepared)
    (hcollect : (Post.collect site.settings site.compiler site.posts).run prepared =
      .ok (posts, failures) ended) (hposts : posts ≠ []) : site.output.parts ≠ [] := by
  intro hroot
  obtain ⟨post, hpost⟩ := List.exists_mem_of_ne_nil posts hposts
  obtain ⟨path, hpath, -⟩ := Post.exists_of_mem_collect hcollect hpost
  rw [Post.directoryPaths] at hpath
  split at hpath
  · cases hpath
  · rename_i location hlocate
    obtain ⟨name, hname, -⟩ := List.mem_map.1 hpath
    refine entry?_of_mem_names (List.mem_mergeSort.1 hname) ?_
    exact entry?_prepare houtput hprepare (hroot ▸ List.nil_prefix) (by simp [hroot])

/-! ### Accounts -/

theorem length_outcomes (outcomes : List Outcome) :
    (outcomes.filterMap Outcome.written?).length + (outcomes.filterMap Outcome.failure?).length =
      outcomes.length := by
  induction outcomes with
  | nil => rfl
  | cons outcome rest ih =>
      obtain ⟨page, text | error⟩ := outcome
      all_goals
        simp only [List.filterMap_cons, Outcome.written?, Outcome.failure?, List.length_cons]
        omega

theorem failures_sublist (outcomes : List Outcome) :
    List.Sublist ((outcomes.filterMap Outcome.failure?).map Prod.fst)
      ((outcomes.map Prod.fst).map Page.name) := by
  induction outcomes with
  | nil => exact .slnil
  | cons outcome rest ih =>
      obtain ⟨page, text | error⟩ := outcome
      · exact ih.cons _
      · exact ih.cons_cons _

/-- The pages that were written are found in their places. -/
theorem locations_sublist {tree : FileTree} {outcomes : List Outcome}
    (hfound : ∀ outcome ∈ outcomes, ∀ text written, outcome.2 = .compiled text written →
      tree.locate outcome.1.output = .ok outcome.1.output.place) :
    List.Sublist ((outcomes.filterMap Outcome.written?).map tree.locate)
      (outcomes.map fun outcome => .ok outcome.1.output.place) := by
  induction outcomes with
  | nil => exact .slnil
  | cons outcome rest ih =>
      obtain ⟨houtcome, hrest⟩ := List.forall_mem_cons.1 hfound
      obtain ⟨page, ⟨text, written⟩ | error⟩ := outcome
      · have hpage := houtcome text written rfl
        show List.Sublist
          (tree.locate page.output :: (rest.filterMap Outcome.written?).map tree.locate) _
        rw [hpage]
        exact (ih hrest).cons_cons _
      · exact (ih hrest).cons _

/-- Pages in different places are different files. -/
theorem nodup_locations {tree : FileTree} {outcomes : List Outcome}
    (hfound : ∀ outcome ∈ outcomes, ∀ text written, outcome.2 = .compiled text written →
      tree.locate outcome.1.output = .ok outcome.1.output.place)
    (hnodup : (outcomes.map fun outcome => outcome.1.output.place).Nodup) :
    ((outcomes.filterMap Outcome.written?).map tree.locate).Nodup := by
  have hplaces : (outcomes.map fun outcome =>
      (Except.ok outcome.1.output.place : Except Refusal Location)).Nodup := by
    have hmap := hnodup.map (fun _ _ => Except.ok.inj : Function.Injective
      (Except.ok : Location → Except Refusal Location))
    rwa [List.map_map] at hmap
  exact hplaces.sublist (locations_sublist hfound)

/-- Failures under different names all stay in the table. -/
theorem putAll_failures {unreadable : List (Text × Text)} {outcomes : List Outcome}
    (hnames : (unreadable.map Prod.fst ++ (outcomes.map Prod.fst).map Page.name).Nodup) :
    let failures := unreadable ++ outcomes.filterMap Outcome.failure?
    (failures.map Prod.fst).Nodup ∧ Table.putAll (Table.putAll [] unreadable)
      (outcomes.filterMap Outcome.failure?) = failures := by
  intro failures
  have hkeys : (failures.map Prod.fst).Nodup := by
    rw [List.map_append]
    exact hnames.sublist ((List.Sublist.refl _).append (failures_sublist outcomes))
  have hfirst : Table.putAll [] unreadable = unreadable := by
    rw [Table.putAll_of_nodup (hnames.sublist (List.sublist_append_left _ _)), List.nil_append]
  exact ⟨hkeys, by rw [hfirst, Table.putAll_of_nodup hkeys]⟩

/-- No two of the names that a build reports or makes files of are the same: those of the posts, of
the posts that cannot be read, and of the page that lists the posts, which stands where a dot
leads. -/
structure Distinguishes (posts : List Post) (unreadable : List (Text × Text)) : Prop where
  slugs : (posts.map Post.slug).Nodup
  undotted : ['.'] ∉ posts.map Post.slug
  stems : (unreadable.map Prod.fst).Nodup
  unlisted : indexName ∉ unreadable.map Prod.fst

/-- A report accounts for the pages of a build and for the posts that cannot be read. -/
structure Accounts (site : Site) (unreadable : List (Text × Text)) (outcomes : List Outcome)
    (report : Report) (tree : FileTree) : Prop where
  pages : outcomes.map Prod.fst =
    report.posts.map site.postPage ++ [site.indexPage report.posts]
  written : report.pages = outcomes.filterMap Outcome.written?
  failed : report.failures = unreadable ++ outcomes.filterMap Outcome.failure?
  names : (report.failures.map Prod.fst).Nodup
  files : (report.pages.map tree.locate).Nodup
  total : report.pages.length + report.failures.length =
    report.posts.length + unreadable.length + 1
  content : ∀ outcome ∈ outcomes, ∀ text written, outcome.2 = .compiled text written →
    ∃ charset bytes, Charset.named? site.compiler.settings.encoding = some charset ∧
      charset.encode text = .ok bytes ∧ tree.read outcome.1.output = .ok bytes

theorem nodup_names (site : Site) {unreadable : List (Text × Text)}
    (hdistinct : Distinguishes posts unreadable)
    (hstems : ∀ stem ∈ unreadable.map Prod.fst, '/' ∉ stem) :
    (unreadable.map Prod.fst ++
      (posts.map site.postPage ++ [site.indexPage posts]).map Page.name).Nodup := by
  have hnames : (posts.map site.postPage ++ [site.indexPage posts]).map Page.name =
      (posts.map Post.slug).map (· ++ ['/']) ++ [indexName] := by
    rw [List.map_append, List.map_map, List.map_map]
    rfl
  rw [hnames, List.nodup_append, List.nodup_append]
  refine ⟨hdistinct.stems, ⟨?_, List.nodup_singleton _, ?_⟩, ?_⟩
  · exact hdistinct.slugs.map fun _ _ => List.append_cancel_right
  · rintro name hname _ hindex rfl
    obtain ⟨slug, -, hslug⟩ := List.mem_map.1 hname
    have hlast := congrArg List.getLast? (hslug.trans (List.mem_singleton.1 hindex))
    rw [List.getLast?_concat] at hlast
    revert hlast
    decide +kernel
  · rintro stem hstem _ hname rfl
    rcases List.mem_append.1 hname with hpost | hindex
    · obtain ⟨slug, -, rfl⟩ := List.mem_map.1 hpost
      exact hstems _ hstem (List.mem_append_right _ List.mem_cons_self)
    · rw [List.mem_singleton.1 hindex] at hstem
      exact hdistinct.unlisted hstem

/-- The pages of a build lie in different places. -/
theorem nodup_places {unreadable : List (Text × Text)} (houtput : site.output.IsAbsolute)
    (hroot : site.output.parts ≠ []) (hdistinct : Distinguishes posts unreadable)
    (hslugs : ∀ post ∈ posts, Path.IsPlain post.slug ∨ post.slug = ['.'] ∨
      post.slug = ['.', '.']) :
    let pages := posts.map site.postPage ++ [site.indexPage posts]
    (∀ page ∈ pages, page.output.LeadsTo page.output.place) ∧
      (pages.map (·.output.place)).Nodup := by
  intro pages
  have hpost : ∀ post ∈ posts, (site.postPage post).output.LeadsTo (placeIn site.output post.slug) ∧
      (site.postPage post).output.place = placeIn site.output post.slug := fun post hpost =>
    leadsTo_placeIn houtput (hslugs post hpost)
  have hindex : (site.indexPage posts).output.LeadsTo (placeIn site.output ['.']) ∧
      (site.indexPage posts).output.place = placeIn site.output ['.'] := by
    have hchild := @leadsTo_placeIn site.output ['.'] houtput (Or.inr (Or.inl rfl))
    rwa [Path.child_dot] at hchild
  have hplaces : pages.map (·.output.place) =
      (posts.map Post.slug ++ [['.']]).map (placeIn site.output) := by
    rw [List.map_append, List.map_append, List.map_map, List.map_map, List.map_singleton,
      List.map_singleton, hindex.2]
    exact congrArg (· ++ _) (List.map_congr_left fun post hmem => (hpost post hmem).2)
  refine ⟨fun page hpage => ?_, ?_⟩
  · rcases List.mem_append.1 hpage with hmem | hmem
    · obtain ⟨post, hcollected, rfl⟩ := List.mem_map.1 hmem
      rw [(hpost post hcollected).2]
      exact (hpost post hcollected).1
    · rw [List.mem_singleton.1 hmem, hindex.2]
      exact hindex.1
  · rw [hplaces]
    refine List.Nodup.map (fun _ _ => placeIn_injective hroot) ?_
    rw [List.nodup_append]
    refine ⟨hdistinct.slugs, List.nodup_singleton _, ?_⟩
    rintro slug hslug _ hdot rfl
    rw [List.mem_singleton.1 hdot] at hslug
    exact hdistinct.undotted hslug

/-- What a build that found posts has done. -/
theorem exists_of_build {report : Report} (hbuild : site.build.run workspace = .ok report ended)
    (hposts : report.posts ≠ []) : ∃ prepared begun built failures outcomes,
      site.prepare.run workspace = .ok ⟨⟩ prepared ∧
      (Post.collect site.settings site.compiler site.posts).run prepared =
        .ok (report.posts, failures) begun ∧
      Compiles site.compiler outcomes begun built ∧ built.tree = ended.tree ∧
      outcomes.map Prod.fst = report.posts.map site.postPage ++ [site.indexPage report.posts] ∧
      report.pages = outcomes.filterMap Outcome.written? ∧
      report.failures = Table.putAll failures (outcomes.filterMap Outcome.failure?) := by
  obtain ⟨prepared, begun, built, failures, outcomes, hprepare, hcollect, hcompiles, htree, hpages,
    hwritten, hfailures⟩ := trace_of_build hbuild
  rw [if_neg hposts] at hpages
  exact ⟨prepared, begun, built, failures, outcomes, hprepare, hcollect, hcompiles, htree, hpages,
    hwritten, hfailures⟩

/-- The stem of a post that cannot be read holds no slash. -/
theorem not_mem_stem_of_unreadable {tree : FileTree} (hnames : tree.IsWellNamed) :
    ∀ stem ∈ (Post.unreadable site.settings site.compiler tree site.posts).map Prod.fst,
      '/' ∉ stem := by
  intro stem hstem
  obtain ⟨failure, hfailure, rfl⟩ := List.mem_map.1 hstem
  obtain ⟨path, hpath, hunreadable⟩ := List.mem_filterMap.1 hfailure
  rw [Post.unreadable?] at hunreadable
  split at hunreadable
  · obtain rfl := Option.some.inj hunreadable
    exact fun hslash =>
      (Post.isPlain_name hnames hpath).2.2.2 (Path.stem_subset path.name hslash)
  · cases hunreadable

/-- Pages that have names and places of their own are accounted for once they have been compiled. -/
theorem Compiles.accounts {unreadable : List (Text × Text)} {outcomes : List Outcome}
    {report : Report} (hcompiles : Compiles site.compiler outcomes workspace ended)
    (hpages : outcomes.map Prod.fst =
      report.posts.map site.postPage ++ [site.indexPage report.posts])
    (hwritten : report.pages = outcomes.filterMap Outcome.written?)
    (hfailures : report.failures =
      Table.putAll (Table.putAll [] unreadable) (outcomes.filterMap Outcome.failure?))
    (hnames : (unreadable.map Prod.fst ++ (outcomes.map Prod.fst).map Page.name).Nodup)
    (hplaces : ∀ page ∈ outcomes.map Prod.fst, page.output.LeadsTo page.output.place)
    (hdifferent : ((outcomes.map Prod.fst).map (·.output.place)).Nodup) :
    site.Accounts unreadable outcomes report ended.tree := by
  rw [List.map_map] at hdifferent
  have hholds : ∀ outcome ∈ outcomes, ∀ text written, outcome.2 = .compiled text written →
      ∃ charset bytes, Charset.named? site.compiler.settings.encoding = some charset ∧
        charset.encode text = .ok bytes ∧
        ended.tree.Holds outcome.1.output outcome.1.output.place bytes :=
    hcompiles.holds (fun outcome houtcome => hplaces _ (List.mem_map_of_mem houtcome)) hdifferent
  have hfound : ∀ outcome ∈ outcomes, ∀ text written, outcome.2 = .compiled text written →
      ended.tree.locate outcome.1.output = .ok outcome.1.output.place := by
    intro outcome houtcome text written hcompiled
    obtain ⟨charset, bytes, -, -, hfound⟩ := hholds outcome houtcome text written hcompiled
    exact hfound.found
  obtain ⟨hkeys, hall⟩ := putAll_failures hnames
  have hfailed : report.failures = unreadable ++ outcomes.filterMap Outcome.failure? :=
    hfailures.trans hall
  exact
    { pages := hpages
      written := hwritten
      failed := hfailed
      names := by rwa [hfailed]
      files := by
        rw [hwritten]
        exact nodup_locations hfound hdifferent
      total := by
        have hlength := length_outcomes outcomes
        have hcount := congrArg List.length hpages
        rw [hwritten, hfailed]
        simp only [List.length_append, List.length_map, List.length_singleton] at hcount ⊢
        omega
      content := by
        intro outcome houtcome text written hcompiled
        obtain ⟨charset, bytes, hcharset, hencode, hstands⟩ :=
          hholds outcome houtcome text written hcompiled
        exact ⟨charset, bytes, hcharset, hencode, hstands.read⟩ }

/-- A build that found posts accounts for every one of them, for those that cannot be read and for
the page that lists the posts, if no two of their names are the same. -/
theorem build_accounts_for_posts (settings : Settings) (root : Path) (output : Option Path)
    (compiler : Option Compiler) {workspace ended : Workspace} {report : Report}
    (hnames : workspace.tree.IsWellNamed) :
    let site := configure settings workspace.tree.workingDirectory root output compiler
    let unreadable := Post.unreadable site.settings site.compiler
      (left (site.prepare.run workspace)).tree site.posts
    site.build.run workspace = .ok report ended → report.posts ≠ [] →
      Distinguishes report.posts unreadable →
      ∃ prepared begun built failures outcomes,
        site.prepare.run workspace = .ok ⟨⟩ prepared ∧
        (Post.collect site.settings site.compiler site.posts).run prepared =
          .ok (report.posts, failures) begun ∧
        Compiles site.compiler outcomes begun built ∧ built.tree = ended.tree ∧
        site.Accounts unreadable outcomes report ended.tree := by
  intro site unreadable hbuild hposts hdistinct
  have houtput : site.output.IsAbsolute := Path.isAbsolute_absolute workspace.tree.isAbsolute _
  obtain ⟨prepared, begun, built, failures, outcomes, hprepare, hcollect, hcompiles, htree, hpages,
    hwritten, hfailures⟩ := exists_of_build hbuild hposts
  have hprepared : (left (site.prepare.run workspace)).tree = prepared.tree := by
    rw [hprepare]
    rfl
  have hwellNamed : prepared.tree.IsWellNamed := by
    rw [← hprepared]
    exact isWellNamed_prepare houtput hnames
  have hunreadable : failures = Table.putAll [] unreadable := by
    rw [Post.failures_of_collect hcollect, ← hprepared]
  have hslugs : ∀ post ∈ report.posts, Path.IsPlain post.slug ∨ post.slug = ['.'] ∨
      post.slug = ['.', '.'] := by
    intro post hpost
    obtain ⟨path, hpath, -, hstem⟩ := Post.exists_of_mem_collect hcollect hpost
    rw [← hstem]
    exact Post.cases_of_stem hwellNamed hpath
  obtain ⟨hplaces, hdifferent⟩ := nodup_places houtput
    (parts_ne_nil_of_collect houtput hprepare hcollect hposts) hdistinct hslugs
  have hwellNamed' : (left (site.prepare.run workspace)).tree.IsWellNamed := by rwa [hprepared]
  have hkeys := nodup_names site hdistinct (not_mem_stem_of_unreadable hwellNamed')
  rw [← hpages] at hplaces hdifferent hkeys
  refine ⟨prepared, begun, built, failures, outcomes, hprepare, hcollect, hcompiles, htree, ?_⟩
  rw [← htree]
  exact hcompiles.accounts hpages hwritten (by rw [hfailures, hunreadable]) hkeys hplaces hdifferent

/-- The answer of a build, once its posts have been collected, is that of its pages. -/
theorem value?_build {failures : List (Text × Text)} {begun : Workspace}
    (hproblem : site.problem? workspace.tree = .ok none)
    (hprepare : site.prepare.run workspace = .ok ⟨⟩ prepared)
    (hcollect : (Post.collect site.settings site.compiler site.posts).run prepared =
      .ok (posts, failures) begun) (hposts : posts ≠ []) :
    value? (site.build.run workspace) = value? ((site.buildPages { posts, failures }
      (posts.map site.postPage ++ [site.indexPage posts])).run begun) := by
  rw [build, EStateM.run_bind, EStateM.run_get]
  dsimp only
  rw [hproblem]
  dsimp only
  rw [EStateM.run_bind, hprepare]
  dsimp only
  rw [EStateM.run_bind, hcollect]
  dsimp only
  rw [if_neg hposts, EStateM.run_bind]
  cases hpages : (site.buildPages { posts, failures }
      (posts.map site.postPage ++ [site.indexPage posts])).run begun with
  | error fault built => rfl
  | ok report built => rfl

/-- A site with a post and with one that cannot be read. -/
theorem build_accounts_for_posts_unreadable :
    let settings : Settings := { encoding := "ascii".toList }
    let workspace := Workspace.ofEntries [["posts".toList], ["templates".toList]]
      [(["posts".toList, "a.kit".toList], "<h1>A</h1>".toList),
       (["posts".toList, "b.kit".toList], ['é']),
       (["templates".toList, "post.kit".toList], "P".toList),
       (["templates".toList, "index.kit".toList], "I".toList)]
    let site := configure settings workspace.tree.workingDirectory ⟨.root, []⟩ none none
    let unreadable := Post.unreadable site.settings site.compiler
      (left (site.prepare.run workspace)).tree site.posts
    unreadable.map Prod.fst = ["b".toList] ∧
      ∃ report ended outcomes, site.build.run workspace = .ok report ended ∧
        report.posts.map Post.slug = ["a".toList] ∧
        site.Accounts unreadable outcomes report ended.tree := by
  intro settings workspace site unreadable
  have hnames : workspace.tree.IsWellNamed := isWellNamed_of_entries (by decide +kernel)
  have hproblem : site.problem? workspace.tree = .ok none := by decide +kernel
  have hprepared : value? (site.prepare.run workspace) = some ⟨⟩ := by decide +kernel
  have hlocate : (left (site.prepare.run workspace)).tree.locate site.posts =
      .ok ["posts".toList] := by decide +kernel
  have hdirectory : (left (site.prepare.run workspace)).tree.isDirectory site.posts = .ok true := by
    decide +kernel
  have hpaths : Post.directoryPaths (left (site.prepare.run workspace)).tree site.posts =
      [⟨.root, ["posts".toList, "a.kit".toList]⟩, ⟨.root, ["posts".toList, "b.kit".toList]⟩] :=
    (Post.directoryPaths_of_pairwise hlocate (by decide +kernel)).trans (by decide +kernel)
  have hstems : unreadable.map Prod.fst = ["b".toList] := by
    show (Post.unreadable _ _ _ _).map Prod.fst = _
    rw [Post.unreadable, hpaths]
    decide +kernel
  have hread : value? ((Post.readAll site.settings site.compiler
      [⟨.root, ["posts".toList, "a.kit".toList]⟩, ⟨.root, ["posts".toList, "b.kit".toList]⟩] []).run
        (left (site.prepare.run workspace))) =
      some ([⟨"a".toList, "A".toList, "a.kit".toList, 0⟩],
        [("b".toList, "b.kit: Failed to tokenize b.kit. ".toList ++
          "(Is the file ascii encoded? Ensure it is not malformed.)".toList)]) := by
    decide +kernel
  have hcollect := Post.collect_of_readAll hdirectory hpaths (eq_ok_of_value? hread)
  have hslugs : (value? (site.build.run workspace)).map (·.posts.map Post.slug) =
      some ["a".toList] := by
    rw [value?_build hproblem (eq_ok_of_value? hprepared) hcollect (by decide +kernel)]
    decide +kernel
  obtain ⟨report, hvalue, hslugs⟩ := Option.map_eq_some_iff.1 hslugs
  obtain ⟨ended, hbuild⟩ := exists_of_value? hvalue
  have hposts : report.posts ≠ [] := by
    intro hnil
    rw [hnil] at hslugs
    cases hslugs
  have hdistinct : Distinguishes report.posts unreadable := by
    constructor <;> first | rw [hslugs] | rw [hstems]
    all_goals decide +kernel
  obtain ⟨-, -, -, -, outcomes, -, -, -, -, haccounts⟩ :=
    build_accounts_for_posts settings ⟨.root, []⟩ none none hnames hbuild hposts hdistinct
  exact ⟨hstems, report, ended, outcomes, hbuild, hslugs, haccounts⟩

/-- Two posts that cannot be read and whose names differ in the letter case of the extension: the
failure of one of them takes the place of that of the other one. -/
theorem build_loses_failure_of_post :
    let settings : Settings := { encoding := "ascii".toList }
    let workspace := Workspace.ofEntries [["posts".toList], ["templates".toList]]
      [(["posts".toList, "a.KIT".toList], ['é']), (["posts".toList, "a.kit".toList], ['é']),
       (["posts".toList, "b.kit".toList], "<h1>B</h1>".toList),
       (["templates".toList, "post.kit".toList], "P".toList),
       (["templates".toList, "index.kit".toList], "I".toList)]
    let site := configure settings workspace.tree.workingDirectory ⟨.root, []⟩ none none
    (Post.unreadable site.settings site.compiler (left (site.prepare.run workspace)).tree
        site.posts).map Prod.fst = ["a".toList, "a".toList] ∧
      (value? (site.build.run workspace)).map (fun report =>
        (report.posts.length, report.pages.length, report.failures.map Prod.fst)) =
          some (1, 2, ["a".toList]) := by
  intro settings workspace site
  have hproblem : site.problem? workspace.tree = .ok none := by decide +kernel
  have hprepared : value? (site.prepare.run workspace) = some ⟨⟩ := by decide +kernel
  have hlocate : (left (site.prepare.run workspace)).tree.locate site.posts =
      .ok ["posts".toList] := by decide +kernel
  have hdirectory : (left (site.prepare.run workspace)).tree.isDirectory site.posts = .ok true := by
    decide +kernel
  have hpaths : Post.directoryPaths (left (site.prepare.run workspace)).tree site.posts =
      ["a.KIT".toList, "a.kit".toList, "b.kit".toList].map (⟨.root, ["posts".toList, ·]⟩) :=
    (Post.directoryPaths_of_pairwise hlocate (by decide +kernel)).trans (by decide +kernel)
  have hread : value? ((Post.readAll site.settings site.compiler
      (["a.KIT".toList, "a.kit".toList, "b.kit".toList].map (⟨.root, ["posts".toList, ·]⟩)) []).run
        (left (site.prepare.run workspace))) =
      some ([⟨"b".toList, "B".toList, "b.kit".toList, 0⟩],
        [("a".toList, "a.kit: Failed to tokenize a.kit. ".toList ++
          "(Is the file ascii encoded? Ensure it is not malformed.)".toList)]) := by
    decide +kernel
  have hcollect := Post.collect_of_readAll hdirectory hpaths (eq_ok_of_value? hread)
  constructor
  · rw [Post.unreadable, hpaths]
    decide +kernel
  · rw [value?_build hproblem (eq_ok_of_value? hprepared) hcollect (by decide +kernel)]
    decide +kernel

end Site

end KitTemplate
