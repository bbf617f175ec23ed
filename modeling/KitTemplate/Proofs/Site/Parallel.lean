import KitTemplate.Proofs.Compilation.Parallel
import KitTemplate.Proofs.Site.Frame

/-! Builds side by side. Posts are read in the order of the names of their files, so it makes no
difference in which order a tree lists them. Every step of a build goes along with itself from
workspaces that are alike, and with the steps the build. -/

namespace KitTemplate

open FileTree Work

/-! ### The order of names -/

theorem Text.le_iff {text other : Text} : Text.le text other = true ↔ text ≤ other := by
  rw [← not_lt]
  fun_induction Text.le text other with
  | case1 other => simp
  | case2 first rest => simp
  | case3 first rest first' rest' ih =>
      rw [List.cons_lt_cons_iff, Bool.or_eq_true, Bool.and_eq_true, ih]
      simp only [decide_eq_true_eq]
      grind

theorem Text.le_trans (first second third : Text) (hfirst : Text.le first second = true)
    (hsecond : Text.le second third = true) : Text.le first third = true :=
  Text.le_iff.2 ((Text.le_iff.1 hfirst).trans (Text.le_iff.1 hsecond))

theorem Text.le_total (first second : Text) :
    (Text.le first second || Text.le second first) = true := by
  rw [Bool.or_eq_true, Text.le_iff, Text.le_iff]
  exact Std.le_total

/-- Names that are sorted are in one order only. -/
theorem Text.mergeSort_eq_of_perm {names others : List Text} (hperm : names.Perm others) :
    names.mergeSort Text.le = others.mergeSort Text.le := by
  refine List.Perm.eq_of_pairwise (fun first second _ _ hle hge => ?_)
    (List.pairwise_mergeSort le_trans le_total names)
    (List.pairwise_mergeSort le_trans le_total others) ?_
  · exact le_antisymm (Text.le_iff.1 hle) (Text.le_iff.1 hge)
  · exact (List.mergeSort_perm names _).trans (hperm.trans (List.mergeSort_perm others _).symm)

variable {like : FileTree → FileTree → Prop} {change : Journal → Journal}

/-! ### Posts -/

namespace Post

variable {settings : Settings} {compiler : Compiler} {tree after : FileTree}

theorem directoryPaths_eq (hsame : tree.Same after) (directory : Path) :
    directoryPaths after directory = directoryPaths tree directory := by
  rw [directoryPaths, directoryPaths, hsame.locate_eq]
  split
  · rfl
  · rename_i location _
    rw [Text.mergeSort_eq_of_perm (hsame.names location)]

theorem isCandidate_eq (hsame : tree.Same after) (path : Path) :
    isCandidate settings after path = isCandidate settings tree path := by
  rw [isCandidate, isCandidate, hsame.isFile_eq]

theorem ofFile_eq (hsame : tree.Same after) (path : Path) (text : Text) :
    ofFile after path text = ofFile tree path text := by
  rw [ofFile, ofFile, dateOf, dateOf, hsame.inspect_eq, hsame.zone]

variable (hlike : IsLikeness like) (hchange : Journal.IsUnnoticed change)

include hlike hchange

theorem steady_readAll (paths : List Path) (failures : List (Text × Text)) :
    IsSteady like change (readAll settings compiler paths failures) := by
  induction paths generalizing failures with
  | nil => exact steady_pure _
  | cons path rest ih =>
      refine GoesAlong.bind .get fun first second halike => ?_
      have hsame := hlike.same halike.tree
      dsimp only
      rw [isCandidate_eq hsame, hsame.readText_eq]
      simp only [ofFile_eq hsame]
      split
      · exact steady_throw _
      · exact ih failures
      · split
        · split
          · exact steady_bind (ih failures) fun _ => steady_pure _
          · exact steady_throw _
        · exact steady_bind (steady_note hchange (by decide) _) fun _ => ih _
        · exact steady_throw _

theorem steady_collect (directory : Path) :
    IsSteady like change (collect settings compiler directory) := by
  refine GoesAlong.bind .get fun first second halike => ?_
  have hsame := hlike.same halike.tree
  dsimp only
  rw [hsame.isDirectory_eq, directoryPaths_eq hsame]
  split
  · exact steady_throw _
  · exact steady_pure _
  · exact steady_bind (steady_readAll hlike hchange _ _) fun _ => steady_pure _

end Post

/-! ### Pages and sites -/

namespace Site

variable (hlike : IsLikeness like) (hchange : Journal.IsUnnoticed change) (site : Site)

/-- What is left of a build when the output directory has been prepared. -/
def fill : Work Report := do
  let (posts, failures) ← Post.collect site.settings site.compiler site.posts
  if posts = [] then
    Work.note 1 ("No ".toList ++ site.settings.templateExtension ++
      " post files found in ".toList ++ site.posts.toText)
    return { failures }
  else
    let report ← site.buildPages { posts, failures }
      (posts.map site.postPage ++ [site.indexPage posts])
    Work.note 1 ("Site build complete: ".toList ++ Text.ofNat report.pages.length ++
      " pages, ".toList ++ Text.ofNat report.failures.length ++ " failures".toList)
    return report

theorem run_build (workspace : Workspace) :
    site.build.run workspace =
      match site.problem? workspace.tree with
      | .error denial => .error (.denied denial) workspace
      | .ok (some problem) => .error (.site problem) workspace
      | .ok none => (do site.prepare; site.fill : Work Report).run workspace := by
  rw [build, EStateM.run_bind, EStateM.run_get]
  dsimp only
  rcases site.problem? workspace.tree with denial | (_ | problem) <;> rfl

/-- Changes that leave like trees behind and are refused alike. -/
theorem parallel_adopt {first second : Workspace} {changed changed' : FileTree × Option Denial}
    (hjournal : second.journal = change first.journal) (hchanged : Beside like changed changed') :
    Parallel (Workspace.Alike like change) Eq ((adopt changed).run first)
      ((adopt changed').run second) := by
  obtain ⟨htree, hdenial⟩ := hchanged
  rw [run_adopt, run_adopt, hdenial]
  cases changed.2 with
  | none => exact .ok rfl ⟨htree, hjournal⟩
  | some denial => exact .error ⟨htree, hjournal⟩

section

include hchange

theorem steady_prepare : IsSteady Eq change site.prepare := by
  refine GoesAlong.bind .get fun first second halike => ?_
  dsimp only
  rw [← halike.tree]
  split
  · exact steady_throw _
  · exact steady_bind (steady_note hchange (by decide) _) fun _ _ _ hworkspaces =>
      parallel_adopt hworkspaces.journal ⟨rfl, rfl⟩
  · exact fun _ _ hworkspaces => parallel_adopt hworkspaces.journal ⟨rfl, rfl⟩

end

include hlike hchange

theorem steady_buildPage (report : Report) (page : Page) :
    IsSteady like change (site.buildPage report page) := by
  refine steady_bind (Compiler.steady_compileSource hlike hchange _ _ _) fun compilation => ?_
  cases compilation with
  | compiled text written =>
      exact steady_bind (steady_note hchange (by decide) _) fun _ => steady_pure _
  | failed error => exact steady_bind (steady_note hchange (by decide) _) fun _ => steady_pure _

theorem steady_buildPages (report : Report) (pages : List Page) :
    IsSteady like change (site.buildPages report pages) := by
  induction pages generalizing report with
  | nil => exact steady_pure report
  | cons page rest ih => exact steady_bind (site.steady_buildPage hlike hchange report page) ih

theorem steady_fill : IsSteady like change site.fill := by
  refine steady_bind (Post.steady_collect hlike hchange _) fun ⟨posts, failures⟩ => ?_
  dsimp only
  split
  · exact steady_bind (steady_note hchange (by decide) _) fun _ => steady_pure _
  · refine steady_bind (site.steady_buildPages hlike hchange _ _) fun report => ?_
    exact steady_bind (steady_note hchange (by decide) _) fun _ => steady_pure _

omit hlike in
theorem steady_build : IsSteady Eq change site.build := by
  intro first second halike
  rw [run_build, run_build, halike.tree]
  split
  · exact .error halike
  · exact .error halike
  · exact steady_bind (site.steady_prepare hchange)
      (fun _ => site.steady_fill isLikeness_eq hchange) first second halike

end Site

end KitTemplate
