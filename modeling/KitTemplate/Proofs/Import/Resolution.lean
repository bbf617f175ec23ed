import KitTemplate.Import.Spec
import KitTemplate.Proofs.FileTree.Lookup
import KitTemplate.Proofs.Path.Naming

/-! What entries of import lists lead to. A file found for an entry is a file under a path from the
root that goes by names alone. This takes an argument: the extension and the underscore are put into
a name as text, so the last part of a path that is tried may be any text that counts as a single
name, slashes and dots among it. Such a part is either plain, or it begins with a dot and a slash,
which neither an extension nor an underscore brings about, or it ends in dots, and then the path
leads to a directory.

With an extension that is a dot and a name, every path with a name has a target, in the same
directory (`Settings.exists_applyExtension`). So a path from the root has one that goes by names
alone itself, unless it is the root (`Settings.cases_of_applyExtension`). -/

namespace KitTemplate

theorem Import.toggleUnderscore_of_ne {name : Text} (hname : name.head? ≠ some '_') :
    toggleUnderscore name = '_' :: name := by
  unfold toggleUnderscore
  split
  · exact absurd rfl hname
  · rfl

namespace Path

/-- A path that can be tried for an entry of an import list. -/
structure IsCandidate (path : Path) : Prop where
  rooted : path.anchor ≠ .relative
  above : ∀ part ∈ path.parts.dropLast, IsPlain part
  single : isSingleName path.name
  head : (Text.splitOn '/' path.name).head? ≠ some ['.']

namespace IsCandidate

theorem name_ne_nil {path : Path} (hpath : path.IsCandidate) : path.name ≠ [] := by
  intro hname
  have hsingle := hpath.single
  rw [hname] at hsingle
  revert hsingle
  decide

theorem of_parts {path : Path} {above : List Text} {last : Text} (hrooted : path.anchor ≠ .relative)
    (hparts : path.parts = above ++ [last]) (habove : ∀ part ∈ above, IsPlain part)
    (hempty : last ≠ []) (hdot : last ≠ ['.']) (hslash : '/' ∉ last) : path.IsCandidate where
  rooted := hrooted
  above := by rwa [hparts, List.dropLast_concat]
  single := by
    rw [name_of_parts hparts]
    exact isSingleName_of_not_mem hempty hdot hslash
  head := by
    rw [name_of_parts hparts, Text.splitOn_of_not_mem hslash]
    simpa using hdot

theorem of_isAbsolute {path : Path} (hpath : path.IsAbsolute) (hname : path.name ≠ []) :
    path.IsCandidate := by
  obtain ⟨hempty, hdot, -, hslash⟩ := hpath.plain _ (mem_parts_of_name hname)
  exact of_parts hpath.rooted (parts_of_name hname)
    (fun part hpart => hpath.plain part (List.dropLast_subset _ hpart)) hempty hdot hslash

/-- The path of a candidate with another name, unless the name begins with a dot and a slash. -/
theorem of_withName {path renamed : Path} {name : Text} (hrooted : path.anchor ≠ .relative)
    (habove : ∀ part ∈ path.parts.dropLast, IsPlain part)
    (hrenamed : path.withName name = .ok renamed)
    (hhead : isSingleName name → (Text.splitOn '/' name).head? ≠ some ['.']) :
    renamed.IsCandidate := by
  rw [withName] at hrenamed
  split at hrenamed
  · cases hrenamed
  split at hrenamed
  · rename_i hsingle
    obtain rfl := Except.ok.inj hrenamed
    have hname : Path.name { path with parts := path.parts.dropLast ++ [name] } = name :=
      name_of_parts rfl
    exact
      { rooted := hrooted
        above := by rwa [List.dropLast_concat]
        single := by rwa [hname]
        head := by
          rw [hname]
          exact hhead hsingle }
  · cases hrenamed

end IsCandidate

theorem isSingleName_of_withName {path renamed : Path} {name : Text}
    (hrenamed : path.withName name = .ok renamed) : isSingleName name := by
  rw [withName] at hrenamed
  split at hrenamed
  · cases hrenamed
  split at hrenamed
  · assumption
  · cases hrenamed

/-- An extension does not change how a plain name begins. -/
theorem head?_splitOn_append {name : Text} (hname : IsPlain name) (extension : Text) :
    (Text.splitOn '/' (name ++ extension)).head? ≠ some ['.'] := by
  obtain ⟨hempty, hdot, -, hslash⟩ := hname
  obtain ⟨part, parts, -, happend⟩ := Text.splitOn_append_of_not_mem hslash extension
  rw [happend, List.head?_cons]
  intro hhead
  rcases List.append_eq_singleton_iff.1 (Option.some.inj hhead) with ⟨hname, -⟩ | ⟨hname, -⟩
  · exact hempty hname
  · exact hdot hname

theorem splitOn_underscore (rest : Text) :
    ∃ part parts, Text.splitOn '/' rest = part :: parts ∧
      Text.splitOn '/' ('_' :: rest) = ('_' :: part) :: parts :=
  Text.splitOn_cons_of_ne (by decide) rest

/-- A single name that begins with an underscore, a dot and a slash has nothing after them that
counts, so it has no counterpart without the underscore. -/
theorem head?_splitOn_toggleUnderscore {name : Text} (hname : isSingleName name)
    (htoggled : isSingleName (Import.toggleUnderscore name)) :
    (Text.splitOn '/' (Import.toggleUnderscore name)).head? ≠ some ['.'] := by
  by_cases hunderscore : name.head? = some '_'
  · obtain ⟨rest, rfl⟩ := List.head?_eq_some_iff.1 hunderscore
    change isSingleName rest = true at htoggled
    show (Text.splitOn '/' rest).head? ≠ some ['.']
    intro hhead
    obtain ⟨part, parts, hrest, hcons⟩ := splitOn_underscore rest
    rw [hrest] at hhead
    obtain rfl := Option.some.inj hhead
    have hcount : (ofText ('_' :: rest)).parts.length = (ofText rest).parts.length + 1 := by
      simp [ofText, hcons, hrest]
    rw [length_parts_of_isSingleName hname, length_parts_of_isSingleName htoggled] at hcount
    cases hcount
  · rw [Import.toggleUnderscore_of_ne hunderscore]
    intro hhead
    obtain ⟨part, parts, -, hcons⟩ := splitOn_underscore name
    rw [hcons] at hhead
    cases hhead

/-- A candidate that is a file goes by names alone. -/
theorem IsCandidate.isAbsolute {tree : FileTree} {path : Path} (hpath : path.IsCandidate)
    (hfile : tree.isFile path = .ok true) : path.IsAbsolute := by
  have hparts := parts_of_name hpath.name_ne_nil
  obtain ⟨location, content, changed, hlocate, hentry⟩ := FileTree.exists_file_of_isFile hfile
  rw [FileTree.locate] at hlocate
  split at hlocate
  · cases hlocate
  have hroute := FileTree.route_of_parts hparts hpath.above
  -- a file is not reached by dots
  have hdots (above : List Text) (last : Text) (hlast : last = ['.'] ∨ last = ['.', '.'])
      (hends : FileTree.route path = above ++ [last]) : False := by
    rw [hends] at hlocate
    rw [FileTree.entry?_of_walk_dots hlast hlocate] at hentry
    cases hentry
  rcases cases_of_isSingleName hpath.single with hplain | hdouble | hhead | hlast
  · refine ⟨hpath.rooted, fun part hpart => ?_⟩
    rw [hparts] at hpart
    rcases List.mem_append.1 hpart with habove | hname
    · exact hpath.above part habove
    · rwa [List.mem_singleton.1 hname]
  · refine (hdots path.parts.dropLast _ (Or.inr rfl) ?_).elim
    rw [hroute, hdouble]
    rfl
  · exact absurd hhead hpath.head
  · obtain ⟨names, hnames⟩ := List.getLast?_eq_some_iff.1 hlast
    refine (hdots (path.parts.dropLast ++ names.filter (· ≠ [])) _ (Or.inl rfl) ?_).elim
    rw [hroute, hnames, List.filter_append, List.append_assoc]
    rfl

end Path

namespace Import

variable {tree : FileTree} {folders : List Path} {target found : Path}

theorem firstFile_eq_some {paths : List Path} (hfirst : firstFile tree paths = .ok (some found)) :
    found ∈ paths ∧ tree.isFile found = .ok true := by
  induction paths with
  | nil => cases hfirst
  | cons path rest ih =>
      rw [firstFile] at hfirst
      split at hfirst
      · cases hfirst
      · rename_i hfile
        obtain rfl := Option.some.inj (Except.ok.inj hfirst)
        exact ⟨List.mem_cons_self, hfile⟩
      · obtain ⟨hmem, hfile⟩ := ih hfirst
        exact ⟨List.mem_cons_of_mem _ hmem, hfile⟩

/-- A place is tried for a target: the target itself, or a fallback. -/
def IsTried (folders : List Path) (target path : Path) : Prop :=
  path = target ∨ ∃ paths, fallbacks folders target = .ok paths ∧ path ∈ paths

theorem resolve_eq_some (hresolve : resolve tree folders target = .ok (some found)) :
    tree.isFile found = .ok true ∧ IsTried folders target found := by
  rw [resolve] at hresolve
  split at hresolve
  · cases hresolve
  · rename_i hfile
    obtain rfl := Option.some.inj (Except.ok.inj hresolve)
    exact ⟨hfile, Or.inl rfl⟩
  · split at hresolve
    · cases hresolve
    · rename_i paths hpaths
      obtain ⟨hmem, hfile⟩ := firstFile_eq_some hresolve
      exact ⟨hfile, Or.inr ⟨paths, hpaths, hmem⟩⟩

theorem exists_of_firstFile_eq_error {paths : List Path} {fault : Fault}
    (hfirst : firstFile tree paths = .error fault) :
    ∃ path denial, path ∈ paths ∧ tree.isFile path = .error denial ∧ fault = .denied denial := by
  induction paths with
  | nil => cases hfirst
  | cons path rest ih =>
      rw [firstFile] at hfirst
      split at hfirst
      · rename_i denial hdenied
        exact ⟨path, denial, List.mem_cons_self, hdenied, (Except.error.inj hfirst).symm⟩
      · cases hfirst
      · obtain ⟨other, denial, hmem, hdenied⟩ := ih hfirst
        exact ⟨other, denial, List.mem_cons_of_mem _ hmem, hdenied⟩

/-- A target leads to no answer because a place tried for it may not be looked at, or because it has
no fallbacks. -/
theorem cases_of_resolve_eq_error {fault : Fault}
    (hresolve : resolve tree folders target = .error fault) :
    (∃ denial, (∃ path, IsTried folders target path ∧ tree.isFile path = .error denial) ∧
        fault = .denied denial) ∨
      ∃ problem, fallbacks folders target = .error problem ∧ fault = .rename problem := by
  rw [resolve] at hresolve
  split at hresolve
  · rename_i denial hdenied
    exact Or.inl ⟨denial, ⟨target, Or.inl rfl, hdenied⟩, (Except.error.inj hresolve).symm⟩
  · cases hresolve
  · split at hresolve
    · rename_i problem hproblem
      exact Or.inr ⟨problem, hproblem, (Except.error.inj hresolve).symm⟩
    · rename_i paths hpaths
      obtain ⟨path, denial, hmem, hdenied, hfault⟩ := exists_of_firstFile_eq_error hresolve
      exact Or.inl ⟨denial, ⟨path, Or.inr ⟨paths, hpaths, hmem⟩, hdenied⟩, hfault⟩

/-- A fallback folder taken with a single name. -/
theorem isCandidate_child {folder : Path} (hfolder : folder.IsAbsolute) {name : Text}
    (hname : Path.isSingleName name) : (folder.child name).IsCandidate := by
  obtain ⟨part, hpart⟩ := List.length_eq_one_iff.1 (Path.length_parts_of_isSingleName hname)
  have hanchor : (Path.ofText name).anchor = .relative := by
    simp only [Path.isSingleName, Bool.and_eq_true, decide_eq_true_eq] at hname
    exact hname.1.2
  have hchild : folder.child name = { folder with parts := folder.parts ++ [part] } := by
    show Path.append folder (Path.ofText name) = _
    rw [Path.append, if_pos hanchor, hpart]
  have hmem : part ∈ (Path.ofText name).parts := by
    rw [hpart]
    exact List.mem_singleton_self part
  obtain ⟨hempty, hdot, hslash⟩ := Path.mem_parts_ofText hmem
  rw [hchild]
  exact Path.IsCandidate.of_parts hfolder.rooted rfl hfolder.plain hempty hdot hslash

theorem isCandidate_of_mem_fallbacks (htarget : target.IsCandidate)
    (hfolders : ∀ folder ∈ folders, folder.IsAbsolute) {paths : List Path}
    (hpaths : fallbacks folders target = .ok paths) (hfound : found ∈ paths) :
    found.IsCandidate := by
  rw [fallbacks] at hpaths
  cases hsibling : target.withName (toggleUnderscore target.name) with
  | error problem =>
      rw [hsibling] at hpaths
      cases hpaths
  | ok sibling =>
      rw [hsibling] at hpaths
      obtain rfl := Except.ok.inj hpaths
      have hsibling' : sibling.IsCandidate :=
        .of_withName htarget.rooted htarget.above hsibling
          (Path.head?_splitOn_toggleUnderscore htarget.single)
      rcases List.mem_cons.1 hfound with rfl | hfolder
      · exact hsibling'
      · obtain ⟨folder, hmem, hfound⟩ := List.mem_flatMap.1 hfolder
        have habsolute := hfolders folder hmem
        simp only [List.mem_cons, List.not_mem_nil, or_false] at hfound
        rcases hfound with rfl | rfl
        · exact isCandidate_child habsolute htarget.single
        · exact isCandidate_child habsolute (Path.isSingleName_of_withName hsibling)

/-- The file that is found for a candidate goes by names alone. -/
theorem isAbsolute_of_resolve (htarget : target.IsCandidate)
    (hfolders : ∀ folder ∈ folders, folder.IsAbsolute)
    (hresolve : resolve tree folders target = .ok (some found)) : found.IsAbsolute := by
  obtain ⟨hfile, rfl | ⟨paths, hpaths, hmem⟩⟩ := resolve_eq_some hresolve
  · exact htarget.isAbsolute hfile
  · exact (isCandidate_of_mem_fallbacks htarget hfolders hpaths hmem).isAbsolute hfile

/-- The counterpart of a name that has a suffix is a name again. -/
theorem isPlain_toggleUnderscore {name : Text} (hsuffix : (Path.splitSuffix name).2 ≠ [])
    (hslash : '/' ∉ name) : Path.IsPlain (toggleUnderscore name) := by
  by_cases hunderscore : name.head? = some '_'
  · obtain ⟨rest, rfl⟩ := List.head?_eq_some_iff.1 hunderscore
    show Path.IsPlain rest
    refine ⟨?_, ?_, ?_, fun hmem => hslash (List.mem_cons_of_mem _ hmem)⟩
    all_goals
      rintro rfl
      exact hsuffix (by decide)
  · rw [toggleUnderscore_of_ne hunderscore]
    refine ⟨List.cons_ne_nil _ _, ?_, ?_, ?_⟩
    · intro hdot
      cases hdot
    · intro hdots
      cases hdots
    · rw [List.mem_cons, not_or]
      exact ⟨by decide, hslash⟩

/-- A target whose name has a suffix has fallbacks: its counterpart, and both names in every
folder. -/
theorem fallbacks_eq (folders : List Path) (hsuffix : target.suffix ≠ [])
    (hslash : '/' ∉ target.name) :
    fallbacks folders target = .ok
      ({ target with parts := target.parts.dropLast ++ [toggleUnderscore target.name] } ::
        folders.flatMap fun folder =>
          [folder.child target.name, folder.child (toggleUnderscore target.name)]) := by
  have hname : target.name ≠ [] := (Path.isPlain_of_suffix_ne_nil hsuffix hslash).1
  obtain ⟨hempty, hdot, -, hslash'⟩ := isPlain_toggleUnderscore hsuffix hslash
  rw [fallbacks, Path.withName, if_neg hname,
    if_pos (Path.isSingleName_of_not_mem hempty hdot hslash')]
  rfl

end Import

theorem Settings.isCandidate_of_applyExtension {settings : Settings} {path target : Path}
    (hpath : path.IsAbsolute) (htarget : settings.applyExtension path = .ok target) :
    target.IsCandidate := by
  rw [applyExtension] at htarget
  split at htarget
  · rename_i hsuffix
    obtain rfl := Except.ok.inj htarget
    refine .of_isAbsolute hpath fun hname => hsuffix ?_
    rw [Path.suffix, hname]
    rfl
  · have hname : path.name ≠ [] := by
      intro hname
      rw [Path.withName, if_pos hname] at htarget
      cases htarget
    refine .of_withName hpath.rooted
      (fun part hpart => hpath.plain part (List.dropLast_subset _ hpart)) htarget fun _ => ?_
    exact Path.head?_splitOn_append (hpath.plain _ (Path.mem_parts_of_name hname)) _

/-- With an extension that is a dot and a name, a path with a name has a target in the same
directory, and the name of the target has a suffix: its own, or else the extension. -/
theorem Settings.exists_applyExtension {settings : Settings} {suffix : Text}
    (hextension : settings.templateExtension = '.' :: suffix) (hempty : suffix ≠ [])
    (hdot : '.' ∉ suffix) (hslash : '/' ∉ suffix) {path : Path} (hname : path.name ≠ [])
    (hname' : '/' ∉ path.name) :
    ∃ target, settings.applyExtension path = .ok target ∧ target.parent = path.parent ∧
      target.suffix ≠ [] ∧ '/' ∉ target.name ∧
      (path.suffix = [] → target.suffix = settings.templateExtension) := by
  rw [applyExtension]
  by_cases hsuffix : path.suffix ≠ []
  · rw [if_pos hsuffix]
    exact ⟨path, rfl, rfl, hsuffix, hname', fun hnone => absurd hnone hsuffix⟩
  have hsplit : Path.splitSuffix (path.name ++ '.' :: suffix) = (path.name, '.' :: suffix) :=
    Path.splitSuffix_append_dot hname hempty hdot
  have hslash' : '/' ∉ path.name ++ '.' :: suffix := by simp [hname', hslash]
  have hextended : Path.IsPlain (path.name ++ '.' :: suffix) :=
    Path.isPlain_of_suffix_ne_nil (by simp [hsplit]) hslash'
  have htarget :
      Path.name { path with parts := path.parts.dropLast ++ [path.name ++ '.' :: suffix] } =
        path.name ++ '.' :: suffix :=
    Path.name_of_parts rfl
  rw [if_neg hsuffix, Path.withName, hextension, if_neg hname,
    if_pos (Path.isSingleName_of_not_mem hextended.1 hextended.2.1 hextended.2.2.2)]
  refine ⟨_, rfl, ?_, ?_, by rwa [htarget], fun _ => ?_⟩
  · rw [Path.parent, Path.parent, List.dropLast_concat]
  · rw [Path.suffix, htarget, hsplit]
    exact List.cons_ne_nil _ _
  · rw [Path.suffix, htarget, hsplit]

/-- So every path from the root has a target but that of the root itself. -/
theorem Settings.cases_of_applyExtension {settings : Settings} {suffix : Text}
    (hextension : settings.templateExtension = '.' :: suffix) (hempty : suffix ≠ [])
    (hdot : '.' ∉ suffix) (hslash : '/' ∉ suffix) {path : Path} (hpath : path.IsAbsolute) :
    (∃ target, settings.applyExtension path = .ok target ∧ target.IsAbsolute ∧
        target.suffix ≠ []) ∨
      path.parts = [] ∧ settings.applyExtension path = .error (.unnamed path) := by
  by_cases hname : path.name = []
  · have hsuffix : path.suffix = [] := by
      rw [Path.suffix, hname]
      rfl
    refine Or.inr ⟨hpath.parts_of_name_eq_nil hname, ?_⟩
    rw [applyExtension, if_neg (not_not_intro hsuffix), Path.withName, if_pos hname]
  · obtain ⟨target, happlied, hparent, hsuffix, hname', -⟩ :=
      exists_applyExtension hextension hempty hdot hslash hname hpath.slash_not_mem_name
    refine Or.inl ⟨target, happlied, .of_parent ?_ ?_, hsuffix⟩
    · rw [hparent]
      exact hpath.parent
    · exact Path.isPlain_of_suffix_ne_nil hsuffix hname'

end KitTemplate
