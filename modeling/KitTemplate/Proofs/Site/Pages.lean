import KitTemplate.Proofs.Site.Frame
import KitTemplate.Proofs.Site.Sources

/-! Expansion of pages. Expanding the source of a page is expanding the template of its kind with
the variables of the page bound, and nothing else comes of the source. This takes values that
directives give back as they are written. Titles and names of files are put into the source as they
are, so it does not hold of every post: a closing mark in a title ends the assignment early, and
what is left of the title becomes text of the page. -/

namespace KitTemplate

open Expansion Text

/-- The variable of a name is given a value, on a line of the source that is expanded. -/
def Expansion.define (name value : Text) (line : Int) : Expansion Unit := do
  note 3 ("line ".toList ++ Text.ofInt line ++ ": ".toList ++ '$' :: name)
  modify (·.assign ('$' :: name) value)
  note 3 ('$' :: name ++ " assigned".toList)

namespace Workplace

variable (place : Workplace)

/-- The expansion of a template in place of the directive of `file` that imports it by `spec`. -/
def expandTemplate (file : Path) (directive : Directive) (spec : Text) (template : Path) :
    Expansion Text := do
  let target ← attempt ((place.compiler.settings.applyExtension template).mapError .rename)
  match ← place.findFile target with
  | none => fail (.importMissing target.name spec) file directive.line
  | some found => place.expandFound place.compileFile file directive found

variable {directive : Directive} {importFile : Path → Expansion Text} {file : Path}

theorem expandDirective_of_variable {name value : Text}
    (hform : Registry.standard.find ('$' :: name) = Registry.variableForm)
    (hkeyword : directive.keyword = '$' :: name) (hvalue : directive.value = some value) :
    place.expandDirective importFile file directive = (do
      define name value directive.line
      return []) := by
  rw [expandDirective, hkeyword, hform]
  simp only [Registry.variableForm, expandVariable, hkeyword, hvalue, define, bind_assoc]

theorem expandDirective_of_import {value : Text}
    (hkeyword : directive.keyword = "@import".toList) (hvalue : directive.value = some value) :
    place.expandDirective importFile file directive = (do
      note 3 ("line ".toList ++ Text.ofInt directive.line ++ ": @import".toList)
      concat (place.expandEntry importFile file directive) (value.splitOn ',')) := by
  have hform : Registry.standard.find "@import".toList = Registry.importForm := by decide +kernel
  have hcategory : Registry.importForm.category = .imports := rfl
  rw [expandDirective, hkeyword, hform]
  simp only [hcategory, hvalue, List.append_assoc]
  rfl

theorem expandEntry_of_clean {spec : Text} {template : Path} (hspec : spec ≠ [])
    (hclean : Import.clean spec = spec)
    (htarget : place.target file spec =
      (place.compiler.settings.applyExtension template).mapError .rename) :
    place.expandEntry place.compileFile file directive spec =
      place.expandTemplate file directive spec template := by
  rw [expandEntry, hclean, if_neg hspec, htarget]
  rfl

end Workplace

/-! ### Pages of posts -/

/-- The stem of a template, followed by the extension of templates, is a name again. -/
theorem Settings.isName_of_isTemplate {settings : Settings} {path : Path}
    (hplain : Path.IsPlain path.name) (htemplate : settings.isTemplate path)
    (hslash : '/' ∉ settings.templateExtension) :
    path.stem ++ settings.templateExtension ≠ [] ∧
      path.stem ++ settings.templateExtension ≠ ['.'] ∧
      '/' ∉ path.stem ++ settings.templateExtension := by
  have hstem : path.stem ≠ [] := Path.stem_ne_nil hplain.1
  refine ⟨List.append_ne_nil_of_left_ne_nil hstem _, fun hdot => ?_, ?_⟩
  · -- a dot alone would be the whole name, as nothing but the empty text has the empty extension
    obtain ⟨hextension, hstem⟩ : settings.templateExtension = [] ∧ path.stem = ['.'] := by
      rcases List.append_eq_singleton_iff.1 hdot with ⟨hnil, -⟩ | ⟨hstem', hextension⟩
      · exact absurd hnil hstem
      · exact ⟨hextension, hstem'⟩
    have hsuffix : path.suffix = [] := by
      have hlower : path.suffix.lowerCase = settings.templateExtension.lowerCase :=
        of_decide_eq_true htemplate
      rw [hextension] at hlower
      exact Text.eq_nil_of_lowerCase hlower
    have hname : path.stem ++ path.suffix = path.name := Path.splitSuffix_append path.name
    rw [hsuffix, hstem, List.append_nil] at hname
    exact hplain.2.1 hname.symm
  · rw [List.mem_append, not_or]
    exact ⟨fun hslash => hplain.2.2.2 (Path.stem_subset _ hslash), hslash⟩

/-- The source of a post's page is taken to stand in the root of the site. -/
theorem Post.parent_of_mem_collect {site : Site} {workspace ended : Workspace} {posts : List Post}
    {failures : List (Text × Text)} (hnames : workspace.tree.IsWellNamed)
    (hcollect : (collect site.settings site.compiler site.posts).run workspace =
      .ok (posts, failures) ended) (hslash : '/' ∉ site.settings.templateExtension) {post : Post}
    (hpost : post ∈ posts) : (site.postPage post).file.parent = site.root := by
  obtain ⟨path, hpath, hcandidate, hstem⟩ := exists_of_mem_collect hcollect hpost
  have htemplate : site.settings.isTemplate path := by
    rw [isCandidate] at hcandidate
    cases hfile : (workspace.tree.isFile path).mapError Fault.denied with
    | error fault =>
        rw [hfile] at hcandidate
        cases hcandidate
    | ok isFile =>
        rw [hfile] at hcandidate
        exact (Bool.and_eq_true_iff.1 (Except.ok.inj hcandidate)).2
  obtain ⟨hempty, hdot, hslash⟩ :=
    Settings.isName_of_isTemplate (isPlain_name hnames hpath) htemplate hslash
  rw [hstem] at hempty hdot hslash
  show (site.root.child (post.slug ++ site.settings.templateExtension)).parent = site.root
  rw [Path.child_of_not_mem hempty hdot hslash, Path.parent]
  simp only [List.dropLast_concat]

namespace Site

/-- The expansion of a page by the template of its kind, which `directive` imports, after the page's
variables have been given their values. -/
def expandByTemplate (site : Site) (place : Workplace) (page : Page) (kind : Text)
    (define : Expansion Unit) (directive : Directive) : Expansion Text := do
  note 3 (Text.ofNat (Token.split page.source).length ++ " tokens".toList)
  define
  note 3 ("line ".toList ++ Text.ofInt directive.line ++ ": @import".toList)
  place.expandTemplate page.file directive (site.templateSpec kind)
    (site.templates.child (kind ++ site.settings.templateExtension))

variable {site : Site} {kind : Text}

/-- The template that a page imports. -/
theorem target_templateSpec (place : Workplace) (hroot : site.root.IsAbsolute)
    (htemplates : site.templates = site.root.child site.settings.templatesDirectory)
    (himports : site.ImportsByName kind) {file : Path} (hfile : file.parent = site.root) :
    place.target file (site.templateSpec kind) =
      (place.compiler.settings.applyExtension
        (site.templates.child (kind ++ site.settings.templateExtension))).mapError .rename := by
  have htemplate : file.parent.child (site.templateSpec kind) =
      site.templates.child (kind ++ site.settings.templateExtension) := by
    rw [hfile, htemplates, templateSpec, Path.child_slash himports.directory himports.file]
  have habsolute : (site.templates.child (kind ++ site.settings.templateExtension)).IsAbsolute := by
    rw [htemplates]
    exact (hroot.child himports.directory).child himports.file
  rw [Workplace.target, htemplate, habsolute.absolute_eq]

section Expanding

variable (place : Workplace) (file : Path)

/-- An assignment at the beginning of a source binds the variable and leaves no text. -/
theorem concat_assignment {name value gap : Text} (hname : IsVariableName name)
    (hvalue : Directive.IsVerbatim value) (hgap : ∀ c ∈ gap, isBlank c)
    (hunmarked : ¬ commentClose <:+: value ++ gap) (rest : Text) (line : Int) :
    concat (place.expandPiece place.compileFile file)
        (Cursor.pieces ⟨Token.split (assignment name (value ++ gap) ++ rest), line⟩) = (do
      define name value line
      concat (place.expandPiece place.compileFile file)
        (Cursor.pieces
          ⟨Token.split rest, line + lineBreaks (assignment name (value ++ gap))⟩)) := by
  obtain ⟨directive, hpieces, hkeyword, hdirective, rfl⟩ :=
    pieces_of_assignment hname hvalue hgap hunmarked rest line
  rw [hpieces]
  simp only [concat, Workplace.expandPiece,
    place.expandDirective_of_variable hname.free hkeyword hdirective, pure_bind, bind_assoc,
    List.nil_append, bind_pure]

/-- An assignment of a value as it is written. -/
theorem concat_assignment_verbatim {name value : Text} (hname : IsVariableName name)
    (hvalue : Directive.IsVerbatim value) (rest : Text) (line : Int) :
    concat (place.expandPiece place.compileFile file)
        (Cursor.pieces ⟨Token.split (assignment name value ++ rest), line⟩) = (do
      define name value line
      concat (place.expandPiece place.compileFile file)
        (Cursor.pieces ⟨Token.split rest, line + lineBreaks (assignment name value)⟩)) := by
  have hunmarked : ¬ commentClose <:+: value ++ [] := by
    rw [List.append_nil]
    exact hvalue.unmarked
  have hconcat := concat_assignment place file hname hvalue (List.forall_mem_nil _) hunmarked rest line
  rwa [List.append_nil] at hconcat

/-- The directive that imports a template is replaced by its expansion. -/
theorem concat_templateImport (hroot : site.root.IsAbsolute)
    (htemplates : site.templates = site.root.child site.settings.templatesDirectory)
    (himports : site.ImportsByName kind) (hfile : file.parent = site.root) (line : Int) :
    ∃ directive : Directive, directive.line = line ∧
      concat (place.expandPiece place.compileFile file)
          (Cursor.pieces ⟨Token.split (site.templateImport kind), line⟩) = (do
        note 3 ("line ".toList ++ Text.ofInt directive.line ++ ": @import".toList)
        place.expandTemplate file directive (site.templateSpec kind)
          (site.templates.child (kind ++ site.settings.templateExtension))) := by
  obtain ⟨directive, hpieces, hkeyword, hvalue, rfl⟩ := pieces_of_templateImport himports line
  have hspec : site.templateSpec kind ≠ [] := by simp [templateSpec]
  refine ⟨directive, rfl, ?_⟩
  rw [hpieces]
  simp only [concat, Workplace.expandPiece, place.expandDirective_of_import hkeyword hvalue,
    splitOn_of_not_mem himports.single, place.expandEntry_of_clean hspec himports.clean
      (target_templateSpec place hroot htemplates himports hfile), pure_bind, bind_assoc,
    List.nil_append, List.append_nil, bind_pure]

end Expanding

/-- The expansion of the source of a post's page. -/
theorem expandText_postPage (place : Workplace) (hroot : site.root.IsAbsolute)
    (htemplates : site.templates = site.root.child site.settings.templatesDirectory)
    (himports : site.ImportsByName "post".toList) {post : Post}
    (htitle : Directive.IsVerbatim post.title) (hfile : Directive.IsVerbatim post.file)
    (hparent : (site.postPage post).file.parent = site.root) :
    let page := site.postPage post
    let second : Int := 1 + lineBreaks (assignment "postTitle".toList post.title)
    ∃ directive : Directive,
      directive.line = second + lineBreaks (assignment "postFile".toList post.file) ∧
      place.expandText page.file page.source =
        site.expandByTemplate place page "post".toList
          (do
            define "postTitle".toList post.title 1
            define "postFile".toList post.file second)
          directive := by
  intro page second
  obtain ⟨directive, hline, htemplate⟩ := concat_templateImport place page.file hroot htemplates
    himports hparent (second + lineBreaks (assignment "postFile".toList post.file))
  have hsource : page.source = assignment "postTitle".toList post.title ++
      (assignment "postFile".toList post.file ++ site.templateImport "post".toList) :=
    List.append_assoc ..
  refine ⟨directive, hline, ?_⟩
  rw [Workplace.expandText, Workplace.expandSource, Piece.ofSource, expandByTemplate, bind_assoc,
    hsource, concat_assignment_verbatim place page.file (isVariableName_of_mem (by simp)) htitle,
    concat_assignment_verbatim place page.file (isVariableName_of_mem (by simp)) hfile, htemplate]

/-- The expansion of the source of the page that lists the posts. -/
theorem expandText_indexPage (place : Workplace) (hroot : site.root.IsAbsolute)
    (htemplates : site.templates = site.root.child site.settings.templatesDirectory)
    (himports : site.ImportsByName "index".toList) {posts : List Post} (hposts : posts ≠ [])
    (hunmarked : ∀ post ∈ posts, ¬ commentClose <:+: post.title ∧ ¬ commentClose <:+: post.slug) :
    let page := site.indexPage posts
    let list := posts.flatMap listEntry
    ∃ directive : Directive, directive.line = 1 + lineBreaks (assignment "postList".toList list) ∧
      place.expandText page.file page.source =
        site.expandByTemplate place page "index".toList (define "postList".toList list.dropLast 1)
          directive := by
  intro page list
  have hparent : page.file.parent = site.root := by
    show (site.root.child ("index".toList ++ site.settings.templateExtension)).parent = site.root
    rw [Path.child_of_plain himports.file, Path.parent]
    simp only [List.dropLast_concat]
  obtain ⟨directive, hline, htemplate⟩ := concat_templateImport place page.file hroot htemplates
    himports hparent (1 + lineBreaks (assignment "postList".toList list))
  obtain ⟨inner, hlist⟩ : ∃ inner, list = '<' :: inner ++ ['>', '\n'] := exists_listEntries hposts
  have hwhole : list = '<' :: inner ++ ['>'] ++ ['\n'] := by
    rw [hlist, List.append_assoc]
    rfl
  have hdrop : list.dropLast = '<' :: inner ++ ['>'] := by rw [hwhole, List.dropLast_concat]
  have hmarks : ¬ commentClose <:+: list := not_isInfix_listEntries hunmarked
  have hvalue : Directive.IsVerbatim list.dropLast := by
    rw [hdrop]
    refine ⟨fun hmark => hmarks ?_, rfl, ?_⟩
    · rw [hwhole]
      exact hmark.trans (List.prefix_append _ _).isInfix
    · rw [List.getLast?_concat]
      rfl
  have hgap : list.dropLast ++ ['\n'] = list := by rw [hdrop, hwhole]
  have hname : IsVariableName "postList".toList := isVariableName_of_mem (by simp)
  have hbreak : ∀ c ∈ ['\n'], isBlank c := List.forall_mem_singleton.2 rfl
  have hassign := concat_assignment place page.file hname hvalue hbreak (by rwa [hgap])
    (site.templateImport "index".toList) 1
  rw [hgap, htemplate] at hassign
  refine ⟨directive, hline, ?_⟩
  rw [Workplace.expandText, Workplace.expandSource, Piece.ofSource, expandByTemplate,
    show page.source = assignment "postList".toList list ++ site.templateImport "index".toList
      from rfl, hassign]

/-- The source of the page of a post, whose title and file are verbatim, expands to the template of
posts with the variables of the post bound; and the source of the page that lists the posts expands
to its template with the list bound, without its last line terminator, if no closing mark stands in
a title or in a slug. -/
theorem page_sources_expand_templates (settings : Settings) (root : Path) (output : Option Path)
    (compiler : Option Compiler) (place : Workplace) {workspace ended : Workspace}
    {posts : List Post} {failures : List (Text × Text)} (hnames : workspace.tree.IsWellNamed) :
    let site := configure settings workspace.tree.workingDirectory root output compiler
    (Post.collect site.settings site.compiler site.posts).run workspace =
        .ok (posts, failures) ended →
      (site.ImportsByName "post".toList → ∀ post ∈ posts,
        Directive.IsVerbatim post.title → Directive.IsVerbatim post.file →
        let page := site.postPage post
        let second : Int := 1 + lineBreaks (assignment "postTitle".toList post.title)
        ∃ directive : Directive,
          directive.line = second + lineBreaks (assignment "postFile".toList post.file) ∧
          place.expandText page.file page.source =
            site.expandByTemplate place page "post".toList
              (do
                define "postTitle".toList post.title 1
                define "postFile".toList post.file second)
              directive) ∧
      (site.ImportsByName "index".toList → posts ≠ [] →
        (∀ post ∈ posts, ¬ commentClose <:+: post.title ∧ ¬ commentClose <:+: post.slug) →
        let page := site.indexPage posts
        let list := posts.flatMap listEntry
        ∃ directive : Directive,
          directive.line = 1 + lineBreaks (assignment "postList".toList list) ∧
          place.expandText page.file page.source =
            site.expandByTemplate place page "index".toList
              (define "postList".toList list.dropLast 1) directive) := by
  intro site hcollect
  have hroot : site.root.IsAbsolute :=
    Path.isAbsolute_absolute workspace.tree.isAbsolute root
  refine ⟨fun himports post hpost htitle hfile => ?_, fun himports hposts hunmarked =>
    expandText_indexPage place hroot rfl himports hposts hunmarked⟩
  have hslash : '/' ∉ site.settings.templateExtension := fun hslash =>
    himports.file.2.2.2 (List.mem_append_right _ hslash)
  exact expandText_postPage place hroot rfl himports htitle hfile
    (Post.parent_of_mem_collect hnames hcollect hslash hpost)

/-- A post with a heading. -/
theorem page_sources_expand_templates_post :
    let workspace := Workspace.ofEntries [["posts".toList], ["templates".toList]]
      [(["posts".toList, "a.kit".toList], "<h1>Hello -- World</h1>".toList)]
    let site := configure {} workspace.tree.workingDirectory ⟨.root, []⟩ none none
    let page := site.postPage ⟨"a".toList, "Hello -- World".toList, "a.kit".toList, 0⟩
    ∃ directive : Directive, directive.line = 3 ∧
      Workplace.expandText ⟨site.compiler, workspace.tree⟩ page.file page.source =
        site.expandByTemplate ⟨site.compiler, workspace.tree⟩ page "post".toList
          (do
            define "postTitle".toList "Hello -- World".toList 1
            define "postFile".toList "a.kit".toList 2)
          directive := by
  intro workspace site page
  have hnames : workspace.tree.IsWellNamed := FileTree.isWellNamed_of_entries (by decide +kernel)
  have hcollected : Work.value? ((Post.collect site.settings site.compiler site.posts).run
      workspace) = some ([⟨"a".toList, "Hello -- World".toList, "a.kit".toList, 0⟩], []) := by
    decide +kernel
  obtain ⟨ended, hcollect⟩ := Work.exists_of_value? hcollected
  have himports : site.ImportsByName "post".toList := by constructor <;> decide +kernel
  exact (page_sources_expand_templates {} ⟨.root, []⟩ none none ⟨site.compiler, workspace.tree⟩
    hnames hcollect).1 himports _ List.mem_cons_self (by decide +kernel) (by decide +kernel)

/-- A closing mark in a heading ends the assignment of the title, and a comma in the name of the
templates directory cuts the import of the template in two. -/
theorem build_cuts_title_and_import :
    (let workspace := Workspace.ofEntries [["posts".toList], ["templates".toList]]
      [(["posts".toList, "a.kit".toList], "<h1>A --> B</h1>".toList),
       (["templates".toList, "post.kit".toList], "[<!--$postTitle-->]".toList),
       (["templates".toList, "index.kit".toList], "I".toList)]
    let site := configure {} workspace.tree.workingDirectory ⟨.root, []⟩ none none
    Work.value? ((Post.collect site.settings site.compiler site.posts).run workspace) =
        some ([⟨"a".toList, "A --> B".toList, "a.kit".toList, 0⟩], []) ∧
      FileTree.read (Work.left (site.build.run workspace)).tree
          ⟨.root, ["build".toList, "a".toList, indexName]⟩ =
        .ok (Charset.encodeUtf8 " B-->\n[A]".toList)) ∧
    (let workspace := Workspace.ofEntries [["posts".toList], ["a,b".toList]]
      [(["posts".toList, "a.kit".toList], "<h1>A</h1>".toList),
       (["a,b".toList, "post.kit".toList], "[<!--$postTitle-->]".toList),
       (["a,b".toList, "index.kit".toList], "I".toList)]
    let site := configure { templatesDirectory := "a,b".toList } workspace.tree.workingDirectory
      ⟨.root, []⟩ none none
    Path.IsPlain site.settings.templatesDirectory ∧
      FileTree.entry? (Work.left (site.build.run workspace)).tree
        ["build".toList, "a".toList, indexName] = none) := by
  decide +kernel

end Site

end KitTemplate
