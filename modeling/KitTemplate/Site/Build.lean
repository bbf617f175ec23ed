import KitTemplate.Site.Post

/-! Building a site. The output directory is made, or emptied if it exists; each post gets a page in
a directory of its own, and one more page lists all posts. Every page is compiled from a short
source that assigns the page's variables and imports the template of its kind. A page that fails is
reported and the others are still built. An output directory that is spelled as a source of the
site, or as a directory above one, is refused. -/

namespace KitTemplate

structure Site where
  root : Path
  templates : Path
  posts : Path
  output : Path
  compiler : Compiler
  settings : Settings

/-- Work that takes over what a change has made of the tree, and fails if the change was refused. -/
def Work.adopt (changed : FileTree × Option Denial) : Work Unit := do
  modify fun workspace => { workspace with tree := changed.1 }
  if let some denial := changed.2 then throw (.denied denial)

namespace Site

/-- A site with the directories that its settings name. Its pages go to `output` or, if that is not
given, to the build directory of the settings; a compiler that is not given reads partials from the
posts of the site. -/
def configure (settings : Settings) (workingDirectory root : Path) (output : Option Path)
    (compiler : Option Compiler) : Site :=
  let root := Path.absolute workingDirectory root
  let posts := root.child settings.postsDirectory
  { root, posts, settings
    templates := root.child settings.templatesDirectory
    output := Path.absolute workingDirectory (output.getD (root.child settings.buildDirectory))
    compiler := compiler.getD (.configure settings workingDirectory none (some posts)) }

variable (site : Site)

/-- The directories that must survive a build, with the words that messages have for them. -/
def sources (workingDirectory : Path) : List (Text × Path) :=
  [("the site root".toList, site.root),
   ("the posts directory".toList, site.posts),
   ("the templates directory".toList, site.templates),
   ("the partials directory".toList,
     Path.absolute workingDirectory site.compiler.postsDirectory)]

/-- Why the site must not be built. -/
def problem? (tree : FileTree) : Except Denial (Option SiteProblem) := do
  if ← tree.isDirectory site.templates then
    let threatened := (site.sources tree.workingDirectory).find? fun source =>
      site.output = source.2 || site.output.isAbove source.2
    return threatened.map fun source => .unsafeOutput site.output source.1
  else
    return some (.withoutTemplates site.templates)

/-- The output directory made, or emptied if it exists. -/
def prepare : Work Unit := do
  let tree := (← get).tree
  match tree.isDirectory site.output, tree.locate site.output with
  | .error denial, _ => throw (.denied denial)
  | .ok true, .ok location =>
    Work.note 2 ("Cleaning build directory ".toList ++ site.output.toText)
    .adopt (tree.emptyDirectory site.output location)
  | _, _ => .adopt (tree.makeDirectories site.output false)

/-- The directive that imports the template of a kind of page. -/
def templateImport (kind : Text) : Text :=
  "<!-- @import ".toList ++ site.settings.templatesDirectory ++ ['/'] ++ kind ++
    site.settings.templateExtension ++ " -->".toList

/-- The directive that assigns a variable. -/
def assignment (name value : Text) : Text :=
  "<!--$".toList ++ name ++ [' '] ++ value ++ "-->\n".toList

/-- A page to be compiled. -/
structure Page where
  /-- The name under which the page is reported. -/
  name : Text
  source : Text
  /-- Where the source is taken to stand. -/
  file : Path
  output : Path

def postPage (post : Post) : Page where
  name := post.slug ++ ['/']
  source := assignment "postTitle".toList post.title ++ assignment "postFile".toList post.file ++
    site.templateImport "post".toList
  file := site.root.child (post.slug ++ site.settings.templateExtension)
  output := (site.output.child post.slug).child "index.html".toList

def listEntry (post : Post) : Text :=
  "<h2><a href=\"".toList ++ post.slug ++ "/\">".toList ++ post.title ++ "</a></h2>\n".toList

def indexPage (posts : List Post) : Page where
  name := "index.html".toList
  source := assignment "postList".toList (posts.flatMap listEntry) ++
    site.templateImport "index".toList
  file := site.root.child ("index".toList ++ site.settings.templateExtension)
  output := site.output.child "index.html".toList

/-- The report after one more page. -/
def buildPage (report : Report) (page : Page) : Work Report := do
  match ← site.compiler.compileSource page.source page.file (some page.output) with
  | .compiled .. =>
    Work.note 1 ("Generated ".toList ++ page.name)
    return { report with pages := report.pages ++ [page.output] }
  | .failed error =>
    Work.note 1 ("Error generating ".toList ++ page.name ++ ": ".toList ++ error.message)
    return { report with failures := Table.put page.name error.message report.failures }

def buildPages (report : Report) : List Page → Work Report
  | [] => return report
  | page :: rest => do buildPages (← site.buildPage report page) rest

/-- The build of the whole site. -/
def build : Work Report := do
  match site.problem? (← get).tree with
  | .error denial => throw (.denied denial)
  | .ok (some problem) => throw (.site problem)
  | .ok none =>
    site.prepare
    let (posts, failures) ← Post.collect site.settings site.compiler site.posts
    if posts = [] then
      Work.note 1 ("No ".toList ++ site.settings.templateExtension ++
        " post files found in ".toList ++ site.posts.toText)
      return { failures }
    else
      let report ← site.buildPages { posts, failures }
        (posts.map site.postPage ++ [site.indexPage posts])
      Work.note 1 ("Site build complete: ".toList ++ Text.ofNat report.pages.length ++
        " pages, ".toList ++ Text.ofNat report.failures.length ++ " failures".toList)
      return report

end Site

end KitTemplate
