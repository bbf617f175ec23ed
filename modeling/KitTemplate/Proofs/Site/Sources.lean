import KitTemplate.Proofs.Path.Naming
import KitTemplate.Proofs.Source.Comment
import KitTemplate.Proofs.Source.Ordinary
import KitTemplate.Site.Build

/-! Sources of pages. The source of a page is made of directives only: it assigns the variables of
the page, each with a line terminator behind it, and imports the template of its kind. An assignment
is read back as it was written if its value is verbatim. The list of posts is, but for its last line
terminator, as long as no closing mark stands in a title or in a slug, since the text between those
keeps closing marks apart. -/

namespace KitTemplate

open Text

namespace Site

/-- A name that a page may assign a value to. -/
structure IsVariableName (name : Text) : Prop where
  whole : Token.IsWhole (commentOpen ++ '$' :: name ++ [' '])
  starts : Keyword.startsText ('$' :: name)
  unended : ∀ c ∈ name, ¬ Keyword.endsKeyword c
  unmarked : ¬ commentClose <:+: '$' :: name ++ [' ']
  free : Registry.standard.find ('$' :: name) = Registry.variableForm

theorem not_endsKeyword_of_all {name : Text} (hname : name.all (!Keyword.endsKeyword ·)) :
    ∀ c ∈ name, ¬ Keyword.endsKeyword c := by
  simpa using hname

theorem isVariableName_of_mem {name : Text}
    (hname : name ∈ ["postTitle".toList, "postFile".toList, "postList".toList]) :
    IsVariableName name := by
  refine ⟨?_, ?_, not_endsKeyword_of_all ?_, ?_, ?_⟩ <;> revert name <;> decide +kernel

theorem assignment_eq (name value : Text) : assignment name value =
    commentOpen ++ ('$' :: name ++ [' ']) ++ value ++ commentClose ++ ['\n'] := by
  have hopen : "<!--$".toList = commentOpen ++ ['$'] := by decide
  have hclose : "-->\n".toList = commentClose ++ ['\n'] := by decide
  calc assignment name value
      = commentOpen ++ ['$'] ++ name ++ [' '] ++ value ++ (commentClose ++ ['\n']) :=
        congrArg₂ (fun opening closing => opening ++ name ++ [' '] ++ value ++ closing) hopen hclose
    _ = _ := by simp only [List.append_assoc, List.cons_append, List.nil_append]

/-- The tokens of a source that begins with an assignment. -/
theorem split_assignment {name : Text} (hname : IsVariableName name) (value rest : Text) :
    Token.split (assignment name value ++ rest) =
      (commentOpen ++ ('$' :: name ++ [' '])) ::
        (Token.split (value ++ (commentClose ++ ['\n'])) ++ Token.split rest) := by
  have hlead : Token.split (commentOpen ++ '$' :: name ++ [' ']) =
      [commentOpen ++ ('$' :: name ++ [' '])] := by
    rw [Token.split_of_isWhole (by simp) hname.whole, List.append_assoc]
  calc Token.split (assignment name value ++ rest)
      = Token.split (commentOpen ++ '$' :: name ++
          ' ' :: (value ++ commentClose ++ '\n' :: rest)) := by
        simp only [assignment_eq, List.append_assoc, List.nil_append, List.cons_append]
    _ = Token.split (commentOpen ++ '$' :: name ++ [' ']) ++
          (Token.split (value ++ commentClose ++ ['\n']) ++ Token.split rest) := by
        rw [Token.split_append_of_ends rfl (commentOpen ++ '$' :: name),
          Token.split_append_of_ends rfl (value ++ commentClose)]
    _ = _ := by
        rw [hlead]
        simp only [List.append_assoc, List.nil_append, List.cons_append]

/-- The pieces of a source that begins with an assignment. Blanks behind the value are lost. -/
theorem pieces_of_assignment {name value gap : Text} (hname : IsVariableName name)
    (hvalue : Directive.IsVerbatim value) (hgap : ∀ c ∈ gap, isBlank c)
    (hunmarked : ¬ commentClose <:+: value ++ gap) (rest : Text) (line : Int) :
    ∃ directive : Directive,
      Cursor.pieces ⟨Token.split (assignment name (value ++ gap) ++ rest), line⟩ =
        .literal [] :: .directive directive :: .literal [] ::
          Cursor.pieces ⟨Token.split rest, line + lineBreaks (assignment name (value ++ gap))⟩ ∧
      directive.keyword = '$' :: name ∧ directive.value = some value ∧ directive.line = line := by
  have htokens : Token.split (assignment name (value ++ gap) ++ rest) =
      (commentOpen ++ ('$' :: name ++ [' '])) ::
        ([] ++ (Token.split (value ++ gap ++ (commentClose ++ ['\n'])) ++ Token.split rest)) :=
    split_assignment hname (value ++ gap) rest
  have hmeet : ('$' :: name ++ [' ']).getLast? ≠ some '-' := by
    rw [List.getLast?_concat]
    decide
  have hsigil : Keyword.isSigil '$' := by decide
  have hbreak : isLineBreak ['\n'] := by decide
  have hlast : Token.IsWhole (commentClose ++ ['\n']) := by decide
  have hopens (following : List Token) :
      Directive.opensAt (commentOpen ++ ('$' :: name ++ [' '])) ([] ++ following) := by
    have hrest : Keyword.startsText ('$' :: name ++ [' ']) :=
      Keyword.startsText_append hname.starts _
    rw [Directive.opensAt, List.drop_left, hrest]
    rfl
  have hbody : Keyword.ofBody? ('$' :: name ++ [' '] ++ [].flatten ++ (value ++ gap)) =
      some ('$' :: name, some value) := by
    have hread := hvalue.ofBody? (List.forall_mem_nil _) hgap hsigil hname.unended
    simpa using hread
  have hcomment := Cursor.pieces_of_comment [] (Token.split rest) (Or.inr hbreak) hlast hopens hbody
    (by
      rw [List.flatten_nil, List.append_nil]
      exact not_isInfix_append hname.unmarked hunmarked (Or.inl hmeet)) line
  rw [htokens, assignment_eq]
  simpa only [List.flatten_nil, List.append_nil] using hcomment

/-- The entry of an import list that names the template of a kind of page. -/
def templateSpec (site : Site) (kind : Text) : Text :=
  site.settings.templatesDirectory ++ '/' :: (kind ++ site.settings.templateExtension)

/-- The template of a kind of page is imported by its name: its directory and its file have plain
names, and the two make up an entry of an import list that is taken as it is written. -/
structure ImportsByName (site : Site) (kind : Text) : Prop where
  directory : Path.IsPlain site.settings.templatesDirectory
  file : Path.IsPlain (kind ++ site.settings.templateExtension)
  verbatim : Directive.IsVerbatim (site.templateSpec kind)
  single : ',' ∉ site.templateSpec kind
  clean : Import.clean (site.templateSpec kind) = site.templateSpec kind

variable {site : Site} {kind : Text}

theorem templateImport_eq (site : Site) (kind : Text) : site.templateImport kind =
    commentOpen ++ [' '] ++ ('@' :: "import".toList ++ [' ']) ++ (site.templateSpec kind ++ [' ']) ++
      commentClose := by
  have hopen : "<!-- @import ".toList =
      commentOpen ++ [' '] ++ ('@' :: "import".toList ++ [' ']) := by decide
  have hclose : " -->".toList = [' '] ++ commentClose := by decide
  calc site.templateImport kind
      = commentOpen ++ [' '] ++ ('@' :: "import".toList ++ [' ']) ++
          site.settings.templatesDirectory ++ ['/'] ++ kind ++ site.settings.templateExtension ++
          ([' '] ++ commentClose) :=
        congrArg₂ (fun opening closing => opening ++ site.settings.templatesDirectory ++ ['/'] ++
          kind ++ site.settings.templateExtension ++ closing) hopen hclose
    _ = _ := by simp only [templateSpec, List.append_assoc, List.cons_append, List.nil_append]

/-- The tokens of the directive that imports a template. -/
theorem split_templateImport (site : Site) (kind : Text) :
    Token.split (site.templateImport kind) =
      (commentOpen ++ [' ']) :: ('@' :: "import".toList ++ [' ']) ::
        Token.split (site.templateSpec kind ++ [' '] ++ commentClose) := by
  have hlead : Token.split (commentOpen ++ [' '] ++ ('@' :: "import".toList ++ [' '])) =
      [commentOpen ++ [' '], '@' :: "import".toList ++ [' ']] := by decide +kernel
  calc Token.split (site.templateImport kind)
      = Token.split (commentOpen ++ [' '] ++ ('@' :: "import".toList) ++
          ' ' :: (site.templateSpec kind ++ [' '] ++ commentClose)) := by
        simp only [templateImport_eq, List.append_assoc, List.cons_append, List.nil_append]
    _ = Token.split (commentOpen ++ [' '] ++ ('@' :: "import".toList ++ [' '])) ++
          Token.split (site.templateSpec kind ++ [' '] ++ commentClose) := by
        rw [Token.split_append_of_ends rfl (commentOpen ++ [' '] ++ '@' :: "import".toList),
          List.append_assoc (commentOpen ++ [' '])]
    _ = _ := by
        rw [hlead]
        rfl

/-- The keyword of an import stands in the second token, behind a blank. -/
theorem opensAt_import (following : List Token) : Directive.opensAt (commentOpen ++ [' '])
    (['@' :: "import".toList ++ [' ']] ++ following) := by
  have hkeyword : Keyword.startsText ('@' :: "import".toList ++ [' ']) := by decide +kernel
  have hword : ¬ isLayoutRun ('@' :: "import".toList ++ [' ']) := by decide +kernel
  have hgap : isLayoutRun [' '] := by decide
  rw [Directive.opensAt, List.drop_left, List.singleton_append,
    List.dropWhile_cons_of_neg hword, List.head?_cons, Option.any_some, hkeyword, hgap]
  simp

/-- The pieces of the directive that imports a template. -/
theorem pieces_of_templateImport (himports : site.ImportsByName kind) (line : Int) :
    ∃ directive : Directive,
      Cursor.pieces ⟨Token.split (site.templateImport kind), line⟩ =
        [.literal [], .directive directive, .literal []] ∧
      directive.keyword = "@import".toList ∧ directive.value = some (site.templateSpec kind) ∧
      directive.line = line := by
  have himport : "@import".toList = '@' :: "import".toList := by decide
  have htokens : Token.split (site.templateImport kind) = (commentOpen ++ [' ']) ::
      (['@' :: "import".toList ++ [' ']] ++
        (Token.split (site.templateSpec kind ++ [' '] ++ (commentClose ++ [])) ++ [])) := by
    rw [split_templateImport, List.append_nil, List.append_nil]
    rfl
  have hblank : ∀ c ∈ [' '], isBlank c := List.forall_mem_singleton.2 rfl
  have hsigil : Keyword.isSigil '@' := by decide
  have hunended : ∀ c ∈ "import".toList, ¬ Keyword.endsKeyword c :=
    not_endsKeyword_of_all (by decide +kernel)
  have hbody : Keyword.ofBody? ([' '] ++ [('@' :: "import".toList ++ [' '])].flatten ++
      (site.templateSpec kind ++ [' '])) =
        some ('@' :: "import".toList, some (site.templateSpec kind)) := by
    have hread := himports.verbatim.ofBody? hblank hblank hsigil hunended
    simpa only [List.flatten_cons, List.flatten_nil, List.append_nil, List.append_assoc,
      List.cons_append, List.nil_append] using hread
  have hunmarked : ¬ commentClose <:+: [' '] ++ [('@' :: "import".toList ++ [' '])].flatten ++
      (site.templateSpec kind ++ [' ']) := by
    refine not_isInfix_append (by decide +kernel)
      (not_isInfix_append himports.verbatim.unmarked (by decide) (Or.inr (by decide))) ?_
    exact Or.inl (by decide +kernel)
  obtain ⟨directive, hpieces, hkeyword, hvalue, hline⟩ := Cursor.pieces_of_comment
    ['@' :: "import".toList ++ [' ']] [] (Or.inl rfl) (by decide) opensAt_import hbody hunmarked
    line
  refine ⟨directive, ?_, hkeyword.trans himport.symm, hvalue, hline⟩
  rw [htokens, hpieces, Cursor.pieces_of_step?_eq_none rfl]

/-! ### The list of posts -/

/-- A text that a mark neither reaches into nor out of. -/
structure Separates (text : Text) : Prop where
  unmarked : ¬ commentClose <:+: text
  nonempty : text ≠ []
  first : text.head? ≠ some '-' ∧ text.head? ≠ some '>'
  last : text.getLast? ≠ some '-'

theorem Separates.around {before text after : Text} (hbefore : Separates before)
    (htext : ¬ commentClose <:+: text) (hafter : Separates after) :
    Separates (before ++ text ++ after) where
  unmarked := by
    rw [List.append_assoc]
    refine not_isInfix_append hbefore.unmarked ?_ (Or.inl hbefore.last)
    exact not_isInfix_append htext hafter.unmarked (Or.inr hafter.first)
  nonempty := List.append_ne_nil_of_right_ne_nil _ hafter.nonempty
  first := by
    obtain ⟨c, rest, rfl⟩ := List.exists_cons_of_ne_nil hbefore.nonempty
    exact hbefore.first
  last := by
    rw [List.getLast?_append_of_ne_nil _ hafter.nonempty]
    exact hafter.last

/-- A mark in the entry of a post stands in the title or in the slug. -/
theorem separates_listEntry {post : Post} (htitle : ¬ commentClose <:+: post.title)
    (hslug : ¬ commentClose <:+: post.slug) : Separates (listEntry post) := by
  have hopening : Separates "<h2><a href=\"".toList := by constructor <;> decide +kernel
  have hmiddle : Separates "/\">".toList := by constructor <;> decide +kernel
  have hclosing : Separates "</a></h2>\n".toList := by constructor <;> decide +kernel
  exact (hopening.around hslug hmiddle).around htitle hclosing

theorem not_isInfix_listEntries {posts : List Post}
    (hposts : ∀ post ∈ posts, ¬ commentClose <:+: post.title ∧ ¬ commentClose <:+: post.slug) :
    ¬ commentClose <:+: posts.flatMap listEntry := by
  induction posts with
  | nil => decide
  | cons post rest ih =>
      obtain ⟨⟨htitle, hslug⟩, hrest⟩ := List.forall_mem_cons.1 hposts
      have hentry := separates_listEntry htitle hslug
      exact not_isInfix_append hentry.unmarked (ih hrest) (Or.inl hentry.last)

theorem exists_listEntry (post : Post) : ∃ inner, listEntry post = '<' :: inner ++ ['>', '\n'] := by
  have hopening : "<h2><a href=\"".toList = '<' :: "h2><a href=\"".toList := by decide +kernel
  have hclosing : "</a></h2>\n".toList = "</a></h2".toList ++ ['>', '\n'] := by decide +kernel
  refine ⟨"h2><a href=\"".toList ++ post.slug ++ "/\">".toList ++ post.title ++ "</a></h2".toList, ?_⟩
  calc listEntry post
      = '<' :: "h2><a href=\"".toList ++ post.slug ++ "/\">".toList ++ post.title ++
          ("</a></h2".toList ++ ['>', '\n']) :=
        congrArg₂ (fun opening closing => opening ++ post.slug ++ "/\">".toList ++ post.title ++
          closing) hopening hclosing
    _ = _ := by simp only [List.append_assoc, List.cons_append]

/-- The list of posts ends with one line terminator and has no other blanks around it. -/
theorem exists_listEntries {posts : List Post} (hposts : posts ≠ []) :
    ∃ inner, posts.flatMap listEntry = '<' :: inner ++ ['>', '\n'] := by
  induction posts with
  | nil => exact absurd rfl hposts
  | cons post rest ih =>
      obtain ⟨inner, hentry⟩ := exists_listEntry post
      by_cases hrest : rest = []
      · exact ⟨inner, by rw [hrest, List.flatMap_cons, hentry, List.flatMap_nil, List.append_nil]⟩
      · obtain ⟨more, hmore⟩ := ih hrest
        refine ⟨inner ++ ['>', '\n'] ++ '<' :: more, ?_⟩
        rw [List.flatMap_cons, hentry, hmore]
        simp only [List.append_assoc, List.cons_append]

end Site

end KitTemplate
