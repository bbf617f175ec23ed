import KitTemplate.Proofs.Expansion.Displacement
import KitTemplate.Proofs.Source.Resumption

/-! Sources that are put together. Text in front of a source is copied and moves the source down by
its lines, as long as every directive that opens in the text is hidden. A directive is replaced, and
what stands behind its comment is expanded as a source of its own. -/

namespace KitTemplate

open Text

theorem Text.isInertBefore_of_not_isInfix {text : Text} (htext : ¬ commentOpen <:+: text)
    (more : Text) : text.IsInertBefore ('<' :: more) := by
  rintro before rest rfl hrest hbegins
  obtain ⟨gap, keyword, rfl, -⟩ :=
    Directive.begins_iff.1 (Directive.begins_of_append (Or.inl rfl) hrest hbegins)
  exact absurd ⟨before, gap ++ keyword, by simp⟩ htext

theorem Text.IsInert.isInertBefore {text : Text} (hinert : text.IsInert) (more : Text) :
    text.IsInertBefore ('<' :: more) := fun before rest htext hrest hbegins =>
  hinert before rest htext (Directive.begins_of_append (Or.inl rfl) hrest hbegins)

/-- A directive does not open across the end of a comment. -/
theorem Text.IsInert.isInertBefore_of_isComment {text : Text} (hinert : text.IsInert)
    (hcomment : text.IsComment) (following : Text) : text.IsInertBefore following := by
  obtain ⟨body, hbody, -⟩ := hcomment
  intro before rest htext hrest hbegins
  refine hinert before rest htext ?_
  obtain ⟨inner, last, rfl⟩ := (List.eq_nil_or_concat rest).resolve_left hrest
  have hlast : last = '>' := by
    have hsame := congrArg List.getLast? (htext.symm.trans hbody)
    simpa [commentClose] using hsame
  subst hlast
  rw [List.concat_eq_append, List.append_assoc] at hbegins
  rw [List.concat_eq_append]
  cases inner with
  | nil => cases hbegins
  | cons c inner =>
      have hinner := Directive.begins_of_append (Or.inr rfl) (List.cons_ne_nil c inner) hbegins
      exact Directive.begins_append hinner ['>']

/-- In a text that is not inert, there is a first directive that is not hidden. -/
theorem Text.exists_of_not_isInert {text : Text} (hinert : ¬ text.IsInert) :
    ∃ before rest, text = before ++ rest ∧ Directive.begins rest ∧ ¬ before.Hides ∧
      ∀ following, before.IsInertBefore (rest ++ following) := by
  have hseen : ∃ count, Directive.begins (text.drop count) ∧ ¬ Text.Hides (text.take count) := by
    by_contra hnone
    refine hinert fun before rest htext hbegins => ?_
    by_contra hhides
    refine hnone ⟨before.length, ?_⟩
    rw [htext, List.drop_left, List.take_left]
    exact ⟨hbegins, hhides⟩
  obtain ⟨hbegins, hhides⟩ := Nat.find_spec hseen
  refine ⟨text.take (Nat.find hseen), text.drop (Nat.find hseen),
    (List.take_append_drop _ text).symm, hbegins, hhides, fun following => ?_⟩
  -- a directive before the first one would be seen as well
  intro before inner hbefore hne hinner
  by_contra hseenBefore
  have hlength : before.length < Nat.find hseen := by
    have htake := congrArg List.length hbefore
    have hpos := List.length_pos_iff.2 hne
    rw [List.length_take, List.length_append] at htake
    omega
  refine Nat.find_min hseen hlength ?_
  have htext : text = before ++ (inner ++ text.drop (Nat.find hseen)) := by
    rw [← List.append_assoc, ← hbefore, List.take_append_drop]
  obtain ⟨gap, keyword, hrest, -⟩ := Directive.begins_iff.1 hbegins
  rw [hrest] at hinner
  have hopens := Directive.begins_of_append (Or.inl rfl) hne hinner
  constructor
  · rw [htext, List.drop_left]
    exact Directive.begins_append hopens _
  · rw [htext, List.take_left]
    exact hseenBefore

namespace Workplace

open Expansion

variable (place : Workplace)

/-- An outcome is that of a source, which stands some lines below the top of its file, with text in
front of what it yields. -/
def ExpandsBelow (expanding : Expanding) (lines : Int) (text : Text)
    (outcome : EStateM.Result Fault Context Text) : Prop :=
  Matches (place.MovesDown expanding lines)
    ((do return text ++ (← place.expandText expanding.file expanding.source) :
      Expansion Text).run expanding.context) outcome

variable {place} {importFile : Path → Expansion Text} {file : Path}

theorem concat_literals_append (tokens : List Token) (pieces : List Piece) :
    concat (place.expandPiece importFile file) (tokens.map .literal ++ pieces) = (do
      return tokens.flatten ++ (← concat (place.expandPiece importFile file) pieces)) := by
  induction tokens with
  | nil => simp
  | cons token tokens ih => simp [concat, expandPiece, ih]

theorem expandFrom_nil (line : Int) (file : Path) : place.expandFrom line file [] = pure [] := by
  have hnone : Cursor.pieces ⟨Token.split [], line⟩ = [] := Cursor.pieces_of_step?_eq_none rfl
  rw [expandFrom, hnone, concat]

theorem expandsBelow_of_eq {source rest text : Text} {lines : Int} {context start : Context}
    (hagrees : start.Agrees context)
    (heq : place.expandFrom 1 file source = do
      return text ++ (← place.expandFrom (1 + lines) file rest)) :
    place.ExpandsBelow ⟨file, rest, context⟩ lines text
      ((place.expandText file source).run start) := by
  obtain ⟨noted, hnoted, hrun⟩ := place.run_expandText file source start
  rw [hrun, heq]
  exact (matches_expandFrom ⟨file, rest, context⟩ lines (hnoted.trans hagrees)).bind
    fun _ _ _ _ => .ok

section Joints

variable {text following shared first : Text} {tokens more : List Token} {line : Int}
  (hinert : text.IsInertBefore following)
  (hjoint : Token.IsJoint text following tokens shared first more)

include hinert hjoint

theorem expandFrom_append_of_not_isInfix
    (hmeet : following.head? = some '<' ∨ text.getLast? = some '>')
    (hmark : ¬ commentOpen <:+: shared) :
    place.expandFrom line file (text ++ following) = do
      return text ++ (← place.expandFrom (line + lineBreaks text) file following) := by
  obtain ⟨begun, rest, hbegun, hpieces⟩ :=
    Cursor.pieces_append_of_not_isInfix hinert hjoint hmeet hmark line
  rw [expandFrom, expandFrom, hpieces, hbegun, concat_literals_append, ← hjoint.place]
  simp [concat, expandPiece]

theorem expandFrom_append_of_isInfix (hmark : commentOpen <:+: shared) :
    place.expandFrom line file (text ++ following) = do
      return text ++ first ++
        (← place.expandFrom (line + lineBreaks (text ++ first)) file more.flatten) := by
  have hbehind : Token.split following = [first] ++ more := hjoint.behind
  have hmore := Token.split_following hbehind
  rw [expandFrom, expandFrom, hmore, Cursor.pieces_append_of_isInfix hinert hjoint hmark,
    concat_literals_append, ← hjoint.place]
  simp

end Joints

/-- Text without a comment in front of one is copied. -/
theorem expandFrom_append_of_head? {text following : Text} (htext : ¬ commentOpen <:+: text)
    (hhead : following.head? = some '<') (line : Int) (file : Path) :
    place.expandFrom line file (text ++ following) = do
      return text ++ (← place.expandFrom (line + lineBreaks text) file following) := by
  obtain ⟨more, rfl⟩ := List.head?_eq_some_iff.1 hhead
  obtain ⟨tokens, shared, first, others, hjoint⟩ :=
    Token.exists_isJoint (List.cons_ne_nil '<' more) text
  have hshared : ¬ commentOpen <:+: shared := fun hmark =>
    htext (hmark.trans (hjoint.place ▸ List.suffix_append _ _).isInfix)
  exact expandFrom_append_of_not_isInfix (isInertBefore_of_not_isInfix htext more) hjoint
    (Or.inl rfl) hshared

/-- An inert text is copied. -/
theorem expandFrom_of_isInert {text : Text} (hinert : text.IsInert) (line : Int) (file : Path) :
    place.expandFrom line file text = pure text := by
  have hpieces := Cursor.pieces_of_isInert hinert line
  rw [expandFrom, hpieces, ← List.append_nil (List.map _ _), concat_literals_append,
    Token.flatten_split]
  simp [concat]

/-- A directive is replaced, and what stands behind it is expanded as a source of its own. -/
theorem expandFrom_of_pieces {file : Path} {source tail : Text} {line line' : Int}
    {directive : Directive} {rest : List Piece}
    (hpieces : Cursor.pieces ⟨Token.split source, line⟩ = .literal [] :: .directive directive :: rest)
    (hrest : rest = Cursor.pieces ⟨Token.split tail, line'⟩ ∨
      rest = .literal [] :: Cursor.pieces ⟨Token.split tail, line'⟩) :
    place.expandFrom line file source = do
      let text ← place.expandDirective place.compileFile file directive
      return text ++ (← place.expandFrom line' file tail) := by
  rw [expandFrom, expandFrom, hpieces]
  rcases hrest with rfl | rfl
  · simp [concat, expandPiece]
  · simp [concat, expandPiece]

/-- What a directive is replaced by depends on its comment alone. -/
theorem expandFrom_of_begins {comment : Text} (hcomment : comment.IsComment)
    (hbegins : Directive.begins comment) (file : Path) :
    ∃ keyword value, ∀ following line, ∃ directive : Directive,
      directive.keyword = keyword ∧ directive.value = value ∧ directive.line = line ∧
      (∃ rest, Cursor.pieces ⟨Token.split (comment ++ following), line⟩ =
        .literal [] :: .directive directive :: rest) ∧
      place.expandFrom line file (comment ++ following) = do
        let text ← place.expandDirective place.compileFile file directive
        return text ++ (← place.expandFrom (line + lineBreaks (comment ++ following.leadingBreak))
          file following.dropLineBreak) := by
  obtain ⟨keyword, value, hpieces⟩ := Cursor.pieces_of_begins hcomment hbegins
  refine ⟨keyword, value, fun following line => ?_⟩
  obtain ⟨directive, rest, hfound, hkeyword, hvalue, hline, hrest⟩ := hpieces following line
  exact ⟨directive, hkeyword, hvalue, hline, ⟨rest, hfound⟩, expandFrom_of_pieces hfound hrest⟩

/-- A source that begins with a directive fails in an import if the directive does. -/
theorem failsInImport_iff_of_pieces {expanding : Expanding} {directive : Directive}
    {rest : List Piece}
    (hpieces : Piece.ofSource expanding.source = .literal [] :: .directive directive :: rest)
    {noted ended : Context} (hnoted : noted.Agrees expanding.context) {own : Fault}
    (hrun : (place.expandDirective place.compileFile expanding.file directive).run noted =
      .error own ended) (fault : Fault) :
    place.FailsInImport expanding fault ↔
      place.DirectiveFailsInImport expanding.file directive noted fault := by
  have hempty : (place.expandPiece place.compileFile expanding.file (.literal [])).run noted =
    .ok [] noted := rfl
  have hdirective : (place.expandPiece place.compileFile expanding.file
    (.directive directive)).run noted = .error own ended := hrun
  rw [failsInImport_iff hnoted, hpieces,
    failsWithin_cons_of_ok (exists_of_pieceFailsInImport expanding.file) hempty,
    failsWithin_cons_of_error hdirective]
  constructor
  · rintro ⟨other, hother, hfails⟩
    obtain rfl := Piece.directive.inj hother
    exact hfails
  · exact fun hfails => ⟨directive, rfl, hfails⟩

/-- A source is expanded directive by directive. Text without a comment is copied, a directive
behind it is replaced, and the text behind that, without a line terminator right behind the comment,
is expanded as a source of its own in the context that the directive leaves. A directive that fails
by itself does so on the line on which it stands. -/
theorem expandText_decomposes (place : Workplace) (file : Path) {text comment : Text}
    (htext : ¬ commentOpen <:+: text) (hcomment : comment.IsComment)
    (hbegins : Directive.begins comment) (following : Text) (context : Context) :
    let whole := (place.expandText file (text ++ comment ++ following)).run context
    match (place.expandText file comment).run context with
    | .error fault ended => ∃ fault' ended', whole = .error fault' ended' ∧ ended'.Agrees ended ∧
        (place.FailsInImport ⟨file, comment, context⟩ fault → fault' = fault) ∧
        (¬ place.FailsInImport ⟨file, comment, context⟩ fault →
          fault.MovesTo Cause.Resembles 1 (1 + lineBreaks text) fault')
    | .ok replacement left =>
        place.ExpandsBelow ⟨file, following.dropLineBreak, left⟩
          (lineBreaks text + lineBreaks comment + lineBreaks following.leadingBreak)
          (text ++ replacement) whole := by
  intro whole
  obtain ⟨keyword, value, hfrom⟩ := place.expandFrom_of_begins hcomment hbegins file
  obtain ⟨alone, rfl, rfl, halone, ⟨rest, hpieces⟩, hcommentFrom⟩ := hfrom [] 1
  obtain ⟨placed, hkeyword, hvalue, hplaced, -, hplacedFrom⟩ :=
    hfrom following (1 + lineBreaks text)
  have hcommentFrom : place.expandFrom 1 file comment =
      place.expandDirective place.compileFile file alone := by
    rw [List.append_nil] at hcommentFrom
    rw [hcommentFrom]
    simp [dropLineBreak, expandFrom_nil]
  have hlines : (1 : Int) + lineBreaks text + lineBreaks (comment ++ following.leadingBreak) =
      1 + (lineBreaks text + lineBreaks comment + lineBreaks following.leadingBreak) := by
    obtain ⟨body, rfl, -⟩ := hcomment
    rw [lineBreaks_append (Cursor.not_cutsPair_commentClose _ _)]
    push_cast
    omega
  obtain ⟨noted, hnoted, hrun⟩ := place.run_expandText file comment context
  obtain ⟨noted', hnoted', hrun'⟩ :=
    place.run_expandText file (text ++ comment ++ following) context
  have hwhole : whole = (do
      let replacement ← place.expandDirective place.compileFile file placed
      let tail ← place.expandFrom
        (1 + (lineBreaks text + lineBreaks comment + lineBreaks following.leadingBreak)) file
        following.dropLineBreak
      return text ++ replacement ++ tail : Expansion Text).run noted' := by
    have hhead : (comment ++ following).head? = some '<' := by
      obtain ⟨body, rfl, -⟩ := hcomment
      rfl
    show (place.expandText file (text ++ comment ++ following)).run context = _
    rw [hrun', List.append_assoc, expandFrom_append_of_head? htext hhead, hplacedFrom, hlines]
    simp
  have hlike (cause : Cause) : cause.Resembles cause := rfl
  have hmatches : Matches (SameOr (place.DirectiveFailsInImport file alone noted)
        (Fault.MovesTo Cause.Resembles alone.line placed.line))
      ((place.expandDirective place.compileFile file alone).run noted)
      ((place.expandDirective place.compileFile file placed).run noted') :=
    matches_expandDirective hkeyword hvalue hlike rfl (hnoted'.trans hnoted.symm)
  rw [halone, hplaced] at hmatches
  rw [hrun, hcommentFrom, hwhole, EStateM.run_bind]
  generalize hfound : (place.expandDirective place.compileFile file alone).run noted = outcome
    at hmatches
  generalize (place.expandDirective place.compileFile file placed).run noted' = outcome'
    at hmatches
  cases hmatches with
  | ok hagrees =>
      exact (matches_expandFrom ⟨file, following.dropLineBreak, _⟩ _ hagrees).bind
        fun _ _ _ _ => .ok
  | error hlike hagrees =>
      rw [List.append_nil] at hpieces
      have himport := @failsInImport_iff_of_pieces place ⟨file, comment, context⟩ alone rest
        hpieces noted _ hnoted _ hfound
      exact ⟨_, _, rfl, hagrees, fun hfails => hlike.1 ((himport _).1 hfails),
        fun hfails => hlike.2 fun hdirective => hfails ((himport _).2 hdirective)⟩

/-- An assignment in the middle of a page. The line terminator behind it is dropped, and the
variable is used in what follows. -/
theorem expandText_decomposes_assignment :
    let place : Workplace := ⟨{ postsDirectory := ⟨.root, []⟩ }, (Workspace.ofFiles []).tree⟩
    let file : Path := ⟨.root, ["a.kit".toList]⟩
    ∃ left, (place.expandText file "<!-- $x 1 -->".toList).run {} = .ok [] left ∧
      place.ExpandsBelow ⟨file, "<!--$x-->c".toList, left⟩ 2 "a\n".toList
        ((place.expandText file "a\n<!-- $x 1 -->\r\n<!--$x-->c".toList).run {}) := by
  intro place file
  have hassigns : value? ((place.expandText file "<!-- $x 1 -->".toList).run {}) = some [] := by
    decide +kernel
  obtain ⟨left, hrun⟩ := exists_of_value? hassigns
  have htext : ¬ commentOpen <:+: "a\n".toList := by decide
  have hcomment : Text.IsComment "<!-- $x 1 -->".toList := ⟨" $x 1 ".toList, by decide, by decide⟩
  have hwhole := expandText_decomposes place file htext hcomment (by decide)
    "\r\n<!--$x-->c".toList {}
  rw [hrun] at hwhole
  exact ⟨left, hrun, hwhole⟩

/-- A directive behind an ordinary text is expanded, and the text is copied, unless an ordinary
comment opens before the directive in the same token. Then the token is copied with the beginning of
the directive in it, and expansion goes on behind the token. No directive is hidden behind text
without a comment or where a new token begins. -/
theorem expandText_ordinary_append (place : Workplace) (file : Path) {text following : Text}
    (hordinary : text.IsOrdinary) (hbegins : Directive.begins following) (context : Context) :
    let whole := (place.expandText file (text ++ following)).run context
    (¬ commentOpen <:+: text ∨ (∀ c ∈ text.getLast?, Token.endsAfter c (some '<')) →
        ¬ text.Hides) ∧
      (¬ text.Hides → place.ExpandsBelow ⟨file, following, context⟩ (lineBreaks text) text whole) ∧
      (text.Hides → ∃ first more, Token.split following = first :: more ∧
        place.ExpandsBelow ⟨file, more.flatten, context⟩ (lineBreaks (text ++ first))
          (text ++ first) whole) := by
  intro whole
  obtain ⟨gap, keyword, rfl, -⟩ := Directive.begins_iff.1 hbegins
  have hhead : (commentOpen ++ gap ++ keyword).head? = some '<' := rfl
  have hinert : text.IsInertBefore (commentOpen ++ gap ++ keyword) :=
    hordinary.isInert.isInertBefore _
  obtain ⟨tokens, shared, first, more, hjoint⟩ :=
    Token.exists_isJoint (List.ne_nil_of_mem (List.mem_of_mem_head? hhead)) text
  have hshared : Token.unended text = shared := Token.unended_of_isJoint hjoint hhead
  have hnone : ¬ commentOpen <:+: text ∨ (∀ c ∈ text.getLast?, Token.endsAfter c (some '<')) →
      ¬ text.Hides := by
    rintro (hmark | hends)
    · exact fun hhides => hmark hhides.isInfix
    · exact Text.not_hides_of_endsAfter hends
  refine ⟨hnone, ?_⟩
  rw [Text.Hides, hshared]
  refine ⟨fun hmark => ?_, fun hmark => ⟨first, more, hjoint.behind, ?_⟩⟩
  · exact expandsBelow_of_eq (.refl context)
      (expandFrom_append_of_not_isInfix hinert hjoint (Or.inl hhead) hmark)
  · exact expandsBelow_of_eq (.refl context) (expandFrom_append_of_isInfix hinert hjoint hmark)

/-- A directive directly behind an ordinary comment. -/
theorem expandText_ordinary_append_comment :
    let place : Workplace := ⟨{ postsDirectory := ⟨.root, []⟩ }, (Workspace.ofFiles []).tree⟩
    let file : Path := ⟨.root, ["a.kit".toList]⟩
    Text.IsOrdinary "<!--x-->".toList ∧ Directive.begins "<!--$x 1-->".toList ∧
      place.ExpandsBelow ⟨file, "<!--$x 1-->".toList, {}⟩ 0 "<!--x-->".toList
        ((place.expandText file "<!--x--><!--$x 1-->".toList).run {}) := by
  intro place file
  have hordinary : Text.IsOrdinary "<!--x-->".toList := by decide
  have hbegins : Directive.begins "<!--$x 1-->".toList := by decide
  have hhides : ¬ Text.Hides "<!--x-->".toList := by decide
  exact ⟨hordinary, hbegins,
    (expandText_ordinary_append place file hordinary hbegins {}).2.1 hhides⟩

/-- One character between an ordinary comment and a directive hides the directive. -/
theorem expandText_hides_directive :
    let place : Workplace := ⟨{ postsDirectory := ⟨.root, []⟩ }, (Workspace.ofFiles []).tree⟩
    let file : Path := ⟨.root, ["a.kit".toList]⟩
    let text := "<!--x-->b".toList
    let following := "<!--$x 1-->".toList
    Text.IsOrdinary text ∧
      (∀ rest ∈ text.tails, commentOpen <+: rest → commentClose <:+: rest) ∧
      Directive.begins following ∧
      value? ((place.expandText file following).run {}) = some [] ∧
      value? ((place.expandText file (text ++ following)).run {}) = some (text ++ following) ∧
      ∀ lines, ¬ place.ExpandsBelow ⟨file, following, {}⟩ lines text
        ((place.expandText file (text ++ following)).run {}) := by
  intro place file text following
  have halone : value? ((place.expandText file following).run {}) = some [] := by decide +kernel
  have hwhole : value? ((place.expandText file (text ++ following)).run {}) =
    some (text ++ following) := by decide +kernel
  refine ⟨by decide, by decide, by decide, halone, hwhole, fun lines hbelow => ?_⟩
  have hexpected : value? ((do return text ++ (← place.expandText file following) :
    Expansion Text).run {}) = some text := by decide +kernel
  have hvalue := hbelow.value?_eq
  rw [hwhole, hexpected] at hvalue
  exact absurd hvalue (by decide)

/-- An ordinary comment in which every directive is hidden is copied, and nothing in it is read. At
most the rest of its last token is copied with it, and that is no comment directly behind it. In any
other ordinary comment the first directive that is not hidden is read, and what stands before it is
copied. -/
theorem expandText_comment_append (place : Workplace) (file : Path) {comment : Text}
    (hcomment : comment.IsComment) (following : Text) (context : Context) :
    let whole := (place.expandText file (comment ++ following)).run context
    (comment.IsInert → ∃ copied rest, following = copied ++ rest ∧
        (copied = [] ∨
          following.head? ≠ some '<' ∧ (Token.split following).head? = some copied) ∧
        place.ExpandsBelow ⟨file, rest, context⟩ (lineBreaks (comment ++ copied))
          (comment ++ copied) whole) ∧
      (¬ comment.IsInert → ∃ before rest, comment = before ++ rest ∧ Directive.begins rest ∧
        ¬ before.Hides ∧
        place.ExpandsBelow ⟨file, rest ++ following, context⟩ (lineBreaks before) before
          whole) := by
  intro whole
  refine ⟨fun hinert => ?_, fun hinert => ?_⟩
  · have hlast : comment.getLast? = some '>' := by
      obtain ⟨body, rfl, -⟩ := hcomment
      simp [commentClose]
    by_cases hne : following = []
    · subst hne
      refine ⟨[], [], rfl, Or.inl rfl, ?_⟩
      have hfrom : place.expandFrom 1 file comment = (do
          return comment ++ (← place.expandFrom (1 + lineBreaks comment) file [])) := by
        rw [expandFrom_of_isInert hinert, expandFrom_nil, pure_bind, List.append_nil]
      have hbelow := expandsBelow_of_eq (.refl context) hfrom
      simpa [whole] using hbelow
    obtain ⟨tokens, shared, first, more, hjoint⟩ := Token.exists_isJoint hne comment
    have hbefore := hinert.isInertBefore_of_isComment hcomment following
    by_cases hmark : commentOpen <:+: shared
    · have hhead : following.head? ≠ some '<' := by
        intro hhead
        rw [← Token.unended_of_isJoint hjoint hhead] at hmark
        refine Text.not_hides_of_endsAfter (fun c hc => ?_) hmark
        rw [hlast] at hc
        obtain rfl := Option.some.inj hc
        rfl
      refine ⟨first, more.flatten, ?_, Or.inr ⟨hhead, by rw [hjoint.behind]; rfl⟩, ?_⟩
      · rw [← Token.flatten_split following, hjoint.behind, List.flatten_cons]
      · exact expandsBelow_of_eq (.refl context) (expandFrom_append_of_isInfix hbefore hjoint hmark)
    · refine ⟨[], following, rfl, Or.inl rfl, ?_⟩
      rw [List.append_nil]
      exact expandsBelow_of_eq (.refl context)
        (expandFrom_append_of_not_isInfix hbefore hjoint (Or.inr hlast) hmark)
  · obtain ⟨before, rest, rfl, hbegins, hhides, hbefore⟩ := Text.exists_of_not_isInert hinert
    refine ⟨before, rest, rfl, hbegins, hhides, ?_⟩
    obtain ⟨gap, keyword, rfl, -⟩ := Directive.begins_iff.1 hbegins
    have hhead : (commentOpen ++ gap ++ keyword ++ following).head? = some '<' := rfl
    obtain ⟨tokens, shared, first, more, hjoint⟩ :=
      Token.exists_isJoint (List.ne_nil_of_mem (List.mem_of_mem_head? hhead)) before
    rw [Text.Hides, Token.unended_of_isJoint hjoint hhead] at hhides
    have hwhole : before ++ (commentOpen ++ gap ++ keyword) ++ following =
        before ++ (commentOpen ++ gap ++ keyword ++ following) := List.append_assoc ..
    simp only [whole, hwhole]
    exact expandsBelow_of_eq (.refl context)
      (expandFrom_append_of_not_isInfix (hbefore following) hjoint (Or.inl hhead) hhides)

/-- A directive right behind the opening mark of a comment and a word is hidden in it. -/
theorem expandText_comment_append_hidden :
    let place : Workplace := ⟨{ postsDirectory := ⟨.root, []⟩ }, (Workspace.ofFiles []).tree⟩
    let file : Path := ⟨.root, ["a.kit".toList]⟩
    Text.IsComment "<!--a<!--$x 1-->".toList ∧
      ∃ copied rest, " b".toList = copied ++ rest ∧
        (copied = [] ∨ " b".toList.head? ≠ some '<' ∧
          (Token.split " b".toList).head? = some copied) ∧
        place.ExpandsBelow ⟨file, rest, {}⟩
          (lineBreaks ("<!--a<!--$x 1-->".toList ++ copied)) ("<!--a<!--$x 1-->".toList ++ copied)
          ((place.expandText file "<!--a<!--$x 1--> b".toList).run {}) := by
  intro place file
  have hcomment : Text.IsComment "<!--a<!--$x 1-->".toList :=
    ⟨"a<!--$x 1".toList, by decide, by decide⟩
  have hinert : Text.IsInert "<!--a<!--$x 1-->".toList := by decide
  exact ⟨hcomment, (expandText_comment_append place file hcomment " b".toList {}).1 hinert⟩

/-- A blank in front of a directive within an ordinary comment is enough for the directive to be
read. -/
theorem expandText_reads_comment :
    let place : Workplace := ⟨{ postsDirectory := ⟨.root, []⟩ }, (Workspace.ofFiles []).tree⟩
    let file : Path := ⟨.root, ["a.kit".toList]⟩
    let comment := "<!-- a <!--$x 1-->".toList
    Text.IsComment comment ∧ ¬ Directive.begins comment ∧
      ∃ text ended, (place.expandText file (comment ++ " b".toList)).run {} = .ok text ended ∧
        ¬ comment <+: text ∧ ended.bindings.lookup "$x".toList = some "1".toList := by
  intro place file comment
  have hwhole : value? ((do
      let text ← place.expandText file (comment ++ " b".toList)
      return (text, (← get).bindings) : Expansion (Text × List (Text × Text))).run {}) =
    some ("<!-- a  b".toList, [("$x".toList, "1".toList)]) := by decide +kernel
  refine ⟨⟨" a <!--$x 1".toList, by decide, by decide⟩, by decide, ?_⟩
  obtain ⟨left, hrun⟩ := exists_of_value? hwhole
  obtain ⟨text, ended, htext, hget⟩ := (run_bind_eq_ok _).1 hrun
  obtain ⟨hpair, -⟩ := EStateM.Result.ok.inj hget
  obtain ⟨rfl, hbindings⟩ := Prod.mk.inj hpair
  have hlookup : ended.bindings.lookup "$x".toList = some "1".toList := by
    rw [show ended.bindings = _ from hbindings]
    decide
  exact ⟨_, ended, htext, by decide, hlookup⟩

end Workplace

end KitTemplate
