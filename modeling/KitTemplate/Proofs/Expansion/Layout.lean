import KitTemplate.Proofs.Expansion.Decomposition

/-! The layout of a comment. Between the marks of a directive and its body there may be layout
characters; with more of them the comment falls into other tokens and may reach over more lines, but
the same keyword and value are read from it (`Keyword.ofBody?_append_gaps`). So two layouts of a
directive expand alike, and all that moves is what stands behind the comment, by the lines that the
one comment has more than the other. -/

namespace KitTemplate

open Text

namespace Text

/-- What stands behind a comment moves by the lines that the comment gains. -/
theorem lineBreaks_layout (body body' following : Text) (line : Int) :
    line + lineBreaks (commentOpen ++ body' ++ commentClose ++ following) =
      line + lineBreaks (commentOpen ++ body ++ commentClose ++ following) +
        (lineBreaks (commentOpen ++ body' ++ commentClose) -
          lineBreaks (commentOpen ++ body ++ commentClose)) := by
  rw [lineBreaks_append (Cursor.not_cutsPair_commentClose _ _),
    lineBreaks_append (Cursor.not_cutsPair_commentClose _ _)]
  omega

end Text

/-- A comment is a directive if its body begins like a keyword behind a gap. -/
theorem Directive.begins_of_startsText {gap body : Text} (hgap : ∀ c ∈ gap, isLayout c)
    (hstarts : Keyword.startsText body) (more : Text) :
    begins (commentOpen ++ (gap ++ body ++ more)) := by
  refine begins_iff.2 ⟨gap, body ++ more, ?_, hgap, Keyword.startsText_append hstarts more⟩
  simp only [List.append_assoc]

namespace Workplace

open Expansion

variable {place : Workplace} {directive : Directive}

/-- Directives of one keyword and value expand alike. Those without a value cite their comments in
their faults. -/
theorem matches_expandDirective_of_eq {directive' : Directive} (place : Workplace) (file : Path)
    (hkeyword : directive'.keyword = directive.keyword) (hvalue : directive'.value = directive.value)
    {context context' : Context} (hagrees : context'.Agrees context) :
    Matches (SameOr (place.DirectiveFailsInImport file directive context)
        (Fault.MovesTo Cause.Resembles directive.line directive'.line))
      ((place.expandDirective place.compileFile file directive).run context)
      ((place.expandDirective place.compileFile file directive').run context') := by
  have hlike (cause : Cause) : cause.Resembles cause := rfl
  exact matches_expandDirective hkeyword hvalue hlike rfl hagrees

/-- A source that begins with a directive fails in an import behind it if what stands there does,
in the context that the directive leaves. -/
theorem failsInImport_iff_behind (expanding : Expanding) {rest : List Piece} {tail : Text}
    {line : Int}
    (hpieces : Piece.ofSource expanding.source = .literal [] :: .directive directive :: rest)
    (hrest : rest = Cursor.pieces ⟨Token.split tail, line⟩ ∨
      rest = .literal [] :: Cursor.pieces ⟨Token.split tail, line⟩)
    {noted reached : Context} (hnoted : noted.Agrees expanding.context) {text : Text}
    (hrun : (place.expandDirective place.compileFile expanding.file directive).run noted =
      .ok text reached) (fault : Fault) :
    place.FailsInImport expanding fault ↔
      FailsWithin (place.expandPiece place.compileFile expanding.file)
        (place.PieceFailsInImport expanding.file) (Cursor.pieces ⟨Token.split tail, line⟩) reached
        fault := by
  have hempty (context : Context) : (place.expandPiece place.compileFile expanding.file
    (.literal [])).run context = .ok [] context := rfl
  have hdirective : (place.expandPiece place.compileFile expanding.file
    (.directive directive)).run noted = .ok text reached := hrun
  have hfails := @exists_of_pieceFailsInImport place expanding.file
  rw [failsInImport_iff hnoted, hpieces, failsWithin_cons_of_ok hfails (hempty noted),
    failsWithin_cons_of_ok hfails hdirective]
  rcases hrest with rfl | rfl
  · rfl
  · rw [failsWithin_cons_of_ok hfails (hempty reached)]

/-- A comment with nothing behind it is a matter of its directive. -/
theorem run_expandText_of_ofBody? (place : Workplace) {body keyword : Text} {value : Option Text}
    (hunmarked : ¬ commentClose <:+: body) (hbody : Keyword.ofBody? body = some (keyword, value))
    (hbegins : Directive.begins (commentOpen ++ body ++ commentClose)) (file : Path)
    (context : Context) : ∃ (directive : Directive) (noted : Context),
      directive.keyword = keyword ∧ directive.value = value ∧ noted.Agrees context ∧
      (place.expandText file (commentOpen ++ body ++ commentClose)).run context =
        (place.expandDirective place.compileFile file directive).run noted := by
  obtain ⟨directive, rest, hpieces, hkeyword, hvalue, -, hrest⟩ :=
    Cursor.pieces_of_ofBody? hunmarked hbody hbegins [] 1
  obtain ⟨noted, hnoted, hrun⟩ :=
    place.run_expandText file (commentOpen ++ body ++ commentClose) context
  refine ⟨directive, noted, hkeyword, hvalue, hnoted, ?_⟩
  have hfrom := @expandFrom_of_pieces place file _ _ _ _ _ _ hpieces hrest
  rw [List.append_nil] at hfrom
  rw [hrun, hfrom]
  simp [dropLineBreak, expandFrom_nil]

/-- What becomes of the fault of a source that begins with a comment, if other work is done in place
of its directive and what stands behind it is moved by some lines. A fault in an imported template
stays as it is, one of the directive itself is related to that of the other work, and one of what
stands behind the comment moves. -/
def FollowsLayout (place : Workplace) (own : Fault → Fault → Prop) (file : Path)
    (comment following : Text) (context : Context) (lines : Int) : Fault → Fault → Prop :=
  SameOr (place.FailsInImport ⟨file, comment ++ following, context⟩) fun fault fault' =>
    match (place.expandText file comment).run context with
    | .error _ _ => own fault fault'
    | .ok _ _ => ∃ line, fault.MovesTo Eq line (line + lines) fault'

/-- Nothing becomes of a fault if nothing moves. -/
theorem FollowsLayout.eq {place : Workplace} {file : Path} {comment following : Text}
    {context : Context} {fault fault' : Fault}
    (hfollows : place.FollowsLayout Eq file comment following context 0 fault fault') :
    fault = fault' := by
  by_cases himport : place.FailsInImport ⟨file, comment ++ following, context⟩ fault
  · exact (hfollows.1 himport).symm
  · have hlike := hfollows.2 himport
    split at hlike
    · exact hlike
    · obtain ⟨line, hmoves⟩ := hlike
      rw [Int.add_zero] at hmoves
      exact hmoves.eq.symm

/-- A source does other work in place of the directive with which one begins, and goes on like that
one some lines further down. -/
theorem matches_followsLayout {own : Fault → Fault → Prop} {body keyword : Text}
    {value : Option Text} (hunmarked : ¬ commentClose <:+: body)
    (hbody : Keyword.ofBody? body = some (keyword, value))
    (hbegins : Directive.begins (commentOpen ++ body ++ commentClose)) (file : Path)
    (following : Text) (context : Context) {source : Text} {work : Expansion Text} {lines : Int}
    (hsource : place.expandFrom 1 file source = do
      let text ← work
      return text ++ (← place.expandFrom
        (1 + lineBreaks (commentOpen ++ body ++ commentClose ++ following.leadingBreak) + lines) file
        following.dropLineBreak))
    (hwork : ∀ directive : Directive, directive.keyword = keyword → directive.value = value →
      directive.line = 1 → ∀ context context', context'.Agrees context →
        Matches (SameOr (place.DirectiveFailsInImport file directive context) own)
          ((place.expandDirective place.compileFile file directive).run context)
          (work.run context')) :
    Matches
      (place.FollowsLayout own file (commentOpen ++ body ++ commentClose) following context lines)
      ((place.expandText file (commentOpen ++ body ++ commentClose ++ following)).run context)
      ((place.expandText file source).run context) := by
  obtain ⟨directive, rest, hpieces, hkeyword, hvalue, hline, hrest⟩ :=
    Cursor.pieces_of_ofBody? hunmarked hbody hbegins following 1
  obtain ⟨alone, noted₀, hkeyword₀, hvalue₀, hnoted₀, halone⟩ :=
    place.run_expandText_of_ofBody? hunmarked hbody hbegins file context
  obtain ⟨noted, hnoted, hrun⟩ := place.run_expandText file
    (commentOpen ++ body ++ commentClose ++ following) context
  obtain ⟨noted', hnoted', hrun'⟩ := place.run_expandText file source context
  -- the comment alone fails if and only if it fails in front of what follows
  have hsame := place.matches_expandDirective_of_eq file (hkeyword₀.trans hkeyword.symm)
    (hvalue₀.trans hvalue.symm) (hnoted₀.trans hnoted.symm)
  rw [hrun, hrun', expandFrom_of_pieces hpieces hrest, hsource]
  refine ((hwork directive hkeyword hvalue hline _ _ (hnoted'.trans hnoted.symm)).mono
    fun fault ended fault' hfails hlike => ?_).bind fun text reached reached' hreplaced hreached => ?_
  · rw [hfails, ← halone] at hsame
    obtain ⟨own, left, hfailed, -⟩ := hsame.of_error
    have himport := @failsInImport_iff_of_pieces place ⟨file, _, context⟩ directive rest hpieces
      noted _ hnoted _ hfails
    rw [FollowsLayout, hfailed, SameOr, himport]
    exact hlike
  · rw [hreplaced, ← halone] at hsame
    obtain ⟨left, hdone, -⟩ := hsame.of_ok
    refine ((matches_expandFrom_raise _ lines file following.dropLineBreak hreached).mono
      fun fault ended fault' _ hlike => ?_).bind fun _ _ _ _ => .ok
    rw [FollowsLayout, hdone, SameOr,
      failsInImport_iff_behind ⟨file, _, context⟩ hpieces hrest hnoted hreplaced]
    exact hlike

/-- A directive may be laid out in any way between the marks of its comment. A fault of the
directive itself keeps its line, which is the first one. -/
theorem expandText_layout (place : Workplace) (file : Path) {body gap gap' : Text}
    (hstarts : Keyword.startsText body) (hunmarked : ¬ commentClose <:+: body)
    (hgap : ∀ c ∈ gap, isLayout c) (hgap' : ∀ c ∈ gap', isLayout c) (following : Text)
    (context : Context) :
    let compact := commentOpen ++ body ++ commentClose
    let spaced := commentOpen ++ (gap ++ body ++ gap') ++ commentClose
    Matches (place.FollowsLayout (Fault.MovesTo Cause.Resembles 1 1) file compact following context
        (lineBreaks spaced - lineBreaks compact))
      ((place.expandText file (compact ++ following)).run context)
      ((place.expandText file (spaced ++ following)).run context) := by
  intro compact spaced
  have hblank {gap : Text} (hgap : ∀ c ∈ gap, isLayout c) : ∀ c ∈ gap, isBlank c := fun c hc =>
    isBlank_of_isAsciiBlank (isAsciiBlank_of_isLayout (hgap c hc))
  have hcompact : Directive.begins compact := by
    have hbegins := Directive.begins_of_startsText (List.forall_mem_nil _) hstarts commentClose
    simpa [compact] using hbegins
  have hspaced : Directive.begins spaced := by
    have hbegins := Directive.begins_of_startsText hgap hstarts (gap' ++ commentClose)
    simpa [spaced] using hbegins
  -- the same keyword and value are read from both comments
  obtain ⟨⟨keyword, value⟩, hbody⟩ := Option.isSome_iff_exists.1
    (Keyword.isSome_ofBody? (by rwa [List.append_nil] : Directive.begins (compact ++ [])))
  have hunmarked' : ¬ commentClose <:+: gap ++ body ++ gap' := by
    have hdash {gap : Text} (hgap : ∀ c ∈ gap, isLayout c) : '-' ∉ gap ∧ '>' ∉ gap :=
      ⟨fun hc => absurd (hgap _ hc) (by decide), fun hc => absurd (hgap _ hc) (by decide)⟩
    exact not_isInfix_append_gaps (hdash hgap).1 (hdash hgap') hunmarked
  have hbody' : Keyword.ofBody? (gap ++ body ++ gap') = some (keyword, value) := by
    rw [Keyword.ofBody?_append_gaps (hblank hgap) (hblank hgap'), hbody]
  obtain ⟨directive', rest', hpieces', hkeyword', hvalue', hline', hrest'⟩ :=
    Cursor.pieces_of_ofBody? hunmarked' hbody' hspaced following 1
  refine matches_followsLayout hunmarked hbody hcompact file following context
    (?_ : place.expandFrom 1 file (spaced ++ following) = do
      let text ← place.expandDirective place.compileFile file directive'
      return text ++ (← place.expandFrom _ file following.dropLineBreak)) ?_
  · rw [← lineBreaks_layout body (gap ++ body ++ gap')]
    exact expandFrom_of_pieces hpieces' hrest'
  · intro directive hkeyword hvalue hline context context' hagrees
    have hmatches := place.matches_expandDirective_of_eq file (hkeyword'.trans hkeyword.symm)
      (hvalue'.trans hvalue.symm) hagrees
    rwa [hline, hline'] at hmatches

/-- A comment that reaches over three lines. The variable behind it is missed two lines further
down. -/
theorem expandText_layout_lines :
    let place : Workplace := ⟨{ postsDirectory := ⟨.root, []⟩ }, (Workspace.ofFiles []).tree⟩
    let file : Path := ⟨.root, ["a.kit".toList]⟩
    let compact := "<!--$x 1-->".toList
    let spaced := "<!--\r\n\t$x 1 \n-->".toList
    let following := "\n<!--$y-->".toList
    Matches (place.FollowsLayout (Fault.MovesTo Cause.Resembles 1 1) file compact following {} 2)
        ((place.expandText file (compact ++ following)).run {})
        ((place.expandText file (spaced ++ following)).run {}) ∧
      value? ((place.expandText file (compact ++ following)).run {}) = none := by
  intro place file compact spaced following
  have hstarts : Keyword.startsText "$x 1".toList := by decide
  have hunmarked : ¬ commentClose <:+: "$x 1".toList := by decide
  have hgap : ∀ c ∈ "\r\n\t".toList, isLayout c := by simp [isLayout]
  have hgap' : ∀ c ∈ " \n".toList, isLayout c := by simp [isLayout]
  have hfails : value? ((place.expandText file (compact ++ following)).run {}) = none := by
    decide +kernel
  exact ⟨expandText_layout place file hstarts hunmarked hgap hgap' following {}, hfails⟩

end Workplace

end KitTemplate
