import KitTemplate.Proofs.Source.TokenRun
import KitTemplate.Source.Piece

/-! Where the pieces of a source stand. Reading goes through the source in order, so at every place
where it resumes the source is what has been read and then the tokens that are left, and the line is
one more than the number of line terminators before that place. This holds because no place
separates a carriage return from its line feed and because no line terminator stands before a
comment in the token that opens it. -/

namespace KitTemplate

open Text

namespace Directive

/-- What stands behind the closing mark and is dropped. -/
def dropped (directive : Directive) : Text :=
  if isLineBreak directive.trailing then directive.trailing else []

theorem dropped_append_suffix (directive : Directive) :
    directive.dropped ++ directive.suffix = directive.trailing := by
  rw [dropped, suffix]
  split <;> simp

theorem dropped_of_occursIn {directive : Directive}
    (hoccurs : occursIn commentOpen directive.suffix) : directive.dropped = [] := by
  unfold dropped
  split
  · rename_i hbreak
    rw [suffix, if_pos hbreak] at hoccurs
    cases hoccurs
  · rfl

/-- What the search for a closing mark has found, and where. -/
theorem eq_of_close? {searched following : List Token} {current : Token} {count : Nat}
    {closed : Closed} (hclose : close? searched current count following = some closed) :
    (∃ more, closed.opened = searched.reverse.flatten ++ more) ∧
      closed.opened ++ commentClose ++ closed.trailing ++ closed.remaining.flatten =
        searched.reverse.flatten ++ current ++ following.flatten ∧
      ∃ passed before, current :: following =
        passed ++ (before ++ commentClose ++ closed.trailing) :: closed.remaining := by
  fun_induction close? searched current count following with
  | case1 following searched current count before trailing hcut =>
      obtain rfl := Option.some.inj hclose
      obtain rfl := eq_of_cut? hcut
      exact ⟨⟨before, by simp⟩, by simp, [], before, rfl⟩
  | case2 => cases hclose
  | case3 searched current count next following hcut ih =>
      obtain ⟨⟨more, hopened⟩, htext, passed, before, hpassed⟩ := ih hclose
      refine ⟨⟨current ++ more, by simp [hopened]⟩, by simpa using htext, ?_⟩
      exact ⟨current :: passed, before, by rw [hpassed]; rfl⟩

/-- A directive that was read, with the tokens that it leaves. -/
structure IsRead (after : Text) (following : List Token) (line : Int) (directive : Directive)
    (remaining : List Token) : Prop where
  line : directive.line = line
  begins : ∃ body, directive.comment = commentOpen ++ body
  ends : ∃ body, directive.comment = body ++ commentClose
  text : directive.comment ++ directive.trailing ++ remaining.flatten =
    commentOpen ++ after ++ following.flatten
  last : ∃ passed before, after :: following =
    passed ++ (before ++ commentClose ++ directive.trailing) :: remaining

theorem isRead_of_read {after : Text} {following remaining : List Token} {line : Int}
    {directive : Directive}
    (hread : read (commentOpen ++ after) following line = .ok (directive, remaining)) :
    IsRead after following line directive remaining := by
  simp only [read] at hread
  split at hread
  · cases hread
  rename_i closed hclose
  split at hread
  · cases hread
  obtain ⟨rfl, rfl⟩ := Prod.mk.inj (Except.ok.inj hread)
  rw [List.take_left, List.drop_left] at hclose
  obtain ⟨⟨more, hopened⟩, htext, hlast⟩ := eq_of_close? hclose
  exact
    { line := rfl
      begins := ⟨more ++ commentClose, by simp [hopened]⟩
      ends := ⟨closed.opened, rfl⟩
      text := by simpa using htext
      last := hlast }

end Directive

namespace Piece

/-- The part of a source that a piece stands for. Nothing is said of a directive that cannot be
read. -/
def source : Piece → Text
  | literal text => text
  | directive found => found.comment ++ found.dropped
  | broken _ _ => []

/-- The line of a directive. -/
def line? : Piece → Option Int
  | literal _ => none
  | directive found => some found.line
  | broken _ line => some line

end Piece

namespace Cursor

/-- A cursor stands in a source behind the text that has been read. -/
structure IsAt (source read : Text) (cursor : Cursor) : Prop where
  text : source = read ++ cursor.tokens.flatten
  line : cursor.line = 1 + scanLineBreaks read
  run : Token.IsRun cursor.tokens
  uncut : ¬ CutsPair read cursor.tokens.flatten

theorem isAt_start (source : Text) : IsAt source [] ⟨Token.split source, 1⟩ where
  text := (Token.flatten_split source).symm
  line := rfl
  run := Token.isRun_split source
  uncut := nofun

theorem not_cutsPair_commentOpen (read after : Text) : ¬ CutsPair read (commentOpen ++ after) := by
  rintro ⟨-, hfeed⟩
  cases hfeed

theorem not_cutsPair_commentClose (read after : Text) :
    ¬ CutsPair (read ++ commentClose) after := by
  rintro ⟨hreturn, -⟩
  rw [List.getLast?_append_of_ne_nil _ (by decide)] at hreturn
  cases hreturn

variable {source read before after : Text} {token : Token} {following : List Token} {line : Int}

/-- The line terminators of a token with a comment all stand in the comment or behind it. -/
theorem lineBreaks_commentOpen (hwhole : Token.IsWhole (before ++ commentOpen ++ after)) :
    lineBreaks (commentOpen ++ after) = lineBreaks (before ++ commentOpen ++ after) := by
  have hopening : Token.IsWhole (before ++ '<' :: ('!' :: '-' :: '-' :: after)) := by
    rwa [List.append_assoc] at hwhole
  rw [List.append_assoc]
  exact (lineBreaks_append_left (Token.not_mem_of_isWhole hopening (by decide)) _).symm

namespace IsAt

theorem uncut_token (hat : IsAt source read ⟨token :: following, line⟩) :
    ¬ CutsPair read token := by
  have huncut := hat.uncut
  rwa [List.flatten_cons, Token.cutsPair_append_right hat.run.head_ne_nil] at huncut

/-- What stands before a comment in its token is on the line of the comment. -/
theorem scanLineBreaks_before (hat : IsAt source read ⟨token :: following, line⟩)
    (htoken : token = before ++ commentOpen ++ after) :
    scanLineBreaks (read ++ before) = scanLineBreaks read := by
  have hwhole : Token.IsWhole (before ++ '<' :: ('!' :: '-' :: '-' :: after)) := by
    have hwhole := hat.run.whole token List.mem_cons_self
    rwa [htoken, List.append_assoc] at hwhole
  obtain ⟨hfeed, hreturn⟩ := Token.not_mem_of_isWhole hwhole (by decide)
  have huncut : ¬ CutsPair read before := fun ⟨_, hhead⟩ => hfeed (List.mem_of_mem_head? hhead)
  rw [scanLineBreaks_append huncut, scanLineBreaks_of_not_mem hfeed hreturn, Nat.add_zero]

/-- Behind a token that is copied. -/
theorem copied (hat : IsAt source read ⟨token :: following, line⟩) :
    IsAt source (read ++ token) ⟨following, line + lineBreaks token⟩ where
  text := by
    rw [hat.text]
    simp
  line := by
    have hline : line = 1 + scanLineBreaks read := hat.line
    rw [scanLineBreaks_append hat.uncut_token, lineBreaks_eq_scanLineBreaks]
    push_cast
    omega
  run := hat.run.tail
  uncut := by
    rw [Token.cutsPair_append_left hat.run.head_ne_nil]
    exact hat.run.not_cutsPair

theorem lineBreaks_opening (hat : IsAt source read ⟨token :: following, line⟩)
    (htoken : token = before ++ commentOpen ++ after) :
    lineBreaks (commentOpen ++ after) = lineBreaks token := by
  subst htoken
  exact lineBreaks_commentOpen (hat.run.whole _ List.mem_cons_self)

section Directive

variable {directive : Directive} {remaining : List Token}

/-- The token that closes a directive stands in front of those that are left. -/
theorem isRun_last (hat : IsAt source read ⟨token :: following, line⟩)
    (htoken : token = before ++ commentOpen ++ after)
    (hread : Directive.IsRead after following line directive remaining) :
    ∃ text, Token.IsRun ((text ++ commentClose ++ directive.trailing) :: remaining) := by
  obtain ⟨passed, text, hpassed⟩ := hread.last
  refine ⟨text, ?_⟩
  cases passed with
  | nil =>
      obtain ⟨hafter, rfl⟩ := List.cons.inj hpassed
      have hlast : text ++ commentClose ++ directive.trailing ≠ [] := by simp [commentClose]
      apply hat.run.of_suffix hlast
      rw [← hafter, htoken]
      exact List.suffix_append _ after
  | cons first passed =>
      obtain ⟨-, hfollowing⟩ := List.cons.inj hpassed
      have hrun := hat.run.tail
      simp only [hfollowing] at hrun
      exact hrun.of_append

theorem text_directive (hat : IsAt source read ⟨token :: following, line⟩)
    (htoken : token = before ++ commentOpen ++ after)
    (hread : Directive.IsRead after following line directive remaining) :
    source = read ++ before ++ directive.comment ++ directive.trailing ++ remaining.flatten := by
  have htext := hread.text
  rw [hat.text, htoken]
  simp only [List.flatten_cons, List.append_assoc] at htext ⊢
  rw [htext]

theorem line_directive (hat : IsAt source read ⟨token :: following, line⟩)
    (htoken : token = before ++ commentOpen ++ after)
    (hread : Directive.IsRead after following line directive remaining) (rest : Text) :
    line + lineBreaks (directive.comment ++ rest) =
      1 + scanLineBreaks (read ++ before ++ (directive.comment ++ rest)) := by
  obtain ⟨body, hbody⟩ := hread.begins
  have hline : line = 1 + scanLineBreaks read := hat.line
  have hbefore := hat.scanLineBreaks_before htoken
  have huncut : ¬ CutsPair (read ++ before) (directive.comment ++ rest) := by
    rw [hbody, List.append_assoc]
    exact not_cutsPair_commentOpen _ _
  rw [scanLineBreaks_append huncut, lineBreaks_eq_scanLineBreaks]
  omega

/-- Behind a directive and the token that closes it. -/
theorem behind (hat : IsAt source read ⟨token :: following, line⟩)
    (htoken : token = before ++ commentOpen ++ after)
    (hread : Directive.IsRead after following line directive remaining) :
    IsAt source (read ++ before ++ (directive.comment ++ directive.trailing))
      ⟨remaining, line + lineBreaks directive.source⟩ := by
  obtain ⟨text, hrun⟩ := hat.isRun_last htoken hread
  obtain ⟨body, hbody⟩ := hread.ends
  refine
    { text := by simpa using hat.text_directive htoken hread
      line := hat.line_directive htoken hread directive.trailing
      run := hrun.tail
      uncut := ?_ }
  -- both end like the token that closes the directive
  have hclose : commentClose ++ directive.trailing ≠ [] := by simp [commentClose]
  have huncut := hrun.not_cutsPair
  rw [List.append_assoc, Token.cutsPair_append_left hclose] at huncut
  rwa [hbody, List.append_assoc body, ← List.append_assoc, Token.cutsPair_append_left hclose]

/-- Behind a directive whose closing token opens another comment. -/
theorem within (hat : IsAt source read ⟨token :: following, line⟩)
    (htoken : token = before ++ commentOpen ++ after)
    (hread : Directive.IsRead after following line directive remaining)
    (hoccurs : occursIn commentOpen directive.suffix) :
    IsAt source (read ++ before ++ directive.comment)
      ⟨directive.suffix :: remaining, line + lineBreaks directive.comment⟩ := by
  obtain ⟨text, hrun⟩ := hat.isRun_last htoken hread
  obtain ⟨body, hbody⟩ := hread.ends
  have htrailing := directive.dropped_append_suffix
  rw [Directive.dropped_of_occursIn hoccurs, List.nil_append] at htrailing
  have hsuffix : directive.suffix ≠ [] := by
    intro hsuffix
    rw [hsuffix] at hoccurs
    cases hoccurs
  exact
    { text := by simpa [htrailing] using hat.text_directive htoken hread
      line := by simpa using hat.line_directive htoken hread []
      run := hrun.of_suffix hsuffix ⟨text ++ commentClose, by rw [htrailing]⟩
      uncut := by
        rw [hbody, ← List.append_assoc]
        exact not_cutsPair_commentClose _ _ }

end Directive

end IsAt

/-- One step through a source. Reading ends, or it goes on behind the pieces that were found. -/
theorem isAt_of_step? {cursor next : Cursor} {pieces : List Piece} (hat : IsAt source read cursor)
    (hstep : cursor.step? = some (pieces, next)) :
    next.tokens = [] ∨
      IsAt source (read ++ pieces.flatMap Piece.source) next ∧
        pieces.flatMap Piece.source ≠ [] := by
  obtain ⟨tokens, line⟩ := cursor
  cases tokens with
  | nil => cases hstep
  | cons token following =>
      cases stepsTo_of_step? hstep with
      | copied =>
          rw [List.flatMap_singleton]
          exact Or.inr ⟨hat.copied, hat.run.head_ne_nil⟩
      | ordinary hcut =>
          rw [List.flatMap_singleton, hat.lineBreaks_opening (eq_of_cut? hcut)]
          exact Or.inr ⟨hat.copied, hat.run.head_ne_nil⟩
      | broken => exact Or.inl rfl
      | within hcut _ hread hoccurs =>
          have hisRead := Directive.isRead_of_read hread
          obtain ⟨body, hbody⟩ := hisRead.begins
          have hwithin := hat.within (eq_of_cut? hcut) hisRead hoccurs
          refine Or.inr ⟨?_, by simp [Piece.source, hbody, commentOpen]⟩
          simpa [Piece.source, Directive.dropped_of_occursIn hoccurs] using hwithin
      | @behind before after directive remaining hcut _ hread =>
          have hisRead := Directive.isRead_of_read hread
          obtain ⟨body, hbody⟩ := hisRead.begins
          have hbehind := hat.behind (eq_of_cut? hcut) hisRead
          refine Or.inr ⟨?_, by simp [Piece.source, hbody, commentOpen]⟩
          rw [← directive.dropped_append_suffix] at hbehind
          simpa [Piece.source] using hbehind

/-- Of the pieces that one step finds, the second is the one that opens a comment, if there is one.
-/
theorem eq_of_line? {first opening piece : Piece} {tail inner rest : List Piece} {number : Int}
    (hpieces : first :: opening :: tail = inner ++ piece :: rest) (hfirst : first.line? = none)
    (htail : ∀ other ∈ tail, other.line? = none) (hline : piece.line? = some number) :
    inner = [first] ∧ piece = opening := by
  rcases inner with _ | ⟨_, _ | ⟨_, inner⟩⟩
  · obtain ⟨rfl, -⟩ := List.cons.inj hpieces
    rw [hfirst] at hline
    cases hline
  · obtain ⟨rfl, hrest⟩ := List.cons.inj hpieces
    exact ⟨rfl, (List.cons.inj hrest).1.symm⟩
  · obtain ⟨-, hrest⟩ := List.cons.inj hpieces
    have hmem : piece ∈ tail := by simp [(List.cons.inj hrest).2]
    rw [htail piece hmem] at hline
    cases hline

/-- A directive found by one step opens behind the pieces before it, on the line of that place. -/
theorem opens_of_step? {cursor next : Cursor} {pieces inner rest : List Piece} {piece : Piece}
    {number : Int} (hat : IsAt source read cursor) (hstep : cursor.step? = some (pieces, next))
    (hpieces : pieces = inner ++ piece :: rest) (hline : piece.line? = some number) :
    read ++ inner.flatMap Piece.source ++ commentOpen <+: source ∧
      number = 1 + scanLineBreaks (read ++ inner.flatMap Piece.source) := by
  obtain ⟨tokens, line⟩ := cursor
  cases tokens with
  | nil => cases hstep
  | cons token following =>
      have hliteral {text : Text} (hsingle : [.literal text] = inner ++ piece :: rest) : False := by
        obtain rfl : piece = .literal text :=
          List.mem_singleton.1 (hsingle ▸ List.mem_append_right _ List.mem_cons_self)
        cases hline
      have hopening {before after : Text} {opening : Piece} {tail : List Piece}
          (hcut : cut? commentOpen token = some (before, after))
          (hopens : opening.line? = some line) (htail : ∀ other ∈ tail, other.line? = none)
          (hfound : .literal before :: opening :: tail = inner ++ piece :: rest) :
          read ++ inner.flatMap Piece.source ++ commentOpen <+: source ∧
            number = 1 + scanLineBreaks (read ++ inner.flatMap Piece.source) := by
        have htoken := eq_of_cut? hcut
        obtain ⟨rfl, rfl⟩ := eq_of_line? hfound rfl htail hline
        obtain rfl := Option.some.inj (hline.symm.trans hopens)
        rw [List.flatMap_singleton, Piece.source, hat.scanLineBreaks_before htoken]
        refine ⟨⟨after ++ following.flatten, ?_⟩, hat.line⟩
        rw [hat.text, htoken]
        simp
      cases stepsTo_of_step? hstep with
      | copied | ordinary => exact (hliteral hpieces).elim
      | broken hcut => exact hopening hcut rfl (List.forall_mem_nil _) hpieces
      | @within _ _ directive _ hcut _ hread =>
          have hopens : (Piece.directive directive).line? = some line :=
            congrArg some (Directive.isRead_of_read hread).line
          exact hopening hcut hopens (List.forall_mem_nil _) hpieces
      | @behind _ _ directive _ hcut _ hread =>
          have hopens : (Piece.directive directive).line? = some line :=
            congrArg some (Directive.isRead_of_read hread).line
          refine hopening hcut hopens ?_ hpieces
          intro other hother
          rw [List.mem_singleton.1 hother]
          rfl

/-- Reading a source has found some pieces and come to a cursor. -/
inductive Reads (source : Text) : List Piece → Cursor → Prop
  | start : Reads source [] ⟨Token.split source, 1⟩
  | step {passed pieces : List Piece} {cursor next : Cursor} (hreads : Reads source passed cursor)
      (hstep : cursor.step? = some (pieces, next)) : Reads source (passed ++ pieces) next

namespace Reads

variable {passed pieces : List Piece} {cursor next : Cursor}

theorem isAt (hreads : Reads source passed cursor) :
    cursor.tokens = [] ∨ IsAt source (passed.flatMap Piece.source) cursor := by
  induction hreads with
  | start => exact Or.inr (isAt_start source)
  | @step passed pieces cursor next _ hstep ih =>
      rcases ih with hend | hat
      · obtain ⟨tokens, line⟩ := cursor
        cases hend
        cases hstep
      · rw [List.flatMap_append]
        exact (isAt_of_step? hat hstep).imp_right And.left

theorem isAt_of_step? (hreads : Reads source passed cursor)
    (hstep : cursor.step? = some (pieces, next)) :
    IsAt source (passed.flatMap Piece.source) cursor := by
  refine hreads.isAt.resolve_left fun hend => ?_
  obtain ⟨tokens, line⟩ := cursor
  cases hend
  cases hstep

/-- Every step leaves less of the source to be read, also where it stays in the same token. -/
theorem length_flatten_lt (hreads : Reads source passed cursor)
    (hstep : cursor.step? = some (pieces, next)) :
    next.tokens.flatten.length < cursor.tokens.flatten.length := by
  have hat := hreads.isAt_of_step? hstep
  rcases Cursor.isAt_of_step? hat hstep with hend | ⟨hnext, hpieces⟩
  · obtain ⟨tokens, line⟩ := cursor
    cases tokens with
    | nil => cases hstep
    | cons token following =>
        have htoken := List.length_pos_iff.2 hat.run.head_ne_nil
        simp only [hend, List.flatten_nil, List.length_nil, List.flatten_cons, List.length_append]
        omega
  · have htext := hat.text.symm.trans hnext.text
    rw [List.append_assoc] at htext
    rw [List.append_cancel_left htext, List.length_append]
    have hlength := List.length_pos_iff.2 hpieces
    omega

/-- Every piece of what is left is found by some step. -/
theorem exists_step {before after : List Piece} {piece : Piece}
    (hreads : Reads source passed cursor)
    (hpieces : cursor.pieces = before ++ piece :: after) :
    ∃ passed' cursor' pieces' next' inner rest, Reads source passed' cursor' ∧
      cursor'.step? = some (pieces', next') ∧ pieces' = inner ++ piece :: rest ∧
      passed ++ before = passed' ++ inner := by
  induction cursor using Cursor.pieces.induct generalizing passed before with
  | case1 cursor hstep =>
      rw [pieces_of_step?_eq_none hstep] at hpieces
      simp at hpieces
  | case2 cursor found next hstep ih =>
      rw [pieces_of_step?_eq_some hstep] at hpieces
      have hlater {before : List Piece} (hnext : next.pieces = before ++ piece :: after) :
          ∃ passed' cursor' pieces' next' inner rest, Reads source passed' cursor' ∧
            cursor'.step? = some (pieces', next') ∧ pieces' = inner ++ piece :: rest ∧
            passed ++ (found ++ before) = passed' ++ inner := by
        rw [← List.append_assoc]
        exact ih (hreads.step hstep) hnext
      rcases List.append_eq_append_iff.1 hpieces with ⟨more, rfl, hmore⟩ | ⟨more, hmore, hrest⟩
      · exact hlater hmore
      · cases more with
        | nil =>
            rw [List.append_nil] at hmore
            rw [← hmore, ← List.append_nil found]
            exact hlater hrest.symm
        | cons first more =>
            obtain ⟨rfl, -⟩ := List.cons.inj hrest
            exact ⟨passed, cursor, found, next, before, more, hreads, hstep, hmore, rfl⟩

end Reads

end Cursor

/-- A directive opens in its source behind the pieces before it, and its line is one more than the
number of line terminators up to there. -/
theorem Piece.opens_of_ofSource {source : Text} {before after : List Piece} {piece : Piece}
    {number : Int} (hpieces : ofSource source = before ++ piece :: after)
    (hline : piece.line? = some number) :
    before.flatMap Piece.source ++ commentOpen <+: source ∧
      number = 1 + scanLineBreaks (before.flatMap Piece.source) := by
  have hstart : Cursor.Reads source [] ⟨Token.split source, 1⟩ := .start
  obtain ⟨passed, cursor, pieces, next, inner, rest, hreads, hstep, hsplit, hbefore⟩ :=
    hstart.exists_step hpieces
  rw [List.nil_append] at hbefore
  rw [hbefore, List.flatMap_append]
  exact Cursor.opens_of_step? (hreads.isAt_of_step? hstep) hstep hsplit hline

end KitTemplate
