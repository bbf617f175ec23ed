import KitTemplate.Proofs.Source.Comment
import KitTemplate.Proofs.Source.Opening

/-! Where reading goes on behind a directive. The comment of a directive ends inside a token, and
what else the token holds is read like the beginning of a source, but for a line terminator right
behind the comment, which is dropped (`Cursor.pieces_of_begins`). So the pieces behind a directive
are those of the text behind it, and which tokens that text shares with the comment does not
matter. -/

namespace KitTemplate

open Text

namespace Text

/-- The line terminator with which a text begins, or no text if it begins with none. -/
def leadingBreak : Text → Text
  | '\r' :: '\n' :: _ => ['\r', '\n']
  | '\r' :: _ => ['\r']
  | '\n' :: _ => ['\n']
  | _ => []

/-- A text without the line terminator with which it begins. -/
def dropLineBreak (text : Text) : Text := text.drop text.leadingBreak.length

/-- A comment, from its opening mark to the first closing mark behind that one. -/
def IsComment (text : Text) : Prop :=
  ∃ body, text = commentOpen ++ body ++ commentClose ∧ ¬ commentClose <:+: body

theorem leadingBreak_of_split {text : Text} {token : Token} {more : List Token}
    (hsplit : Token.split text = token :: more) :
    leadingBreak text = if isLineBreak token then token else [] := by
  unfold leadingBreak
  split
  · rename_i rest
    have hfeed : Token.split ('\n' :: rest) = ['\n'] :: Token.split rest :=
      Token.split_cons_of_ends rfl
    rw [Token.split_cons_of_joins hfeed rfl] at hsplit
    obtain ⟨rfl, -⟩ := List.cons.inj hsplit
    rfl
  · rename_i rest hpair
    have hends : Token.endsAfter '\r' rest.head? = true := by
      cases rest with
      | nil => rfl
      | cons next rest =>
          have hnext : next ≠ '\n' := fun hnext => hpair rest (by rw [hnext])
          simpa [Token.endsAfter] using hnext
    rw [Token.split_cons_of_ends hends] at hsplit
    obtain ⟨rfl, -⟩ := List.cons.inj hsplit
    rfl
  · rw [Token.split_cons_of_ends rfl] at hsplit
    obtain ⟨rfl, -⟩ := List.cons.inj hsplit
    rfl
  · rename_i hpair hreturn hfeed
    have htext : token ++ more.flatten = text := by
      rw [← Token.flatten_split text, hsplit, List.flatten_cons]
    rw [if_neg]
    simp only [isLineBreak, Bool.or_eq_true, decide_eq_true_eq]
    rintro ((rfl | rfl) | rfl)
    · exact hfeed _ htext.symm
    · exact hpair _ htext.symm
    · exact hreturn _ htext.symm

theorem dropLineBreak_of_split {text : Text} {token : Token} {more : List Token}
    (hsplit : Token.split text = token :: more) :
    dropLineBreak text = if isLineBreak token then more.flatten else text := by
  rw [dropLineBreak, leadingBreak_of_split hsplit]
  split
  · have htext : token ++ more.flatten = text := by
      rw [← Token.flatten_split text, hsplit, List.flatten_cons]
    rw [← htext, List.drop_left]
  · rfl

end Text

/-- The token in which a comment closes. Either the comment ends with the token, or the token goes
on with the first one of what stands behind the comment. -/
theorem Token.exists_split_commentClose (text : Text) : ∃ trailing more,
    split (commentClose ++ text) = (commentClose ++ trailing) :: more ∧
      (trailing = [] ∧ more = split text ∧ leadingBreak text = [] ∨
        split text = trailing :: more) := by
  cases text with
  | nil => exact ⟨[], [], by decide, Or.inl ⟨rfl, rfl, rfl⟩⟩
  | cons c rest =>
      by_cases hc : c = '<'
      · subst hc
        refine ⟨[], split ('<' :: rest), ?_, Or.inl ⟨rfl, rfl, rfl⟩⟩
        have hends : endsAfter '>' ('<' :: rest).head? = true := rfl
        exact split_append_of_ends hends ['-', '-']
      · obtain ⟨token, more, hsplit⟩ := List.exists_cons_of_ne_nil
          (split_ne_nil (List.cons_ne_nil c rest))
        have hjoins : endsAfter '>' (c :: rest).head? = false := by
          simpa [endsAfter] using hc
        have hwhole : IsWhole (['-', '-'] ++ ['>']) := by decide
        exact ⟨token, more, split_append_of_isWhole hwhole (split_cons_of_joins hsplit hjoins),
          Or.inr hsplit⟩

/-- The tokens of a comment, from its opening mark on: some that hold no part of its closing mark,
and the one that holds it. -/
theorem Token.exists_split_comment {body text after : Text} {following : List Token}
    (hsplit : split (commentOpen ++ body ++ commentClose ++ text) =
      (commentOpen ++ after) :: following) :
    ∃ inner before trailing remaining,
      after :: following = inner ++ (before ++ commentClose ++ trailing) :: remaining ∧
      inner.flatten ++ before = body ∧
      (trailing = [] ∧ remaining = split text ∧ leadingBreak text = [] ∨
        split text = trailing :: remaining) := by
  have hbehind : commentClose ++ text ≠ [] := by simp [commentClose]
  obtain ⟨trailing, remaining, hclose, hremaining⟩ := exists_split_commentClose text
  obtain ⟨inner, before, first, more, hjoint⟩ := exists_isJoint hbehind body
  obtain ⟨rfl, rfl⟩ := List.cons.inj (hjoint.behind.symm.trans hclose)
  obtain ⟨token, others, hbody⟩ := List.exists_cons_of_ne_nil
    (split_ne_nil (List.append_ne_nil_of_right_ne_nil body hbehind))
  have htokens : split (commentOpen ++ body ++ commentClose ++ text) =
      (commentOpen ++ token) :: others := by
    simpa using Directive.split_commentOpen hbody
  obtain ⟨hafter, rfl⟩ := List.cons.inj (hsplit.symm.trans htokens)
  obtain rfl := List.append_cancel_left hafter
  refine ⟨inner, before, trailing, more, ?_, hjoint.place, hremaining⟩
  rw [← hbody, hjoint.joined, List.append_assoc]

/-- A closing mark stands behind the sigil and the letter with which a keyword begins. -/
theorem Keyword.exists_of_append_commentClose {gap body rest text : Text} {sigil letter : Char}
    (hgap : ∀ c ∈ gap, isLayout c) (hsigil : isSigil sigil) (hletter : letter.isAlpha)
    (htext : gap ++ sigil :: letter :: rest = body ++ commentClose ++ text) :
    ∃ inner, body = gap ++ sigil :: letter :: inner := by
  have hdash : '-' ∉ gap ++ [sigil, letter] := by
    simp only [List.mem_append, List.mem_pair]
    rintro (hmem | rfl | rfl)
    · cases hgap _ hmem
    · cases hsigil
    · cases hletter
  have hbegins : gap ++ [sigil, letter] <+: body ++ '-' :: ('-' :: '>' :: text) :=
    ⟨rest, by simpa [commentClose] using htext⟩
  obtain ⟨inner, rfl⟩ := isPrefix_of_not_mem hdash hbegins
  exact ⟨inner, by simp⟩

/-- The body of a comment that is a directive begins like a keyword, layout characters aside. -/
theorem Directive.exists_of_begins {body text : Text}
    (hbegins : begins (commentOpen ++ body ++ commentClose ++ text)) :
    ∃ gap sigil letter inner, body = gap ++ sigil :: letter :: inner ∧ (∀ c ∈ gap, isLayout c) ∧
      Keyword.isSigil sigil ∧ letter.isAlpha := by
  obtain ⟨gap, rest, htext, hgap, hstarts⟩ := begins_iff.1 hbegins
  obtain ⟨sigil, letter, rest, rfl, hsigil, hletter⟩ := Keyword.startsText_iff.1 hstarts
  have hplace : gap ++ sigil :: letter :: rest = body ++ commentClose ++ text := by
    simpa using htext.symm
  obtain ⟨inner, hbody⟩ := Keyword.exists_of_append_commentClose hgap hsigil hletter hplace
  exact ⟨gap, sigil, letter, inner, hbody, hgap, hsigil, hletter⟩

/-- A comment that is a directive has a keyword. -/
theorem Keyword.isSome_ofBody? {body text : Text}
    (hbegins : Directive.begins (commentOpen ++ body ++ commentClose ++ text)) :
    (ofBody? body).isSome := by
  obtain ⟨gap, sigil, letter, inner, rfl, hgap, hsigil, hletter⟩ :=
    Directive.exists_of_begins hbegins
  obtain ⟨name, value, hbody⟩ := exists_keyword_of_startsText hgap hsigil hletter inner
  rw [hbody]
  rfl

namespace Cursor

/-- What stands behind a comment in its last token is read like the beginning of a source. -/
theorem resumes {comment following trailing : Text} {remaining : List Token} {directive : Directive}
    (hcomment : directive.comment = comment) (htrailing : directive.trailing = trailing)
    (hends : ∃ body, comment = body ++ commentClose)
    (hremaining : trailing = [] ∧ remaining = Token.split following ∧ leadingBreak following = [] ∨
      Token.split following = trailing :: remaining) (line : Int) :
    let rest := if occursIn commentOpen directive.suffix then
        pieces ⟨directive.suffix :: remaining, line + lineBreaks directive.comment⟩
      else
        .literal directive.suffix :: pieces ⟨remaining, line + lineBreaks directive.source⟩
    let resumed := pieces ⟨Token.split following.dropLineBreak,
      line + lineBreaks (comment ++ following.leadingBreak)⟩
    rest = resumed ∨ rest = .literal [] :: resumed := by
  obtain ⟨body, rfl⟩ := hends
  dsimp only
  have hnone : ¬ occursIn commentOpen ([] : Text) := by decide
  rw [Directive.source, hcomment, htrailing]
  rcases hremaining with ⟨rfl, rfl, hbreak⟩ | hsplit
  · have hsuffix : directive.suffix = [] := by
      rw [Directive.suffix, htrailing]
      rfl
    right
    rw [hsuffix, if_neg hnone, dropLineBreak, hbreak]
    rfl
  rw [dropLineBreak_of_split hsplit, leadingBreak_of_split hsplit, Directive.suffix, htrailing]
  split
  · right
    have hfollowing : Token.split following = [trailing] ++ remaining := hsplit
    rw [Token.split_following hfollowing]
  · left
    rw [hsplit, List.append_nil]
    split
    · rfl
    · rename_i hoccurs
      have hcut : cut? commentOpen trailing = none := by simpa [occursIn] using hoccurs
      have hstep : step? ⟨trailing :: remaining, line + lineBreaks (body ++ commentClose)⟩ =
          some ([.literal trailing], ⟨remaining,
            line + lineBreaks (body ++ commentClose) + lineBreaks trailing⟩) := by
        simp only [step?, hcut]
      rw [pieces_of_step?_eq_some hstep, lineBreaks_append (not_cutsPair_commentClose _ _),
        Int.natCast_add, ← Int.add_assoc]
      rfl

/-- The pieces of a directive, and of what follows it. -/
theorem pieces_of_ofBody? {body keyword : Text} {value : Option Text}
    (hunmarked : ¬ commentClose <:+: body) (hbody : Keyword.ofBody? body = some (keyword, value))
    (hbegins : Directive.begins (commentOpen ++ body ++ commentClose)) (following : Text)
    (line : Int) : ∃ directive rest,
      pieces ⟨Token.split (commentOpen ++ body ++ commentClose ++ following), line⟩ =
        .literal [] :: .directive directive :: rest ∧
      directive.keyword = keyword ∧ directive.value = value ∧ directive.line = line ∧
      let resumed := pieces ⟨Token.split following.dropLineBreak, line +
        lineBreaks (commentOpen ++ body ++ commentClose ++ following.leadingBreak)⟩
      rest = resumed ∨ rest = .literal [] :: resumed := by
  obtain ⟨after, others, hafter⟩ := List.exists_cons_of_ne_nil (Token.split_ne_nil
    (List.append_ne_nil_of_right_ne_nil body (List.append_ne_nil_of_left_ne_nil
      (show commentClose ≠ [] by decide) following)))
  have hsplit : Token.split (commentOpen ++ body ++ commentClose ++ following) =
      (commentOpen ++ after) :: others := by
    simpa using Directive.split_commentOpen hafter
  obtain ⟨inner, before, trailing, remaining, htokens, hplace, hremaining⟩ :=
    Token.exists_split_comment hsplit
  obtain ⟨directive, hread, hkeyword, hvalue, hline, hcomment, htrailing⟩ :=
    Directive.read_of_tokens htokens (by rw [hplace, hbody]) (by rwa [hplace]) line
  have hopens : Directive.opensAt (commentOpen ++ after) others := by
    have htext : Token.split (commentOpen ++ (body ++ (commentClose ++ following))) =
      (commentOpen ++ after) :: others := by simpa using hsplit
    rw [Directive.opensAt_of_split htext]
    simpa using Directive.begins_append hbegins following
  rw [hplace] at hcomment
  refine ⟨directive, _, ?_, hkeyword, hvalue, hline,
    resumes hcomment htrailing ⟨_, rfl⟩ hremaining line⟩
  rw [hsplit, pieces_of_read hopens hread]

/-- The keyword and the value of a directive depend on its comment alone. -/
theorem pieces_of_begins {comment : Text} (hcomment : comment.IsComment)
    (hbegins : Directive.begins comment) : ∃ keyword value, ∀ following line, ∃ directive rest,
      pieces ⟨Token.split (comment ++ following), line⟩ =
        .literal [] :: .directive directive :: rest ∧
      directive.keyword = keyword ∧ directive.value = value ∧ directive.line = line ∧
      let resumed := pieces ⟨Token.split following.dropLineBreak,
        line + lineBreaks (comment ++ following.leadingBreak)⟩
      rest = resumed ∨ rest = .literal [] :: resumed := by
  obtain ⟨body, rfl, hunmarked⟩ := hcomment
  obtain ⟨⟨keyword, value⟩, hbody⟩ := Option.isSome_iff_exists.1
    (Keyword.isSome_ofBody? (by rwa [List.append_nil] : Directive.begins (_ ++ [])))
  exact ⟨keyword, value, pieces_of_ofBody? hunmarked hbody hbegins⟩

end Cursor

end KitTemplate
