import KitTemplate.Proofs.Source.Position
import KitTemplate.Proofs.Source.Resumption

/-! How directives are read. Sources are cut into tokens, but what is read of a comment depends on
the text from its opening mark on. It is a directive if that text has a sigil and a letter behind
layout characters, and these begin its keyword (`Directive.opensAt_tells_keyword`). Its closing mark
is searched token by token; no token boundary lies inside a mark, so the mark that is found is the
first one in the text, and the tokens that are read are as few as reach it
(`Directive.read_finds_first_mark`). -/

namespace KitTemplate

open Text

/-- A place in a source at which the text `opening`, the rest of a token, begins. -/
theorem Token.split_at {source before opening : Text} {index : Nat}
    (htoken : (split source)[index]? = some (before ++ opening)) :
    split source = (split source).take index ++
      (before ++ opening) :: (split source).drop (index + 1) := by
  obtain ⟨hindex, htoken⟩ := List.getElem?_eq_some_iff.1 htoken
  rw [← htoken, ← List.drop_eq_getElem_cons hindex, List.take_append_drop]

theorem Token.drop_of_split {source before opening : Text} {index : Nat}
    (htoken : (split source)[index]? = some (before ++ opening)) :
    source.drop (((split source).take index).flatten.length + before.length) =
      opening ++ ((split source).drop (index + 1)).flatten := by
  have hsource : source = ((split source).take index).flatten ++ before ++
      (opening ++ ((split source).drop (index + 1)).flatten) := by
    have hflatten := congrArg List.flatten (split_at htoken)
    rw [flatten_split] at hflatten
    simpa using hflatten
  rw [← List.length_append]
  exact (congrArg (List.drop _) hsource).trans List.drop_left

namespace Directive

/-- A text that opens a comment and has a sigil and a letter behind its opening mark, layout
characters aside. -/
structure OpensWith (text gap : Text) (sigil letter : Char) : Prop where
  text : ∃ rest, text = commentOpen ++ gap ++ sigil :: letter :: rest
  gap : ∀ c ∈ gap, isLayout c
  sigil : Keyword.isSigil sigil
  letter : letter.isAlpha

theorem begins_iff_exists_opensWith {text : Text} :
    begins text ↔ ∃ gap sigil letter, OpensWith text gap sigil letter := by
  rw [begins_iff]
  constructor
  · rintro ⟨gap, rest, htext, hgap, hstarts⟩
    obtain ⟨sigil, letter, rest, rfl, hsigil, hletter⟩ := Keyword.startsText_iff.1 hstarts
    exact ⟨gap, sigil, letter, ⟨rest, htext⟩, hgap, hsigil, hletter⟩
  · rintro ⟨gap, sigil, letter, ⟨rest, htext⟩, hgap, hsigil, hletter⟩
    exact ⟨gap, _, htext, hgap, Keyword.startsText_iff.2 ⟨_, _, _, rfl, hsigil, hletter⟩⟩

theorem close?_eq_none {following : List Token} {current : Token}
    (hunmarked : ∀ token ∈ current :: following, ¬ commentClose <:+: token)
    (searched : List Token) (count : Nat) : close? searched current count following = none := by
  induction following generalizing searched current count with
  | nil =>
      have hcut : cut? commentClose current = none :=
        cut?_of_not_isInfix (by decide) (hunmarked current List.mem_cons_self)
      simp only [close?, hcut]
  | cons next later ih =>
      obtain ⟨hcurrent, hlater⟩ := List.forall_mem_cons.1 hunmarked
      have hcut : cut? commentClose current = none := cut?_of_not_isInfix (by decide) hcurrent
      simp only [close?, hcut]
      exact ih hlater (current :: searched) (count + 1)

/-- A comment behind which no closing mark stands cannot be read. -/
theorem read_of_not_isInfix {after : Text} {following : List Token}
    (hunmarked : ¬ commentClose <:+: after ++ following.flatten) (line : Int) :
    read (commentOpen ++ after) following line = .error .unclosed := by
  have hclose : close? [commentOpen] after 1 following = none := by
    refine close?_eq_none (fun token htoken hmark => hunmarked (hmark.trans ?_)) [commentOpen] 1
    exact List.infix_of_mem_flatten htoken
  simp only [read, List.take_left, List.drop_left, hclose]

/-- A directive that ends in the token with the closing mark at a place of the text from its opening
mark on. -/
structure EndsAt (opening : Token) (following : List Token) (place : Nat) (directive : Directive)
    (remaining : List Token) : Prop where
  entry : Keyword.ofBody? (((opening ++ following.flatten).take place).drop commentOpen.length) =
    some (directive.keyword, directive.value)
  count_pos : 0 < directive.tokenCount
  source : directive.source =
    opening ++ (following.take (directive.tokenCount - 1)).flatten
  remaining : remaining = following.drop (directive.tokenCount - 1)
  reaches : place + commentClose.length ≤ directive.source.length
  shortest : ∀ count < directive.tokenCount - 1,
    (opening ++ (following.take count).flatten).length < place + commentClose.length
  text : directive.source = commentOpen ++
    ((opening ++ following.flatten).take place).drop commentOpen.length ++ commentClose ++
      directive.trailing
  suffix : directive.suffix =
    if directive.trailing ∈ [['\n'], ['\r', '\n'], ['\r']] then [] else directive.trailing

section Tokens

variable {after before trailing : Text} {inner following remaining : List Token}

/-- A comment whose tokens are given ends in the last of them. -/
theorem endsAt_of_tokens
    (htokens : after :: following = inner ++ (before ++ commentClose ++ trailing) :: remaining)
    {keyword : Text} {value : Option Text}
    (hbody : Keyword.ofBody? (inner.flatten ++ before) = some (keyword, value)) (line : Int) :
    EndsAt (commentOpen ++ after) following
      (commentOpen.length + (inner.flatten ++ before).length)
      { keyword, value, line, trailing
        comment := commentOpen ++ (inner.flatten ++ before) ++ commentClose
        tokenCount := 1 + inner.length } remaining := by
  have hfirst (count : Nat) : commentOpen ++ after ++ (following.take count).flatten =
      commentOpen ++ ((after :: following).take (count + 1)).flatten := by
    rw [List.take_succ_cons, List.flatten_cons, List.append_assoc]
  have htext : commentOpen ++ after ++ following.flatten = commentOpen ++
      (inner.flatten ++ before) ++ (commentClose ++ trailing ++ remaining.flatten) := by
    have hflatten := congrArg List.flatten htokens
    simp only [List.flatten_cons, List.flatten_append, List.append_assoc] at hflatten ⊢
    rw [hflatten]
  have htake : ((commentOpen ++ after ++ following.flatten).take
      (commentOpen.length + (inner.flatten ++ before).length)).drop commentOpen.length =
        inner.flatten ++ before := by
    rw [htext, ← List.length_append, List.take_left, List.drop_left]
  have hsource : commentOpen ++ after ++ (following.take inner.length).flatten =
      commentOpen ++ (inner.flatten ++ before) ++ commentClose ++ trailing := by
    rw [hfirst, htokens, List.take_length_add_append, List.take_succ_cons, List.take_zero]
    simp
  refine
    { entry := by rw [htake, hbody]
      count_pos := Nat.add_pos_left Nat.one_pos inner.length
      source := by rw [Nat.add_sub_cancel_left, hsource]; rfl
      remaining := ?_
      reaches := ?_
      shortest := fun count hcount => ?_
      text := by rw [htake]; rfl
      suffix := ?_ }
  · rw [Nat.add_sub_cancel_left, ← List.drop_succ_cons, htokens, List.drop_length_add_append]
    rfl
  · simp only [Directive.source, List.length_append]
    omega
  · -- up to there all tokens hold text in front of the mark
    rw [Nat.add_sub_cancel_left] at hcount
    have hinner : ((after :: following).take (count + 1)).flatten <+: inner.flatten := by
      rw [htokens, List.take_append_of_le_length hcount]
      exact (List.take_prefix (count + 1) inner).flatten
    have hlength := hinner.length_le
    have hclose : 0 < commentClose.length := by decide
    rw [hfirst]
    simp only [List.length_append]
    omega
  · simp only [Directive.suffix, isLineBreak, List.mem_cons, List.not_mem_nil, or_false,
      Bool.or_eq_true, decide_eq_true_eq, or_assoc]

end Tokens

theorem drop_commentOpen (after : Text) (following : List Token) :
    (commentOpen ++ after ++ following.flatten).drop commentOpen.length =
      after ++ following.flatten := by
  rw [List.append_assoc, List.drop_left]

section Text

variable {after body behind : Text} {following remaining : List Token}
  (hsplit : Token.split (commentOpen ++ after ++ following.flatten) =
    (commentOpen ++ after) :: following)

include hsplit

/-- What is read of a comment depends on its body, the text between its two marks. -/
theorem read_of_cut? (hcut : cut? commentClose (after ++ following.flatten) = some (body, behind))
    (line : Int) :
    match Keyword.ofBody? body with
    | none => read (commentOpen ++ after) following line =
        .error (.withoutKeyword (commentOpen ++ body ++ commentClose))
    | some (keyword, value) => ∃ directive remaining,
        read (commentOpen ++ after) following line = .ok (directive, remaining) ∧
          directive.keyword = keyword ∧ directive.value = value ∧ directive.line = line ∧
          EndsAt (commentOpen ++ after) following (commentOpen.length + body.length) directive
            remaining := by
  have htext : commentOpen ++ after ++ following.flatten =
      commentOpen ++ body ++ commentClose ++ behind := by
    rw [List.append_assoc, eq_of_cut? hcut]
    simp only [List.append_assoc]
  rw [htext] at hsplit
  obtain ⟨inner, before, trailing, remaining, htokens, rfl, -⟩ := Token.exists_split_comment hsplit
  rw [read_eq_of_tokens htokens (not_isInfix_of_cut? (by decide) hcut)]
  cases hbody : Keyword.ofBody? (inner.flatten ++ before) with
  | none => rfl
  | some entry => exact ⟨_, _, rfl, rfl, rfl, rfl, endsAt_of_tokens htokens hbody line⟩

theorem read_eq_unclosed_iff (line : Int) :
    read (commentOpen ++ after) following line = .error .unclosed ↔
      ¬ commentClose <:+: after ++ following.flatten := by
  refine ⟨fun hunclosed hmark => ?_, fun hnone => read_of_not_isInfix hnone line⟩
  obtain ⟨body, behind, hcut⟩ := exists_cut? (by decide) hmark
  have hread := read_of_cut? hsplit hcut line
  cases hbody : Keyword.ofBody? body with
  | none =>
      rw [hbody, hunclosed] at hread
      cases hread
  | some entry =>
      rw [hbody] at hread
      obtain ⟨directive, remaining, hok, -⟩ := hread
      rw [hunclosed] at hok
      cases hok

/-- The body that a directive is read from. -/
theorem exists_cut?_of_read {line : Int} {directive : Directive}
    (hread : read (commentOpen ++ after) following line = .ok (directive, remaining)) :
    ∃ body behind, cut? commentClose (after ++ following.flatten) = some (body, behind) ∧
      Keyword.ofBody? body = some (directive.keyword, directive.value) := by
  have hmark : commentClose <:+: after ++ following.flatten := by
    by_contra hnone
    rw [read_of_not_isInfix hnone] at hread
    cases hread
  obtain ⟨body, behind, hcut⟩ := exists_cut? (by decide) hmark
  have hclosed := read_of_cut? hsplit hcut line
  cases hbody : Keyword.ofBody? body with
  | none =>
      rw [hbody, hread] at hclosed
      cases hclosed
  | some entry =>
      rw [hbody] at hclosed
      obtain ⟨other, others, hother, hkeyword, hvalue, -⟩ := hclosed
      obtain ⟨rfl, rfl⟩ := Prod.mk.inj (Except.ok.inj (hread.symm.trans hother))
      exact ⟨body, behind, hcut, hbody.trans (by rw [hkeyword, hvalue])⟩

/-- A comment is read up to the first closing mark behind its opening mark. -/
theorem read_of_isFirstFrom {place : Nat}
    (hplace : IsFirstFrom commentOpen.length commentClose
      (commentOpen ++ after ++ following.flatten) place) (line : Int) :
    let text := commentOpen ++ after ++ following.flatten
    match Keyword.ofBody? ((text.take place).drop commentOpen.length) with
    | none => read (commentOpen ++ after) following line =
        .error (.withoutKeyword (text.take (place + commentClose.length)))
    | some _ => ∃ directive remaining,
        read (commentOpen ++ after) following line = .ok (directive, remaining) ∧
          directive.line = line ∧
          EndsAt (commentOpen ++ after) following place directive remaining := by
  intro text
  have hcut := hplace.cut? (by decide)
  have hfirst := hplace.eq (isFirstFrom_of_cut? hcut)
  generalize hbody : (text.take place).drop commentOpen.length = body at hcut hfirst ⊢
  rw [drop_commentOpen] at hcut
  have hread := read_of_cut? hsplit hcut line
  cases hkeyword : Keyword.ofBody? body with
  | none =>
      rw [hkeyword] at hread
      have htext : text = commentOpen ++ body ++ commentClose ++
          text.drop (place + commentClose.length) := by
        rw [List.append_assoc, List.append_assoc, ← List.append_assoc body, ← eq_of_cut? hcut]
        exact List.append_assoc ..
      have hcomment : text.take (place + commentClose.length) =
          commentOpen ++ body ++ commentClose := by
        rw [htext, hfirst, ← List.length_append, ← List.length_append, List.take_left]
      rw [hcomment]
      exact hread
  | some entry =>
      rw [hkeyword] at hread
      obtain ⟨directive, remaining, hread, -, -, hline, hends⟩ := hread
      exact ⟨directive, remaining, hread, hline, hfirst ▸ hends⟩

/-- A comment that is a directive is read, unless no closing mark stands behind its opening mark.
Its keyword begins with the sigil and the letter that make it a directive. -/
theorem read_of_opensWith {gap : Text} {sigil letter : Char}
    (hopens : OpensWith (commentOpen ++ after ++ following.flatten) gap sigil letter) (line : Int) :
    match read (commentOpen ++ after) following line with
    | .error problem => problem = .unclosed ∧ ¬ commentClose <:+: after ++ following.flatten
    | .ok (directive, _) => [sigil, letter] <+: directive.keyword ∧
        ∀ c ∈ directive.keyword, ¬ Keyword.endsKeyword c := by
  by_cases hmark : commentClose <:+: after ++ following.flatten
  · obtain ⟨body, behind, hcut⟩ := exists_cut? (by decide) hmark
    obtain ⟨⟨rest, htext⟩, hgap, hsigil, hletter⟩ := hopens
    have hplace : gap ++ sigil :: letter :: rest = body ++ commentClose ++ behind := by
      rw [← eq_of_cut? hcut]
      simpa using htext.symm
    obtain ⟨inner, rfl⟩ := Keyword.exists_of_append_commentClose hgap hsigil hletter hplace
    obtain ⟨name, value, hbody⟩ := Keyword.exists_keyword_of_startsText hgap hsigil hletter inner
    have hread := read_of_cut? hsplit hcut line
    rw [hbody] at hread
    obtain ⟨directive, remaining, hread, hkeyword, -⟩ := hread
    rw [hread]
    show [sigil, letter] <+: directive.keyword ∧ _
    rw [hkeyword]
    exact ⟨List.prefix_append [sigil, letter] name, Keyword.not_endsKeyword_of_ofBody? hbody⟩
  · rw [read_of_not_isInfix hmark]
    exact ⟨rfl, hmark⟩

end Text

/-- Whether a comment is a directive is told by the text at its opening mark, in whichever token
that stands. A directive has the keyword that makes it one, and it is read wherever a closing mark
follows. -/
theorem opensAt_tells_keyword {source before opening : Text} {index : Nat}
    (htoken : (Token.split source)[index]? = some (before ++ opening))
    (hopening : commentOpen <+: opening) (line : Int) :
    let following := (Token.split source).drop (index + 1)
    let place := ((Token.split source).take index).flatten.length + before.length
    (opensAt opening following ↔
        ∃ gap sigil letter, OpensWith (source.drop place) gap sigil letter) ∧
      ∀ gap sigil letter, OpensWith (source.drop place) gap sigil letter →
        match read opening following line with
        | .error problem => problem = .unclosed ∧
            ∀ later, place + commentOpen.length ≤ later → ¬ commentClose <+: source.drop later
        | .ok (directive, _) => [sigil, letter] <+: directive.keyword ∧
            ∀ c ∈ directive.keyword, ¬ Keyword.endsKeyword c := by
  intro following place
  obtain ⟨after, rfl⟩ := hopening
  have htext : source.drop place = commentOpen ++ after ++ following.flatten :=
    Token.drop_of_split htoken
  have hsplit : Token.split (commentOpen ++ after ++ following.flatten) =
      (commentOpen ++ after) :: following :=
    Token.split_rest (Token.split_at htoken) (by simp [commentOpen])
  rw [htext]
  refine ⟨?_, fun gap sigil letter hopens => ?_⟩
  · rw [List.append_assoc] at hsplit
    rw [opensAt_of_split hsplit, begins_iff_exists_opensWith, List.append_assoc]
  · have hread := read_of_opensWith hsplit hopens line
    cases hresult : read (commentOpen ++ after) following line with
    | ok read =>
        rw [hresult] at hread
        exact hread
    | error problem =>
        rw [hresult] at hread
        obtain ⟨hproblem, hnone⟩ := hread
        refine ⟨hproblem, fun later hlater hmark => hnone ?_⟩
        obtain ⟨count, rfl⟩ := Nat.exists_eq_add_of_le hlater
        rw [Nat.add_assoc, ← List.drop_drop, htext, List.append_assoc, ← List.drop_drop,
          List.drop_left] at hmark
        exact hmark.isInfix.trans (List.drop_suffix _ _).isInfix

/-- A keyword may stand in another token than the mark that opens its comment. -/
theorem opensAt_tells_keyword_blank :
    (Token.split "a<!-- $x 1-->".toList)[0]? = some ("a".toList ++ "<!-- ".toList) ∧
      opensAt "<!-- ".toList ["$x ".toList, "1-->".toList] ∧
      ∃ directive remaining, read "<!-- ".toList ["$x ".toList, "1-->".toList] 1 =
        .ok (directive, remaining) ∧ ['$', 'x'] <+: directive.keyword := by
  have htoken : (Token.split "a<!-- $x 1-->".toList)[0]? = some ("a".toList ++ "<!-- ".toList) := by
    decide
  have hopens : OpensWith ("a<!-- $x 1-->".toList.drop 1) [' '] '$' 'x' :=
    ⟨⟨" 1-->".toList, rfl⟩, List.forall_mem_singleton.2 rfl, rfl, rfl⟩
  obtain ⟨hdirective, hread⟩ := opensAt_tells_keyword htoken (by decide) 1
  have hread := hread _ _ _ hopens
  have hfollowing : (Token.split "a<!-- $x 1-->".toList).drop (0 + 1) =
    ["$x ".toList, "1-->".toList] := by decide
  rw [hfollowing] at hdirective hread
  refine ⟨htoken, hdirective.2 ⟨_, _, _, hopens⟩, ?_⟩
  split at hread
  · exact absurd (by decide) (hread.2 10 (by decide))
  · rename_i directive remaining hok
    exact ⟨directive, remaining, hok, hread.1⟩

/-- The search for the closing mark of a comment is a plain search in the text from the opening mark
on. It fails where no closing mark stands behind the opening mark. Otherwise the body of the comment
is what stands between the two marks, and it is without a keyword if it has no sigil. The directive
that is read takes as few tokens as reach the mark, and nothing of their text is lost but a line
terminator that is all there is behind the mark. -/
theorem read_finds_first_mark {source before opening : Text} {index : Nat}
    (htoken : (Token.split source)[index]? = some (before ++ opening))
    (hopening : commentOpen <+: opening) (line : Int) :
    let following := (Token.split source).drop (index + 1)
    let text := opening ++ following.flatten
    (read opening following line = .error .unclosed ↔
        ∀ place, commentOpen.length ≤ place → ¬ commentClose <+: text.drop place) ∧
      ∀ place, IsFirstFrom commentOpen.length commentClose text place →
        let body := (text.take place).drop commentOpen.length
        (read opening following line =
            .error (.withoutKeyword (text.take (place + commentClose.length))) ↔
          ∀ c ∈ body, ¬ Keyword.isSigil c) ∧
        ((∃ c ∈ body, Keyword.isSigil c) → ∃ directive remaining,
          read opening following line = .ok (directive, remaining) ∧ directive.line = line ∧
            EndsAt opening following place directive remaining) := by
  intro following text
  obtain ⟨after, rfl⟩ := hopening
  have hsplit : Token.split (commentOpen ++ after ++ following.flatten) =
      (commentOpen ++ after) :: following :=
    Token.split_rest (Token.split_at htoken) (by simp [commentOpen])
  refine ⟨?_, fun place hplace => ?_⟩
  · rw [read_eq_unclosed_iff hsplit, ← drop_commentOpen, isInfix_drop_iff]
    simp only [not_exists, not_and, text]
  · intro body
    have hread := read_of_isFirstFrom hsplit hplace line
    dsimp only at hread
    split at hread
    · rename_i hbody
      have hnone := Keyword.ofBody?_eq_none_iff.1 hbody
      refine ⟨iff_of_true hread hnone, ?_⟩
      rintro ⟨c, hc, hsigil⟩
      exact absurd hsigil (hnone c hc)
    · rename_i entry hbody
      obtain ⟨directive, remaining, hok, hline, hends⟩ := hread
      refine ⟨iff_of_false (by rw [hok]; rintro ⟨⟩) fun hnone => ?_,
        fun _ => ⟨directive, remaining, hok, hline, hends⟩⟩
      rw [Keyword.ofBody?_eq_none_iff.2 hnone] at hbody
      cases hbody

/-- A dash in front of the closing mark belongs to the value, although it stands in the token with
the mark. -/
theorem read_finds_first_mark_dash :
    let opening := "<!--$title ".toList
    let following := ["My--->\n".toList]
    (Token.split "a<!--$title My--->\n".toList)[0]? = some ("a".toList ++ opening) ∧
      IsFirstFrom commentOpen.length commentClose (opening ++ following.flatten) 14 ∧
      ∃ directive remaining, read opening following 1 = .ok (directive, remaining) ∧
        directive.line = 1 ∧ EndsAt opening following 14 directive remaining := by
  intro opening following
  have htoken : (Token.split "a<!--$title My--->\n".toList)[0]? =
    some ("a".toList ++ opening) := by decide
  have hplace : IsFirstFrom commentOpen.length commentClose (opening ++ following.flatten) 14 := by
    decide
  have hread := (read_finds_first_mark htoken (by decide) 1).2 14 hplace
  exact ⟨htoken, hplace, hread.2 ⟨'$', by decide, by decide⟩⟩

end Directive

/-! ### The directives of a source -/

/-- What the keyword of a directive is: a sigil, a letter, and some text that neither ends a keyword
nor the comment. -/
structure Keyword.IsName (name : Text) : Prop where
  starts : startsText name
  unended : ∀ c ∈ name, ¬ endsKeyword c
  unmarked : ¬ commentClose <:+: name

/-- What the value of a directive is: a text without blanks around it that does not end the
comment. -/
structure Keyword.IsValue (value : Text) : Prop extends value.IsTrimmed where
  unmarked : ¬ commentClose <:+: value

namespace Cursor

variable {token : Token} {following : List Token} {line : Int}

/-- The tokens that are left after a step are those of the text that is left. -/
theorem split_of_step? {cursor next : Cursor} {pieces : List Piece}
    (hsplit : Token.split cursor.tokens.flatten = cursor.tokens)
    (hstep : cursor.step? = some (pieces, next)) :
    Token.split next.tokens.flatten = next.tokens := by
  obtain ⟨tokens, line⟩ := cursor
  cases tokens with
  | nil => cases hstep
  | cons token following =>
      have hbehind : Token.split following.flatten = following :=
        @Token.split_following _ [token] _ hsplit
      have hlast {before after : Text} {directive : Directive} {remaining : List Token}
          (hcut : cut? commentOpen token = some (before, after))
          (hread : Directive.read (commentOpen ++ after) following line =
            .ok (directive, remaining)) :
          ∃ passed text, token :: following =
            passed ++ (text ++ commentClose ++ directive.trailing) :: remaining := by
        obtain ⟨passed, text, hpassed⟩ := (Directive.isRead_of_read hread).last
        cases passed with
        | nil =>
            obtain ⟨rfl, rfl⟩ := List.cons.inj hpassed
            exact ⟨[], before ++ commentOpen ++ text, by rw [eq_of_cut? hcut]; simp⟩
        | cons first passed =>
            obtain ⟨-, rfl⟩ := List.cons.inj hpassed
            exact ⟨token :: passed, text, rfl⟩
      cases stepsTo_of_step? hstep with
      | copied | ordinary => exact hbehind
      | broken => rfl
      | @within _ _ directive remaining hcut _ hread hoccurs =>
          obtain ⟨passed, text, htokens⟩ := hlast hcut hread
          have hsuffix := directive.dropped_append_suffix
          rw [Directive.dropped_of_occursIn hoccurs, List.nil_append] at hsuffix
          rw [← hsuffix] at htokens
          refine Token.split_rest (hsplit.trans htokens) fun hnil => ?_
          rw [hnil] at hoccurs
          cases hoccurs
      | @behind _ _ directive remaining hcut _ hread =>
          obtain ⟨passed, text, htokens⟩ := hlast hcut hread
          rw [List.append_cons] at htokens
          exact Token.split_following (hsplit.trans htokens)

theorem Reads.split_tokens {source : Text} {passed : List Piece} {cursor : Cursor}
    (hreads : Reads source passed cursor) :
    Token.split cursor.tokens.flatten = cursor.tokens := by
  induction hreads with
  | start => exact congrArg Token.split (Token.flatten_split source)
  | step _ hstep ih => exact split_of_step? ih hstep

end Cursor

/-- How a directive of a source was read. -/
theorem Piece.exists_read {source : Text} {found : Directive}
    (hpiece : directive found ∈ ofSource source) : ∃ after following remaining line,
      Token.split (commentOpen ++ after ++ following.flatten) =
        (commentOpen ++ after) :: following ∧
      Directive.opensAt (commentOpen ++ after) following ∧
      Directive.read (commentOpen ++ after) following line = .ok (found, remaining) := by
  obtain ⟨before, after, hpieces⟩ := List.append_of_mem hpiece
  have hstart : Cursor.Reads source [] ⟨Token.split source, 1⟩ := .start
  obtain ⟨passed, ⟨tokens, line⟩, pieces, next, inner, rest, hreads, hstep, rfl, -⟩ :=
    hstart.exists_step hpieces
  have hsplit := hreads.split_tokens
  have hmem : directive found ∈ inner ++ directive found :: rest :=
    List.mem_append_right _ List.mem_cons_self
  generalize inner ++ directive found :: rest = pieces at hstep hmem
  cases tokens with
  | nil => cases hstep
  | cons token following =>
      have hopening {before after : Text} (hcut : cut? commentOpen token = some (before, after)) :
          Token.split (commentOpen ++ after ++ following.flatten) =
            (commentOpen ++ after) :: following := by
        rw [eq_of_cut? hcut, List.append_assoc] at hsplit
        exact @Token.split_rest _ before _ [] _ hsplit (by simp [commentOpen])
      cases Cursor.stepsTo_of_step? hstep with
      | copied | ordinary | broken => simp at hmem
      | within hcut hopens hread =>
          obtain rfl : found = _ := by simpa using hmem
          exact ⟨_, _, _, _, hopening hcut, hopens, hread⟩
      | behind hcut hopens hread =>
          obtain rfl : found = _ := by simpa using hmem
          exact ⟨_, _, _, _, hopening hcut, hopens, hread⟩

theorem Piece.isName_keyword {source : Text} {found : Directive}
    (hpiece : directive found ∈ ofSource source) : Keyword.IsName found.keyword := by
  obtain ⟨after, following, remaining, line, hsplit, hopens, hread⟩ := exists_read hpiece
  obtain ⟨body, behind, hcut, hbody⟩ := Directive.exists_cut?_of_read hsplit hread
  have hunmarked := not_isInfix_of_cut? (by decide) hcut
  rw [List.append_assoc] at hsplit
  rw [Directive.opensAt_of_split hsplit, Directive.begins_iff_exists_opensWith] at hopens
  obtain ⟨gap, sigil, letter, hopens⟩ := hopens
  rw [← List.append_assoc] at hsplit hopens
  have hkeyword := Directive.read_of_opensWith hsplit hopens line
  rw [hread] at hkeyword
  obtain ⟨⟨name, hname⟩, hended⟩ := hkeyword
  exact
    { starts := Keyword.startsText_iff.2
        ⟨sigil, letter, name, hname.symm, hopens.sigil, hopens.letter⟩
      unended := hended
      unmarked := fun hmark => hunmarked (hmark.trans (Keyword.keyword_isInfix hbody)) }

theorem Piece.isValue_value {source value : Text} {found : Directive}
    (hpiece : directive found ∈ ofSource source) (hvalue : found.value = some value) :
    Keyword.IsValue value := by
  obtain ⟨after, following, remaining, line, hsplit, -, hread⟩ := exists_read hpiece
  obtain ⟨body, behind, hcut, hbody⟩ := Directive.exists_cut?_of_read hsplit hread
  rw [hvalue] at hbody
  have hunmarked := not_isInfix_of_cut? (by decide) hcut
  exact
    { Keyword.isTrimmed_of_ofBody? hbody with
      unmarked := fun hmark => hunmarked (hmark.trans (Keyword.value_isInfix hbody)) }

end KitTemplate
