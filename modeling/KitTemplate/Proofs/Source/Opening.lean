import KitTemplate.Proofs.Source.Comment
import KitTemplate.Proofs.Source.Ordinary
import KitTemplate.Proofs.Source.Position

/-! Where directives are seen. Whether a comment is a directive is a matter of the text from its
opening mark on, however that text is cut into tokens (`Directive.opensAt_of_split`). But only the
first comment of a token is looked at, and if it is an ordinary one, the token is copied whole. So a
directive is hidden if another comment opens before it in its token, and a text in which all of them
are hidden is inert: it is copied, and reading goes on behind the token in which it ends. -/

namespace KitTemplate

open Text

/-! ### Openings -/

theorem Keyword.startsText_of_split {text : Text} {token : Token} {more : List Token}
    (hsplit : Token.split text = token :: more) : startsText token = startsText text := by
  rw [Bool.eq_iff_iff]
  constructor
  · intro hstarts
    rw [← Token.flatten_split text, hsplit]
    exact startsText_append hstarts _
  · intro hstarts
    match text, hstarts with
    | sigil :: letter :: rest, hstarts =>
      have hsigil : isSigil sigil := (Bool.and_eq_true_iff.1 hstarts).1
      have hjoins : Token.endsAfter sigil (letter :: rest).head? = false := by
        simp only [isSigil, Bool.or_eq_true, decide_eq_true_eq] at hsigil
        rcases hsigil with rfl | rfl <;> rfl
      obtain ⟨first, others, hrest⟩ := List.exists_cons_of_ne_nil
        (Token.split_ne_nil (List.cons_ne_nil letter rest))
      rw [Token.split_cons_of_joins hrest hjoins] at hsplit
      obtain ⟨rfl, -⟩ := List.cons.inj hsplit
      have hfirst : first ≠ [] := Token.ne_nil_of_mem_split (hrest ▸ List.mem_cons_self)
      obtain ⟨c, inner, rfl⟩ := List.exists_cons_of_ne_nil hfirst
      have hhead := Token.flatten_split (letter :: rest)
      rw [hrest] at hhead
      obtain ⟨rfl, -⟩ := List.cons.inj hhead
      exact hstarts

/-- The first token that is no run of layout characters begins with a keyword if the text does,
layout characters aside. -/
theorem Keyword.any_startsText_split (text : Text) :
    ((Token.split text).dropWhile isLayoutRun).head?.any startsText =
      startsText (text.dropWhile isLayout) := by
  induction text with
  | nil => rfl
  | cons c rest ih =>
      by_cases hlayout : isLayout c
      · rw [List.dropWhile_cons_of_pos hlayout, ← ih]
        by_cases hends : Token.endsAfter c rest.head? = true
        · have hrun : isLayoutRun [c] := by simp [isLayoutRun, hlayout]
          rw [Token.split_cons_of_ends hends, List.dropWhile_cons_of_pos hrun]
        · -- a carriage return shares the token of its line feed
          obtain ⟨rfl, hfeed⟩ : c = '\r' ∧ rest.head? = some '\n' := by
            simp only [isLayout, Bool.or_eq_true, decide_eq_true_eq] at hlayout
            rcases hlayout with ((rfl | rfl) | rfl) | rfl <;> simp [Token.endsAfter] at hends ⊢
            exact hends
          obtain ⟨rest, rfl⟩ := List.head?_eq_some_iff.1 hfeed
          have hfeed : Token.split ('\n' :: rest) = ['\n'] :: Token.split rest :=
            Token.split_cons_of_ends rfl
          have hpair : Token.split ('\r' :: '\n' :: rest) = ['\r', '\n'] :: Token.split rest :=
            Token.split_cons_of_joins hfeed rfl
          rw [hpair, hfeed, List.dropWhile_cons_of_pos (by decide),
            List.dropWhile_cons_of_pos (by decide)]
      · obtain ⟨token, more, hsplit⟩ := List.exists_cons_of_ne_nil
          (Token.split_ne_nil (List.cons_ne_nil c rest))
        have hflatten := Token.flatten_split (c :: rest)
        have htoken : token ≠ [] := Token.ne_nil_of_mem_split (hsplit ▸ List.mem_cons_self)
        obtain ⟨first, inner, rfl⟩ := List.exists_cons_of_ne_nil htoken
        rw [hsplit] at hflatten
        obtain ⟨rfl, -⟩ := List.cons.inj hflatten
        have hrun : ¬ isLayoutRun (first :: inner) := by simp [isLayoutRun, hlayout]
        rw [List.dropWhile_cons_of_neg hlayout, hsplit, List.dropWhile_cons_of_neg hrun,
          List.head?_cons, Option.any_some, startsText_of_split hsplit]

namespace Directive

theorem split_commentOpen {text : Text} {token : Token} {more : List Token}
    (hsplit : Token.split text = token :: more) :
    Token.split (commentOpen ++ text) = (commentOpen ++ token) :: more := by
  have hlast : Token.split ('-' :: text) = ('-' :: token) :: more :=
    Token.split_cons_of_joins hsplit rfl
  have hwhole : Token.IsWhole (['<', '!', '-'] ++ ['-']) := by decide
  exact Token.split_append_of_isWhole hwhole hlast

/-- Whether a comment is a directive, told from the text that it opens. -/
theorem opensAt_of_split {text after : Text} {following : List Token}
    (hsplit : Token.split (commentOpen ++ text) = (commentOpen ++ after) :: following) :
    opensAt (commentOpen ++ after) following = begins (commentOpen ++ text) := by
  have hopen : commentOpen.isPrefixOf? (commentOpen ++ text) = some text :=
    isPrefixOf?_eq_some_iff.2 rfl
  rw [begins, hopen, Option.any_some, ← Keyword.any_startsText_split, opensAt, List.drop_left]
  cases text with
  | nil =>
      have hnone : Token.split (commentOpen ++ []) = [commentOpen ++ []] := by decide
      rw [hnone] at hsplit
      obtain ⟨hafter, rfl⟩ := List.cons.inj hsplit
      rw [← List.append_cancel_left hafter]
      rfl
  | cons c rest =>
      obtain ⟨token, more, hrest⟩ := List.exists_cons_of_ne_nil
        (Token.split_ne_nil (List.cons_ne_nil c rest))
      rw [split_commentOpen hrest] at hsplit
      obtain ⟨hafter, rfl⟩ := List.cons.inj hsplit
      obtain rfl := List.append_cancel_left hafter
      have htoken : token ≠ [] := Token.ne_nil_of_mem_split (hrest ▸ List.mem_cons_self)
      have hempty : token.isEmpty = false := by simpa using htoken
      rw [hrest, hempty, Bool.false_or]
      by_cases hrun : isLayoutRun token
      · obtain ⟨first, inner, rfl⟩ := List.exists_cons_of_ne_nil htoken
        have hfirst : isLayout first := by
          simp only [isLayoutRun, List.all_cons, Bool.and_eq_true] at hrun
          exact hrun.2.1
        have hstarts : Keyword.startsText (first :: inner) = false := by
          rw [← Bool.not_eq_true]
          exact fun hstarts => Keyword.not_isLayout_of_startsText hstarts hfirst
        rw [List.dropWhile_cons_of_pos hrun, hrun, hstarts, Bool.true_and, Bool.false_or]
      · rw [List.dropWhile_cons_of_neg hrun, List.head?_cons, Option.any_some]
        simp [hrun]

end Directive

/-! ### Marks in joined texts -/

namespace Text

variable {before text : Text}

/-- No opening mark stands across two texts where the second begins with an angle bracket or the
first ends with one. -/
theorem not_isPrefix_commentOpen (hmark : ¬ commentOpen <:+: before)
    (hmeet : text.head? = some '<' ∨ ∀ c ∈ before.getLast?, c = '>') {rest : Text}
    (hrest : rest <:+ before) (hne : rest ≠ []) : ¬ commentOpen <+: rest ++ text := by
  intro hprefix
  have hlast : text.head? = some '<' ∨ rest.getLast? = some '>' := by
    refine hmeet.imp_right fun hlast => ?_
    obtain ⟨first, rfl⟩ := hrest
    rw [List.getLast?_append_of_ne_nil _ hne] at hlast
    rw [List.getLast?_eq_some_getLast hne] at hlast ⊢
    rw [hlast _ rfl]
  match rest with
  | [] => exact hne rfl
  | [_] | [_, _] | [_, _, _] =>
    obtain ⟨more, hmore⟩ := hprefix
    rcases hlast with hhead | hlast
    · obtain ⟨inner, rfl⟩ := List.head?_eq_some_iff.1 hhead
      simp [commentOpen] at hmore
    · simp [commentOpen] at hmore hlast
      grind
  | first :: second :: third :: fourth :: inner =>
    obtain ⟨more, hmore⟩ := hprefix
    obtain ⟨rfl, rfl, rfl, rfl, -⟩ := by simpa [commentOpen] using hmore
    exact hmark (List.IsInfix.trans (List.prefix_append commentOpen inner).isInfix hrest.isInfix)

end Text

/-! ### Hidden directives -/

/-- What opens behind a text is hidden if another comment opens before it in its token. -/
def Text.Hides (before : Text) : Prop := commentOpen <:+: Token.unended before

/-- No directive that opens in a text is seen when `following` stands behind the text. -/
def Text.IsInertBefore (text following : Text) : Prop :=
  ∀ before rest, text = before ++ rest → rest ≠ [] → Directive.begins (rest ++ following) →
    before.Hides

/-- A text in which every directive is hidden. -/
def Text.IsInert (text : Text) : Prop :=
  ∀ before rest, text = before ++ rest → Directive.begins rest → before.Hides

instance (before : Text) : Decidable before.Hides :=
  inferInstanceAs (Decidable (commentOpen <:+: Token.unended before))

instance (text : Text) : Decidable text.IsInert :=
  decidable_of_iff (∀ count < text.length + 1,
      Directive.begins (text.drop count) → Text.Hides (text.take count)) <| by
    constructor
    · rintro hinert before rest rfl hbegins
      have hcount := hinert before.length (by simp only [List.length_append]; omega)
      rw [List.drop_left, List.take_left] at hcount
      exact hcount hbegins
    · intro hinert count _ hbegins
      exact hinert _ _ (List.take_append_drop count text).symm hbegins

theorem Text.Hides.isInfix {before : Text} (hhides : before.Hides) : commentOpen <:+: before := by
  obtain ⟨tokens, shared, first, more, hjoint⟩ :=
    Token.exists_isJoint (List.cons_ne_nil '<' []) before
  rw [Text.Hides, Token.unended_of_isJoint hjoint rfl] at hhides
  exact hhides.trans (hjoint.place ▸ List.suffix_append _ _).isInfix

/-- Nothing is hidden where a new token begins. -/
theorem Text.not_hides_of_endsAfter {before : Text}
    (hends : ∀ c ∈ before.getLast?, Token.endsAfter c (some '<')) : ¬ before.Hides := by
  obtain ⟨tokens, shared, first, more, hjoint⟩ :=
    Token.exists_isJoint (List.cons_ne_nil '<' []) before
  rw [Text.Hides, Token.unended_of_isJoint hjoint rfl]
  rcases List.eq_nil_or_concat shared with rfl | ⟨inner, last, rfl⟩
  · decide
  · have hlast : Token.endsAfter last (some '<') :=
      hends last (by rw [← hjoint.place]; simp)
    obtain ⟨after, rfl⟩ := List.head?_eq_some_iff.1 hjoint.head?_first
    have hwhole := hjoint.isWhole
    rw [List.concat_eq_append, List.append_assoc] at hwhole
    have hjoins := (List.isChain_append_cons_cons.1 hwhole).2.1
    rw [hlast] at hjoins
    cases hjoins

theorem Text.IsOrdinary.isInert {text : Text} (hordinary : text.IsOrdinary) : text.IsInert := by
  rintro before rest rfl hbegins
  refine absurd hbegins (Text.isOrdinary_iff.1 hordinary rest ?_)
  exact (List.mem_tails _ _).2 (List.suffix_append before rest)

namespace Directive

theorem begins_append {text : Text} (hbegins : begins text) (more : Text) :
    begins (text ++ more) := by
  obtain ⟨gap, rest, rfl, hgap, hstarts⟩ := begins_iff.1 hbegins
  exact begins_iff.2 ⟨gap, rest ++ more, by simp, hgap, Keyword.startsText_append hstarts more⟩

/-- A directive does not open across an angle bracket. -/
theorem begins_of_append {text more : Text} {c : Char} (hc : c = '<' ∨ c = '>')
    (htext : text ≠ []) (hbegins : begins (text ++ c :: more)) : begins text := by
  obtain ⟨gap, rest, hopening, hgap, hstarts⟩ := begins_iff.1 hbegins
  match rest, hstarts with
  | sigil :: letter :: rest, hstarts =>
    have hopens (more : Text) : begins (commentOpen ++ gap ++ sigil :: letter :: more) :=
      begins_iff.2 ⟨gap, _, rfl, hgap, hstarts⟩
    rw [List.append_cons _ sigil, List.append_cons _ letter] at hopening
    rcases List.append_eq_append_iff.1 hopening with ⟨inner, hinner, hmore⟩ | ⟨inner, rfl, -⟩
    · cases inner with
      | nil =>
          rw [List.append_nil] at hinner
          rw [← hinner]
          simpa using hopens []
      | cons bracket inner =>
          -- the bracket stands neither in the mark, nor in the gap, nor in what makes a keyword
          obtain ⟨rfl, -⟩ := List.cons.inj hmore
          obtain ⟨first, text, rfl⟩ := List.exists_cons_of_ne_nil htext
          have htail : ['!', '-', '-'] ++ gap ++ [sigil] ++ [letter] = text ++ c :: inner :=
            (List.cons.inj hinner).2
          have hmem : c ∈ ['!', '-', '-'] ++ gap ++ [sigil] ++ [letter] := by
            rw [htail]
            simp
          simp only [Keyword.startsText, Bool.and_eq_true] at hstarts
          simp only [List.append_assoc, List.mem_append, List.mem_singleton] at hmem
          rcases hmem with hmark | hmem | rfl | rfl
          · rcases hc with rfl | rfl <;> simp at hmark
          · have hlayout := hgap c hmem
            rcases hc with rfl | rfl <;> cases hlayout
          · rcases hc with rfl | rfl <;> cases hstarts.1
          · rcases hc with rfl | rfl <;> cases hstarts.2
    · simpa using hopens inner

end Directive

namespace Cursor

variable {text following shared first : Text} {tokens more : List Token}

/-- A comment that opens in an inert text and is the first one in its token is no directive. -/
theorem not_opensAt_of_isInertBefore (hinert : text.IsInertBefore following)
    {passed later : List Token} {token before after rest : Text}
    (hsplit : Token.split (text ++ following) = passed ++ token :: later)
    (hcut : cut? commentOpen token = some (before, after))
    (hplace : text = passed.flatten ++ before ++ rest) (hrest : rest ≠ []) :
    ¬ Directive.opensAt (commentOpen ++ after) later := by
  intro hopens
  obtain rfl : token = before ++ (commentOpen ++ after) := by simpa using eq_of_cut? hcut
  have hrun : Token.split (commentOpen ++ (after ++ later.flatten)) =
      (commentOpen ++ after) :: later := by
    simpa using Token.split_rest hsplit (by simp [commentOpen])
  have htext : rest ++ following = commentOpen ++ (after ++ later.flatten) := by
    have hsource := Token.flatten_split (text ++ following)
    rw [hsplit, hplace] at hsource
    simpa using hsource.symm
  have hunended : Token.unended (passed.flatten ++ before) = before :=
    Token.unended_of_split hsplit
  rw [Directive.opensAt_of_split hrun, ← htext] at hopens
  have hhides := hinert _ _ hplace hrest hopens
  rw [Text.Hides, hunended] at hhides
  exact not_isInfix_of_cut? (by decide) hcut hhides

/-- A step over a token is also a step over the token with text in front in which no comment opens.
-/
theorem step?_append (hmark : ¬ commentOpen <:+: shared)
    (hmeet : first.head? = some '<' ∨ ∀ c ∈ shared.getLast?, c = '>')
    (hbreaks : lineBreaks (shared ++ first) = lineBreaks first) (line : Int) :
    ∃ text rest next, step? ⟨first :: more, line⟩ = some (.literal text :: rest, next) ∧
      step? ⟨(shared ++ first) :: more, line⟩ = some (.literal (shared ++ text) :: rest, next) := by
  have hjoined := cut?_append fun _ => not_isPrefix_commentOpen hmark hmeet
  cases hcut : cut? commentOpen first with
  | none =>
      rw [hcut] at hjoined
      rw [Option.map_none] at hjoined
      simp only [step?, hcut, hjoined, hbreaks]
      exact ⟨first, [], _, rfl, rfl⟩
  | some sides =>
      obtain ⟨before, after⟩ := sides
      rw [hcut] at hjoined
      simp only [step?, hcut, hjoined, Option.map_some]
      split
      · split
        · exact ⟨before, _, _, rfl, rfl⟩
        · split
          · exact ⟨before, _, _, rfl, rfl⟩
          · exact ⟨before, _, _, rfl, rfl⟩
      · exact ⟨first, [], _, rfl, rfl⟩

theorem pieces_append_left (hmark : ¬ commentOpen <:+: shared)
    (hmeet : first.head? = some '<' ∨ ∀ c ∈ shared.getLast?, c = '>')
    (hbreaks : lineBreaks (shared ++ first) = lineBreaks first) (more : List Token) (line : Int) :
    ∃ text rest, pieces ⟨first :: more, line⟩ = .literal text :: rest ∧
      pieces ⟨(shared ++ first) :: more, line⟩ = .literal (shared ++ text) :: rest := by
  obtain ⟨text, rest, next, hstep, hjoined⟩ := step?_append hmark hmeet hbreaks line
  exact ⟨text, rest ++ next.pieces, by rw [pieces_of_step?_eq_some hstep, List.cons_append],
    by rw [pieces_of_step?_eq_some hjoined, List.cons_append]⟩

/-- Tokens whose first comments are ordinary ones are copied. -/
theorem pieces_of_not_opensAt {following : List Token} (hrun : Token.IsRun (tokens ++ following))
    (hopens : ∀ passed token later, tokens = passed ++ token :: later → ∀ before after,
      cut? commentOpen token = some (before, after) →
        ¬ Directive.opensAt (commentOpen ++ after) (later ++ following)) (line : Int) :
    pieces ⟨tokens ++ following, line⟩ = tokens.map .literal ++
      pieces ⟨following, line + lineBreaks tokens.flatten⟩ := by
  induction tokens generalizing line with
  | nil =>
      have hnone : line + lineBreaks [].flatten = line := Int.add_zero line
      rw [hnone]
      rfl
  | cons token tokens ih =>
      have hwhole := hrun.whole token List.mem_cons_self
      have hstep : step? ⟨token :: (tokens ++ following), line⟩ =
          some ([.literal token], ⟨tokens ++ following, line + lineBreaks token⟩) := by
        cases hcut : cut? commentOpen token with
        | none => simp only [step?, hcut]
        | some sides =>
            obtain ⟨before, after⟩ := sides
            have hordinary := hopens [] token tokens rfl before after hcut
            obtain rfl := eq_of_cut? hcut
            simp only [step?, hcut, hordinary, lineBreaks_commentOpen hwhole]
            rfl
      have huncut : ¬ CutsPair token tokens.flatten := by
        cases tokens with
        | nil => exact Token.not_cutsPair_nil token
        | cons next tokens =>
            have hnext : Token.IsRun (token :: next :: (tokens ++ following)) := hrun
            have hcut := hnext.not_cutsPair
            rw [List.flatten_cons, Token.cutsPair_append_right hnext.tail.head_ne_nil] at hcut
            rwa [List.flatten_cons, Token.cutsPair_append_right hnext.tail.head_ne_nil]
      have hlines : line + lineBreaks (token :: tokens).flatten =
          line + lineBreaks token + lineBreaks tokens.flatten := by
        rw [List.flatten_cons, lineBreaks_eq_scanLineBreaks, scanLineBreaks_append huncut,
          ← lineBreaks_eq_scanLineBreaks, ← lineBreaks_eq_scanLineBreaks]
        push_cast
        omega
      rw [List.cons_append, pieces_of_step?_eq_some hstep, hlines, ih hrun.tail]
      · rfl
      · rintro passed other later rfl
        exact hopens (token :: passed) other later rfl

/-- The pieces of an inert text are its tokens. -/
theorem pieces_of_isInert (hinert : text.IsInert) (line : Int) :
    pieces ⟨Token.split text, line⟩ = (Token.split text).map .literal := by
  have hrun : Token.IsRun (Token.split text ++ []) := by
    rw [List.append_nil]
    exact Token.isRun_split text
  have hnone : pieces ⟨[], line + lineBreaks (Token.split text).flatten⟩ = [] :=
    pieces_of_step?_eq_none rfl
  have hpieces := pieces_of_not_opensAt hrun ?_ line
  · rwa [List.append_nil, hnone, List.append_nil] at hpieces
  · intro passed token later htokens before after hcut
    have hbefore : text.IsInertBefore [] := fun before rest htext _ hbegins =>
      hinert before rest htext (by rwa [List.append_nil] at hbegins)
    have hplace : text = passed.flatten ++ before ++ (commentOpen ++ (after ++ later.flatten)) := by
      rw [← Token.flatten_split text, htokens, eq_of_cut? hcut]
      simp
    rw [List.append_nil]
    refine not_opensAt_of_isInertBefore hbefore ?_ hcut hplace (by simp [commentOpen])
    rw [List.append_nil, htokens]

/-- No token of an inert text in front of the one in which it ends opens a directive. -/
theorem not_opensAt_of_isJoint (hinert : text.IsInertBefore following)
    (hjoint : Token.IsJoint text following tokens shared first more)
    (passed : List Token) (token : Token) (later : List Token)
    (htokens : tokens = passed ++ token :: later) (before after : Text)
    (hcut : cut? commentOpen token = some (before, after)) :
    ¬ Directive.opensAt (commentOpen ++ after) (later ++ (shared ++ first) :: more) := by
  subst htokens
  have hsplit : Token.split (text ++ following) =
      passed ++ token :: (later ++ (shared ++ first) :: more) := by simp [hjoint.joined]
  have hplace : text = passed.flatten ++ before ++
      (commentOpen ++ (after ++ later.flatten ++ shared)) := by
    rw [← hjoint.place, eq_of_cut? hcut]
    simp
  exact not_opensAt_of_isInertBefore hinert hsplit hcut hplace (by simp [commentOpen])

/-- Where an inert text ends in a token in which no comment opens before its end, reading goes on as
at the beginning of what follows. -/
theorem pieces_append_of_not_isInfix (hinert : text.IsInertBefore following)
    (hjoint : Token.IsJoint text following tokens shared first more)
    (hmeet : following.head? = some '<' ∨ text.getLast? = some '>')
    (hmark : ¬ commentOpen <:+: shared) (line : Int) :
    ∃ begun rest, pieces ⟨Token.split following, line + lineBreaks text⟩ = .literal begun :: rest ∧
      pieces ⟨Token.split (text ++ following), line⟩ =
        tokens.map .literal ++ .literal (shared ++ begun) :: rest := by
  have hunbroken := hjoint.not_mem_shared hmeet
  have hmeet' : first.head? = some '<' ∨ ∀ c ∈ shared.getLast?, c = '>' := by
    rw [hjoint.head?_first]
    refine hmeet.imp_right fun hlast c hc => ?_
    rw [← hjoint.place, List.getLast?_append, Option.mem_def.1 hc] at hlast
    exact Option.some.inj hlast
  have hlines : lineBreaks text = lineBreaks tokens.flatten := by
    rw [← hjoint.place, lineBreaks_append_right hunbroken]
  have hbreaks := lineBreaks_append_left hunbroken first
  obtain ⟨begun, rest, hbegun, hshared⟩ :=
    pieces_append_left hmark hmeet' hbreaks more (line + lineBreaks text)
  refine ⟨begun, rest, by rw [hjoint.behind, hbegun], ?_⟩
  rw [hjoint.joined, pieces_of_not_opensAt hjoint.isRun (not_opensAt_of_isJoint hinert hjoint),
    ← hlines, hshared]

/-- Where an inert text ends in a token in which a comment opens before its end, the token is
copied. -/
theorem pieces_append_of_isInfix (hinert : text.IsInertBefore following)
    (hjoint : Token.IsJoint text following tokens shared first more)
    (hmark : commentOpen <:+: shared) (line : Int) :
    pieces ⟨Token.split (text ++ following), line⟩ = (tokens ++ [shared ++ first]).map .literal ++
      pieces ⟨more, line + lineBreaks (text ++ first)⟩ := by
  obtain ⟨before, after, hcut⟩ := exists_cut? (by decide) hmark
  have hshared := eq_of_cut? hcut
  have hcut := cut?_append_right (by decide) hcut first
  have hlast : ¬ Directive.opensAt (commentOpen ++ (after ++ first)) more := by
    have hplace : text = tokens.flatten ++ before ++ (commentOpen ++ after) := by
      rw [← hjoint.place, hshared]
      simp
    exact not_opensAt_of_isInertBefore hinert hjoint.joined hcut hplace (by simp [commentOpen])
  have hrun : Token.IsRun (tokens ++ [shared ++ first] ++ more) := by
    simpa using hjoint.isRun
  have htext : (tokens ++ [shared ++ first]).flatten = text ++ first := by
    simp [← hjoint.place]
  rw [hjoint.joined, List.append_cons, pieces_of_not_opensAt hrun, htext]
  intro passed token later htokens before' after' hcut'
  rcases List.eq_nil_or_concat later with rfl | ⟨later, last, rfl⟩
  · obtain ⟨-, htoken⟩ := List.append_inj' htokens rfl
    obtain rfl := List.singleton_inj.1 htoken
    obtain ⟨rfl, rfl⟩ := Prod.mk.inj (Option.some.inj (hcut.symm.trans hcut'))
    exact hlast
  · rw [List.concat_eq_append, ← List.cons_append, ← List.append_assoc] at htokens
    obtain ⟨hpassed, hlater⟩ := List.append_inj' htokens rfl
    obtain rfl := List.singleton_inj.1 hlater
    have hopens := not_opensAt_of_isJoint hinert hjoint passed token later hpassed _ _ hcut'
    simpa using hopens

end Cursor

end KitTemplate
