import KitTemplate.Proofs.Source.TokenRun
import KitTemplate.Source.Directive

/-! Segmentation of a source. The tokens of a source are the only texts that make it up and meet
exactly at its boundaries: behind a blank or a line terminator, and between the end of a tag and the
beginning of the next one. A boundary can be told from the two characters beside it, so what stands
before one and what stands behind it are cut up by themselves, and a text without boundaries, such
as the marks of a comment, lies within one token wherever it stands. -/

namespace KitTemplate.Token

open Text

/-- Two texts meet behind a space, a tab or a line feed, behind a carriage return that no line feed
follows, or between two angle brackets. -/
def MeetAtBoundary (before after : Text) : Prop :=
  ∃ c ∈ before.getLast?, ∃ next ∈ after.head?,
    c = ' ' ∨ c = '\t' ∨ c = '\n' ∨ c = '\r' ∧ next ≠ '\n' ∨ c = '>' ∧ next = '<'

/-- Texts that make up a source and meet at its boundaries and nowhere else. -/
structure IsSegmentation (source : Text) (tokens : List Token) : Prop where
  nonempty : ∀ token ∈ tokens, token ≠ []
  flatten : tokens.flatten = source
  boundaries : ∀ before after, before ++ after = source → before ≠ [] → after ≠ [] →
    ((∃ passed following, tokens = passed ++ following ∧ passed.flatten = before) ↔
      MeetAtBoundary before after)

variable {source before after : Text} {token : Token} {tokens passed following : List Token}
  {c next : Char}

/-! ### Boundaries -/

theorem endsAfter_some_iff : endsAfter c (some next) = true ↔
    c = ' ' ∨ c = '\t' ∨ c = '\n' ∨ c = '\r' ∧ next ≠ '\n' ∨ c = '>' ∧ next = '<' := by
  simp [endsAfter, or_assoc]

theorem meetAtBoundary_concat_cons (read rest : Text) :
    MeetAtBoundary (read ++ [c]) (next :: rest) ↔ endsAfter c (some next) = true := by
  simp [MeetAtBoundary, endsAfter_some_iff]

theorem meetAtBoundary_append_left (hbefore : before ≠ []) (read : Text) :
    MeetAtBoundary (read ++ before) after ↔ MeetAtBoundary before after := by
  rw [MeetAtBoundary, MeetAtBoundary, List.getLast?_append_of_ne_nil _ hbefore]

/-- What stands before a boundary and what stands behind it are cut up by themselves. -/
theorem split_append_of_meetAtBoundary (hmeet : MeetAtBoundary before after) :
    split (before ++ after) = split before ++ split after := by
  obtain ⟨c, hc, next, hnext, hrule⟩ := hmeet
  obtain ⟨read, rfl⟩ := List.getLast?_eq_some_iff.1 hc
  obtain ⟨rest, rfl⟩ := List.head?_eq_some_iff.1 hnext
  rw [List.append_assoc]
  exact split_append_of_ends (endsAfter_some_iff.2 hrule) read

/-- The tokens of a source meet at boundaries. -/
theorem meetAtBoundary_of_split (hsplit : split source = passed ++ following)
    (hpassed : passed ≠ []) (hfollowing : following ≠ []) :
    MeetAtBoundary passed.flatten following.flatten := by
  induction source generalizing passed with
  | nil => exact absurd (List.append_eq_nil_iff.1 hsplit.symm).1 hpassed
  | cons c rest ih =>
      obtain ⟨token, passed, rfl⟩ := List.exists_cons_of_ne_nil hpassed
      -- the first token holds more than its first character, or tokens of the rest stand behind it
      have hjoined {first : Token} {others : List Token}
          (hrest : split rest = (first :: others) ++ following) :
          MeetAtBoundary ([c] ++ (first :: others).flatten) following.flatten := by
        have hmem : first ∈ split rest := by simp [hrest]
        have hfirst : first ≠ [] := ne_nil_of_mem_split hmem
        rw [meetAtBoundary_append_left (by simp [hfirst])]
        exact ih hrest (List.cons_ne_nil _ _)
      by_cases hends : endsAfter c rest.head? = true
      · rw [split_cons_of_ends hends] at hsplit
        obtain ⟨rfl, hrest⟩ := List.cons.inj hsplit
        cases passed with
        | nil =>
            obtain rfl : split rest = following := hrest
            cases rest with
            | nil => exact absurd rfl hfollowing
            | cons next after =>
                rw [flatten_split]
                exact (meetAtBoundary_concat_cons [] after).2 hends
        | cons first others => exact hjoined hrest
      · rw [Bool.not_eq_true] at hends
        cases hrest : split rest with
        | nil =>
            rw [split_cons, if_neg (by simp [hends]), hrest] at hsplit
            exact absurd (List.append_eq_nil_iff.1 (List.cons.inj hsplit).2.symm).2 hfollowing
        | cons first others =>
            rw [split_cons_of_joins hrest hends] at hsplit
            obtain ⟨rfl, rfl⟩ := List.cons.inj hsplit
            exact hjoined hrest

/-! ### Uniqueness -/

namespace IsSegmentation

/-- A token has no boundary inside. -/
theorem isWhole_head (hseg : IsSegmentation source (token :: tokens)) : IsWhole token := by
  refine List.isChain_iff_forall_rel_of_append_cons_cons.2 fun c next before after htoken => ?_
  by_contra hends
  rw [Bool.not_eq_false] at hends
  have hsource : before ++ [c] ++ (next :: after ++ tokens.flatten) = source := by
    rw [← hseg.flatten, htoken]
    simp
  obtain ⟨passed, following, htokens, hplace⟩ :=
    (hseg.boundaries _ _ hsource (by simp) (by simp)).2 ((meetAtBoundary_concat_cons _ _).2 hends)
  cases passed with
  | nil => simp at hplace
  | cons first passed =>
      obtain ⟨rfl, -⟩ := List.cons.inj htokens
      have hlength := congrArg List.length hplace
      rw [htoken] at hlength
      simp at hlength

theorem tail (hseg : IsSegmentation source (token :: tokens)) :
    IsSegmentation tokens.flatten tokens where
  nonempty other hother := hseg.nonempty other (List.mem_cons_of_mem _ hother)
  flatten := rfl
  boundaries before after hsource hbefore hafter := by
    have hwhole : token ++ before ++ after = source := by
      rw [List.append_assoc, hsource, ← hseg.flatten]
      rfl
    have hplaces := hseg.boundaries _ _ hwhole (by simp [hbefore]) hafter
    rw [meetAtBoundary_append_left hbefore] at hplaces
    rw [← hplaces]
    constructor
    · rintro ⟨passed, following, rfl, rfl⟩
      exact ⟨token :: passed, following, rfl, rfl⟩
    · rintro ⟨passed, following, htokens, hplace⟩
      cases passed with
      | nil => simp [hbefore] at hplace
      | cons first passed =>
          obtain ⟨rfl, rfl⟩ := List.cons.inj htokens
          exact ⟨passed, following, rfl, List.append_cancel_left hplace⟩

end IsSegmentation

/-- The tokens of a source are its only segmentation. -/
theorem isSegmentation_iff : IsSegmentation source tokens ↔ tokens = split source := by
  constructor
  · intro hseg
    induction tokens generalizing source with
    | nil => rw [← hseg.flatten]; rfl
    | cons token tokens ih =>
        have htoken : split token = [token] :=
          split_of_isWhole (hseg.nonempty token List.mem_cons_self) hseg.isWhole_head
        have hrest := ih hseg.tail
        have hsource := hseg.flatten
        rw [List.flatten_cons] at hsource
        cases tokens with
        | nil => simpa [htoken] using congrArg split hsource
        | cons other tokens =>
            have hmeet : MeetAtBoundary token (other :: tokens).flatten := by
              refine (hseg.boundaries _ _ hsource ?_ ?_).1 ⟨[token], other :: tokens, rfl, by simp⟩
              · exact hseg.nonempty token List.mem_cons_self
              · have hother := hseg.nonempty other (by simp)
                simp [hother]
            rw [← hsource, split_append_of_meetAtBoundary hmeet, htoken, ← hrest]
            rfl
  · rintro rfl
    refine ⟨fun token => ne_nil_of_mem_split, flatten_split source, ?_⟩
    rintro before after rfl hbefore hafter
    constructor
    · rintro ⟨passed, following, hsplit, rfl⟩
      have hflatten := flatten_split (passed.flatten ++ after)
      rw [hsplit, List.flatten_append, List.append_cancel_left_eq] at hflatten
      subst hflatten
      exact meetAtBoundary_of_split hsplit (by rintro rfl; exact hbefore rfl)
        (by rintro rfl; exact hafter rfl)
    · intro hmeet
      exact ⟨split before, split after, split_append_of_meetAtBoundary hmeet, flatten_split before⟩

/-! ### Blanks and marks -/

/-- A blank or a line terminator ends its token, but for a carriage return before its line feed. -/
theorem eq_nil_of_isLayout (hwhole : IsWhole (before ++ c :: after)) (hlayout : isLayout c) :
    after = [] ∨ c = '\r' ∧ after = ['\n'] := by
  cases after with
  | nil => exact Or.inl rfl
  | cons next after =>
      obtain ⟨-, hjoins, hrest⟩ := List.isChain_append_cons_cons.1 hwhole
      have hpair : c = '\r' ∧ next = '\n' := by
        simp only [isLayout, Bool.or_eq_true, decide_eq_true_eq] at hlayout
        rcases hlayout with ((rfl | rfl) | rfl) | rfl
        · simp [endsAfter] at hjoins
        · simp [endsAfter] at hjoins
        · simp [endsAfter] at hjoins
        · simpa [endsAfter] using hjoins
      obtain ⟨rfl, rfl⟩ := hpair
      cases after with
      | nil => exact Or.inr ⟨rfl, rfl⟩
      | cons other after => simp [endsAfter] at hrest

/-- A text without boundaries lies within one token. -/
theorem exists_split_append_of_isWhole {mark : Text} (hmark : mark ≠ []) (hwhole : IsWhole mark)
    (before after : Text) : ∃ passed left right following,
      split (before ++ mark ++ after) = passed ++ (left ++ mark ++ right) :: following ∧
        passed.flatten ++ left = before := by
  obtain ⟨inner, last, rfl⟩ := (List.eq_nil_or_concat mark).resolve_left hmark
  rw [List.concat_eq_append] at hwhole ⊢
  -- the mark shares the token of its last character, which shares it with the text before the mark
  obtain ⟨token, others, hlast⟩ : ∃ token others, split (last :: after) = token :: others :=
    List.exists_cons_of_ne_nil (split_ne_nil (List.cons_ne_nil _ _))
  have hjoined := split_append_of_isWhole hwhole hlast
  have hbehind : inner ++ last :: after ≠ [] := by simp
  obtain ⟨tokens, shared, first, more, hjoint⟩ := exists_isJoint hbehind before
  obtain ⟨rfl, rfl⟩ := List.cons.inj (hjoint.behind.symm.trans hjoined)
  obtain ⟨right, rfl⟩ : ∃ right, token = last :: right := by
    have hflatten := flatten_split (last :: after)
    have htoken : token ≠ [] := ne_nil_of_mem_split (hlast ▸ List.mem_cons_self)
    obtain ⟨c, right, rfl⟩ := List.exists_cons_of_ne_nil htoken
    rw [hlast] at hflatten
    exact ⟨right, by rw [(List.cons.inj hflatten).1]⟩
  refine ⟨tokens, shared, right, more, ?_, hjoint.place⟩
  simpa using hjoint.joined

/-- The tokens of a source are its only segmentation. In a token a blank or a line terminator stands
at the end, a mark of a comment lies within one token, and what stands before a boundary and what
stands behind it are cut up by themselves. -/
theorem split_is_only_segmentation (source : Text) :
    (∀ tokens, IsSegmentation source tokens ↔ tokens = split source) ∧
    (∀ token ∈ split source, ∀ before c after, token = before ++ c :: after → isLayout c →
      after = [] ∨ c = '\r' ∧ after = ['\n']) ∧
    (∀ mark ∈ [commentOpen, commentClose], ∀ before after, source = before ++ mark ++ after →
      ∃ passed left right following,
        split source = passed ++ (left ++ mark ++ right) :: following ∧
          passed.flatten ++ left = before) ∧
    ∀ before after, source = before ++ after → MeetAtBoundary before after →
      split source = split before ++ split after := by
  refine ⟨fun tokens => isSegmentation_iff, ?_, ?_, ?_⟩
  · rintro token htoken before c after rfl hlayout
    exact eq_nil_of_isLayout ((isRun_split source).whole _ htoken) hlayout
  · rintro mark hmark before after rfl
    have hmarks : ∀ mark ∈ [commentOpen, commentClose], mark ≠ [] ∧ IsWhole mark := by decide
    exact exists_split_append_of_isWhole (hmarks mark hmark).1 (hmarks mark hmark).2 before after
  · rintro before after rfl hmeet
    exact split_append_of_meetAtBoundary hmeet

/-- A carriage return in front of a pair, and comments that share a token with what is beside them.
-/
theorem split_is_only_segmentation_comments :
    let before := "a\r".toList
    let after := "\r\n<p><!--$x\t-->b<!--c-->".toList
    IsSegmentation (before ++ after)
        (["a\r", "\r\n", "<p>", "<!--$x\t", "-->b<!--c-->"].map String.toList) ∧
      (∃ passed left right following,
        split (before ++ after) = passed ++ (left ++ commentOpen ++ right) :: following ∧
          passed.flatten ++ left = "a\r\r\n<p><!--$x\t-->b".toList) ∧
      MeetAtBoundary before after ∧ split (before ++ after) = split before ++ split after := by
  intro before after
  obtain ⟨honly, -, hmarks, hlocal⟩ := split_is_only_segmentation (before ++ after)
  have hmeet : MeetAtBoundary before after := ⟨'\r', rfl, '\r', rfl, by decide⟩
  exact ⟨(honly _).2 (by decide), hmarks commentOpen (by simp) _ "c-->".toList (by decide),
    hmeet, hlocal before after rfl hmeet⟩

end KitTemplate.Token
