import Mathlib.Data.List.Chain
import KitTemplate.Proofs.Text.LineBreaks
import KitTemplate.Source.Token

/-! Runs of tokens. The tokens of a source are cut wherever they may be cut, and no cut separates a
carriage return from the line feed that belongs to it. Both stay true of what is left of the tokens
when some of them have been read, also where the rest of a token stands in for it. Texts that meet
at a cut are cut up by themselves (`split_append_of_ends`). -/

namespace KitTemplate.Token

open Text

/-- A text that is not cut anywhere. -/
def IsWhole (token : Token) : Prop :=
  List.IsChain (fun c next => endsAfter c (some next) = false) token

instance (token : Token) : Decidable (IsWhole token) :=
  inferInstanceAs (Decidable (List.IsChain _ token))

structure IsRun (tokens : List Token) : Prop where
  nonempty : ∀ token ∈ tokens, token ≠ []
  whole : ∀ token ∈ tokens, IsWhole token
  apart : List.IsChain (fun token next => ¬ CutsPair token next) tokens

theorem cutsPair_append_left {before : Text} (hbefore : before ≠ []) (read after : Text) :
    CutsPair (read ++ before) after ↔ CutsPair before after := by
  rw [CutsPair, CutsPair, List.getLast?_append_of_ne_nil _ hbefore]

theorem cutsPair_append_right {after : Text} (hafter : after ≠ []) (before rest : Text) :
    CutsPair before (after ++ rest) ↔ CutsPair before after := by
  obtain ⟨first, after, rfl⟩ := List.exists_cons_of_ne_nil hafter
  rfl

theorem not_cutsPair_nil (before : Text) : ¬ CutsPair before [] := nofun

/-- Text in a token that something else than a line feed follows holds no line terminator. -/
theorem not_mem_of_isWhole {before after : Text} {next : Char}
    (hwhole : IsWhole (before ++ next :: after)) (hnext : next ≠ '\n') :
    '\n' ∉ before ∧ '\r' ∉ before := by
  have hinner {first second : Text} {c : Char} (hbefore : before = first ++ c :: second) :
      ∃ follower rest, second ++ next :: after = follower :: rest ∧
        endsAfter c (some follower) = false := by
    obtain ⟨follower, rest, hrest⟩ : ∃ follower rest, second ++ next :: after = follower :: rest :=
      List.exists_cons_of_ne_nil (by simp)
    refine ⟨follower, rest, hrest, ?_⟩
    rw [IsWhole, hbefore, List.append_assoc, List.cons_append, hrest] at hwhole
    exact (List.isChain_append_cons_cons.1 hwhole).2.1
  have hfeed : '\n' ∉ before := by
    intro hmem
    obtain ⟨first, second, hbefore⟩ := List.append_of_mem hmem
    obtain ⟨follower, rest, -, hends⟩ := hinner hbefore
    simp [endsAfter] at hends
  refine ⟨hfeed, fun hmem => ?_⟩
  obtain ⟨first, second, hbefore⟩ := List.append_of_mem hmem
  obtain ⟨follower, rest, hrest, hends⟩ := hinner hbefore
  have hfollower : follower = '\n' := by simpa [endsAfter] using hends
  subst hfollower
  cases second with
  | nil => exact hnext (List.cons.inj hrest).1
  | cons other second =>
      apply hfeed
      rw [hbefore, (List.cons.inj hrest).1]
      simp

namespace IsRun

theorem nil : IsRun [] := ⟨nofun, nofun, List.isChain_nil⟩

variable {token : Token} {following : List Token}

theorem tail (hrun : IsRun (token :: following)) : IsRun following where
  nonempty other hother := hrun.nonempty other (List.mem_cons_of_mem _ hother)
  whole other hother := hrun.whole other (List.mem_cons_of_mem _ hother)
  apart := hrun.apart.tail

theorem of_append {passed : List Token} (hrun : IsRun (passed ++ following)) : IsRun following where
  nonempty other hother := hrun.nonempty other (List.mem_append_right _ hother)
  whole other hother := hrun.whole other (List.mem_append_right _ hother)
  apart := hrun.apart.right_of_append

theorem head_ne_nil (hrun : IsRun (token :: following)) : token ≠ [] :=
  hrun.nonempty token List.mem_cons_self

theorem head?_flatten (hrun : IsRun (token :: following)) :
    (token :: following).flatten.head? = token.head? := by
  obtain ⟨first, rest, rfl⟩ := List.exists_cons_of_ne_nil hrun.head_ne_nil
  rfl

/-- No pair is cut behind the first token. -/
theorem not_cutsPair (hrun : IsRun (token :: following)) : ¬ CutsPair token following.flatten := by
  cases following with
  | nil => exact not_cutsPair_nil token
  | cons next rest =>
      rw [CutsPair, hrun.tail.head?_flatten]
      exact (List.isChain_cons_cons.1 hrun.apart).1

/-- The rest of the first token may stand in for it. -/
theorem of_suffix {rest : Token} (hrun : IsRun (token :: following)) (hrest : rest ≠ [])
    (hsuffix : rest <:+ token) : IsRun (rest :: following) where
  nonempty := by
    intro other hother
    rcases List.mem_cons.1 hother with rfl | hother
    · exact hrest
    · exact hrun.tail.nonempty other hother
  whole := by
    intro other hother
    rcases List.mem_cons.1 hother with rfl | hother
    · exact (hrun.whole token List.mem_cons_self).suffix hsuffix
    · exact hrun.tail.whole other hother
  apart := by
    obtain ⟨read, rfl⟩ := hsuffix
    cases following with
    | nil => exact List.isChain_singleton rest
    | cons next following =>
        obtain ⟨hnext, hfollowing⟩ := List.isChain_cons_cons.1 hrun.apart
        rw [cutsPair_append_left hrest] at hnext
        exact List.isChain_cons_cons.2 ⟨hnext, hfollowing⟩

/-- A character that joins the first token. -/
theorem cons {c : Char} (hrun : IsRun (token :: following))
    (hjoins : endsAfter c token.head? = false) : IsRun ((c :: token) :: following) where
  nonempty := by
    intro other hother
    rcases List.mem_cons.1 hother with rfl | hother
    · exact List.cons_ne_nil c token
    · exact hrun.tail.nonempty other hother
  whole := by
    intro other hother
    rcases List.mem_cons.1 hother with rfl | hother
    · obtain ⟨first, rest, rfl⟩ := List.exists_cons_of_ne_nil hrun.head_ne_nil
      exact List.isChain_cons_cons.2 ⟨hjoins, hrun.whole _ List.mem_cons_self⟩
    · exact hrun.tail.whole other hother
  apart := by
    cases following with
    | nil => exact List.isChain_singleton _
    | cons next following =>
        obtain ⟨hnext, hfollowing⟩ := List.isChain_cons_cons.1 hrun.apart
        refine List.isChain_cons_cons.2 ⟨?_, hfollowing⟩
        rwa [← List.singleton_append, cutsPair_append_left hrun.head_ne_nil]

/-- A character cut off in front of a run. -/
theorem cons_cut {c : Char} (hrun : IsRun following) (hcut : ¬ CutsPair [c] following.flatten) :
    IsRun ([c] :: following) where
  nonempty := by
    intro other hother
    rcases List.mem_cons.1 hother with rfl | hother
    · exact List.cons_ne_nil c []
    · exact hrun.nonempty other hother
  whole := by
    intro other hother
    rcases List.mem_cons.1 hother with rfl | hother
    · exact List.isChain_singleton c
    · exact hrun.whole other hother
  apart := by
    cases following with
    | nil => exact List.isChain_singleton _
    | cons next following =>
        rw [CutsPair, hrun.head?_flatten] at hcut
        exact List.isChain_cons_cons.2 ⟨hcut, hrun.apart⟩

end IsRun

/-- The tokens of a source. -/
theorem isRun_split (source : Text) : IsRun (split source) := by
  induction source with
  | nil => exact .nil
  | cons c rest ih =>
      have hrest := flatten_split rest
      rw [split_cons]
      split
      · rename_i hcut
        apply ih.cons_cut
        intro hpair
        obtain ⟨hreturn, hfeed⟩ := hpair
        obtain rfl : c = '\r' := Option.some.inj hreturn
        rw [hrest] at hfeed
        rw [hfeed] at hcut
        revert hcut
        decide
      · rename_i hjoins
        rw [Bool.not_eq_true] at hjoins
        cases htokens : split rest with
        | nil =>
            exact IsRun.cons_cut .nil (not_cutsPair_nil [c])
        | cons token tokens =>
            rw [htokens] at ih hrest
            apply ih.cons
            rwa [← ih.head?_flatten, hrest]

/-! ### Tokens of joined texts -/

theorem split_cons_of_joins {c : Char} {rest token : Text} {tokens : List Token}
    (hrest : split rest = token :: tokens) (hjoins : endsAfter c rest.head? = false) :
    split (c :: rest) = (c :: token) :: tokens := by
  rw [split_cons, if_neg (by simp [hjoins]), hrest]

theorem split_cons_of_ends {c : Char} {rest : Text} (hends : endsAfter c rest.head? = true) :
    split (c :: rest) = [c] :: split rest := by
  rw [split_cons, if_pos hends]

theorem split_singleton (c : Char) : split [c] = [[c]] := by
  rw [split_cons]
  split <;> rfl

theorem split_ne_nil {source : Text} (hsource : source ≠ []) : split source ≠ [] := by
  intro hsplit
  apply hsource
  rw [← flatten_split source, hsplit]
  rfl

/-- What stands before a cut and what stands behind it are cut up by themselves. -/
theorem split_append_of_ends {c : Char} {after : Text} (hends : endsAfter c after.head? = true)
    (before : Text) : split (before ++ c :: after) = split (before ++ [c]) ++ split after := by
  induction before with
  | nil =>
      rw [List.nil_append, List.nil_append, split_cons_of_ends hends, split_singleton]
      rfl
  | cons first rest ih =>
      have hhead : (rest ++ c :: after).head? = (rest ++ [c]).head? := by cases rest <;> rfl
      simp only [List.cons_append, split_cons, hhead, ih]
      split
      · rfl
      · have hne : split (rest ++ [c]) ≠ [] := split_ne_nil (by simp)
        obtain ⟨token, tokens, htokens⟩ := List.exists_cons_of_ne_nil hne
        rw [htokens]
        rfl

theorem split_of_isWhole {token : Token} (htoken : token ≠ []) (hwhole : IsWhole token) :
    split token = [token] := by
  induction token with
  | nil => exact absurd rfl htoken
  | cons c rest ih =>
      cases rest with
      | nil => exact split_singleton c
      | cons next rest =>
          obtain ⟨hjoins, hrest⟩ := List.isChain_cons_cons.1 hwhole
          exact split_cons_of_joins (ih (List.cons_ne_nil _ _) hrest) hjoins

/-- Where the cuts before the end of a text lie depends on the next character alone. The rest of the
text, behind the last of them, shares a token with what follows. -/
theorem exists_split_before (next : Char) (before : Text) : ∃ tokens rest,
    tokens.flatten ++ rest = before ∧ ∀ after, after.head? = some next → ∃ first more,
      split after = first :: more ∧
        split (before ++ after) = tokens ++ (rest ++ first) :: more := by
  induction before with
  | nil =>
      refine ⟨[], [], rfl, fun after hafter => ?_⟩
      have hne : split after ≠ [] := split_ne_nil (by rintro rfl; cases hafter)
      obtain ⟨first, more, hsplit⟩ := List.exists_cons_of_ne_nil hne
      exact ⟨first, more, hsplit, hsplit⟩
  | cons c before ih =>
      obtain ⟨tokens, rest, hbefore, hcuts⟩ := ih
      have hhead {after : Text} (hafter : after.head? = some next) :
          (before ++ after).head? = (before ++ [next]).head? := by
        cases before with
        | nil => exact hafter
        | cons other before => rfl
      by_cases hends : endsAfter c (before ++ [next]).head? = true
      · refine ⟨[c] :: tokens, rest, by simpa using hbefore, fun after hafter => ?_⟩
        obtain ⟨first, more, hsplit, hwhole⟩ := hcuts after hafter
        rw [← hhead hafter] at hends
        exact ⟨first, more, hsplit, by rw [List.cons_append, split_cons_of_ends hends, hwhole]; rfl⟩
      · rw [Bool.not_eq_true] at hends
        cases tokens with
        | nil =>
            refine ⟨[], c :: rest, by simpa using hbefore, fun after hafter => ?_⟩
            obtain ⟨first, more, hsplit, hwhole⟩ := hcuts after hafter
            rw [← hhead hafter] at hends
            exact ⟨first, more, hsplit, split_cons_of_joins hwhole hends⟩
        | cons token tokens =>
            refine ⟨(c :: token) :: tokens, rest, by simpa using hbefore, fun after hafter => ?_⟩
            obtain ⟨first, more, hsplit, hwhole⟩ := hcuts after hafter
            rw [← hhead hafter] at hends
            exact ⟨first, more, hsplit, split_cons_of_joins hwhole hends⟩

/-- A text that is not cut stays in one token, the last one if it ends the source. -/
theorem exists_split_append {last : Text} (hlast : last ≠ []) (hwhole : IsWhole last)
    (before : Text) : ∃ tokens rest, split (before ++ last) = tokens ++ [rest ++ last] ∧
      tokens.flatten ++ rest = before := by
  obtain ⟨c, more, rfl⟩ := List.exists_cons_of_ne_nil hlast
  obtain ⟨tokens, rest, hbefore, hcuts⟩ := exists_split_before c before
  obtain ⟨first, others, hsplit, htokens⟩ := hcuts (c :: more) rfl
  rw [split_of_isWhole hlast hwhole] at hsplit
  obtain ⟨rfl, rfl⟩ := List.cons.inj hsplit
  exact ⟨tokens, rest, htokens, hbefore⟩

/-- A text that is not cut up to its last character shares the token of that character. -/
theorem split_append_of_isWhole {before : Text} {c : Char} (hwhole : IsWhole (before ++ [c]))
    {after token : Text} {tokens : List Token} (hsplit : split (c :: after) = token :: tokens) :
    split (before ++ c :: after) = (before ++ token) :: tokens := by
  induction before with
  | nil => exact hsplit
  | cons first before ih =>
      have hhead : (before ++ c :: after).head? = (before ++ [c]).head? := by
        cases before <;> rfl
      have hjoins : endsAfter first (before ++ c :: after).head? = false := by
        rw [hhead]
        cases before with
        | nil => exact (List.isChain_cons_cons.1 hwhole).1
        | cons second before => exact (List.isChain_cons_cons.1 hwhole).1
      exact split_cons_of_joins (ih hwhole.tail) hjoins

/-! ### What is left of the tokens

The tokens that are left of those of a source are the tokens of the text that is left, also where
the rest of a token stands in for it. -/

theorem ne_nil_of_mem_split {source : Text} {token : Token} (htoken : token ∈ split source) :
    token ≠ [] :=
  (isRun_split source).nonempty token htoken

/-- A place in a text is in one token only. -/
theorem eq_of_split_twice {tokens passed more following : List Token}
    {before before' rest rest' : Text} (hrest : rest ≠ []) (hrest' : rest' ≠ [])
    (htokens : tokens ++ (before ++ rest) :: more = passed ++ (before' ++ rest') :: following)
    (hplace : tokens.flatten ++ before = passed.flatten ++ before') :
    tokens = passed ∧ before = before' := by
  induction tokens generalizing passed with
  | nil =>
      cases passed with
      | nil => exact ⟨rfl, hplace⟩
      | cons token passed =>
          obtain ⟨rfl, -⟩ := List.cons.inj htokens
          simp [hrest] at hplace
  | cons token tokens ih =>
      cases passed with
      | nil =>
          obtain ⟨rfl, -⟩ := List.cons.inj htokens
          simp [hrest'] at hplace
      | cons other passed =>
          obtain ⟨rfl, htail⟩ := List.cons.inj htokens
          have hrest : tokens.flatten ++ before = passed.flatten ++ before' := by
            simpa only [List.flatten_cons, List.append_assoc, List.append_cancel_left_eq]
              using hplace
          obtain ⟨rfl, hbefore⟩ := ih htail hrest
          exact ⟨rfl, hbefore⟩

theorem split_rest {source before rest : Text} {passed following : List Token}
    (hsplit : split source = passed ++ (before ++ rest) :: following) (hrest : rest ≠ []) :
    split (rest ++ following.flatten) = rest :: following := by
  obtain ⟨c, inner, rfl⟩ := List.exists_cons_of_ne_nil hrest
  obtain ⟨tokens, shared, hplace, hcuts⟩ := exists_split_before c (passed.flatten ++ before)
  obtain ⟨first, more, hfirst, htokens⟩ := hcuts (c :: inner ++ following.flatten) rfl
  have hsource : source = passed.flatten ++ before ++ (c :: inner ++ following.flatten) := by
    rw [← flatten_split source, hsplit]
    simp
  have hfirst' : first ≠ [] := ne_nil_of_mem_split (hfirst ▸ List.mem_cons_self)
  rw [hsource, htokens] at hsplit
  obtain ⟨rfl, rfl⟩ := eq_of_split_twice hfirst' hrest hsplit hplace
  obtain ⟨hhead, rfl⟩ := List.cons.inj (List.append_cancel_left hsplit)
  rw [hfirst, List.append_cancel_left hhead]

theorem split_following {source : Text} {passed following : List Token}
    (hsplit : split source = passed ++ following) : split following.flatten = following := by
  cases following with
  | nil => rfl
  | cons token following =>
      have hmem : token ∈ split source := by simp [hsplit]
      exact @split_rest _ [] _ _ _ hsplit (ne_nil_of_mem_split hmem)

/-! ### Where texts meet -/

/-- Two texts meet in a token of which the first text has the one part and the second the other.
Before it stand tokens of the first text, and behind it tokens of the second. -/
structure IsJoint (text following : Text) (tokens : List Token) (shared first : Text)
    (more : List Token) : Prop where
  place : tokens.flatten ++ shared = text
  behind : Token.split following = first :: more
  joined : Token.split (text ++ following) = tokens ++ (shared ++ first) :: more

theorem exists_isJoint {following : Text} (hfollowing : following ≠ []) (text : Text) :
    ∃ tokens shared first more, IsJoint text following tokens shared first more := by
  obtain ⟨next, rest, rfl⟩ := List.exists_cons_of_ne_nil hfollowing
  obtain ⟨tokens, shared, hplace, hcuts⟩ := exists_split_before next text
  obtain ⟨first, more, hfirst, hsplit⟩ := hcuts (next :: rest) rfl
  exact ⟨tokens, shared, first, more, hplace, hfirst, hsplit⟩

namespace IsJoint

variable {text following shared first : Text} {tokens more : List Token}

theorem first_ne_nil (hjoint : IsJoint text following tokens shared first more) : first ≠ [] :=
  ne_nil_of_mem_split (hjoint.behind ▸ List.mem_cons_self)

theorem head?_first (hjoint : IsJoint text following tokens shared first more) :
    first.head? = following.head? := by
  have hflatten := flatten_split following
  have hrun := isRun_split following
  rw [hjoint.behind] at hflatten hrun
  rw [← hflatten, hrun.head?_flatten]

theorem isRun (hjoint : IsJoint text following tokens shared first more) :
    IsRun (tokens ++ (shared ++ first) :: more) :=
  hjoint.joined ▸ isRun_split (text ++ following)

theorem isWhole (hjoint : IsJoint text following tokens shared first more) :
    IsWhole (shared ++ first) :=
  hjoint.isRun.whole _ (List.mem_append_right _ List.mem_cons_self)

/-- The end of the first text holds no line terminator if an angle bracket stands where the texts
meet. -/
theorem not_mem_shared (hjoint : IsJoint text following tokens shared first more)
    (hmeet : following.head? = some '<' ∨ text.getLast? = some '>') :
    '\n' ∉ shared ∧ '\r' ∉ shared := by
  have hwhole := hjoint.isWhole
  rcases hmeet with hhead | hlast
  · rw [← hjoint.head?_first] at hhead
    obtain ⟨after, rfl⟩ := List.head?_eq_some_iff.1 hhead
    exact not_mem_of_isWhole hwhole (by decide)
  · rcases List.eq_nil_or_concat shared with rfl | ⟨before, last, rfl⟩
    · simp
    · rw [← hjoint.place, List.concat_eq_append, ← List.append_assoc,
        List.getLast?_concat] at hlast
      obtain rfl := Option.some.inj hlast
      rw [List.concat_eq_append, List.append_assoc] at hwhole
      have hbefore := not_mem_of_isWhole hwhole (by decide)
      simpa using hbefore

end IsJoint

/-- The end of a text that shares a token with a comment directly behind the text. -/
def unended (text : Text) : Text := ((split (text ++ ['<'])).getLastD []).dropLast

theorem unended_of_isJoint {text following shared first : Text} {tokens more : List Token}
    (hjoint : IsJoint text following tokens shared first more)
    (hfollowing : following.head? = some '<') : unended text = shared := by
  obtain ⟨cuts, rest, hplace, hcuts⟩ := exists_split_before '<' text
  have hunended : unended text = rest := by
    obtain ⟨bracket, others, hbracket, hsplit⟩ := hcuts ['<'] rfl
    rw [split_singleton] at hbracket
    obtain ⟨rfl, rfl⟩ := List.cons.inj hbracket
    rw [unended, hsplit, List.getLastD_concat, List.dropLast_concat]
  obtain ⟨first', more', hfirst, hsplit⟩ := hcuts following hfollowing
  have hne : first' ≠ [] := ne_nil_of_mem_split (hfirst ▸ List.mem_cons_self)
  have hsame := eq_of_split_twice hjoint.first_ne_nil hne (hjoint.joined.symm.trans hsplit)
    (hjoint.place.trans hplace.symm)
  rw [hunended, hsame.2]

theorem unended_of_split {source before after : Text} {passed following : List Token}
    (hsplit : split source = passed ++ (before ++ '<' :: after) :: following) :
    unended (passed.flatten ++ before) = before := by
  have hrest : split ('<' :: after ++ following.flatten) = ('<' :: after) :: following :=
    split_rest hsplit (List.cons_ne_nil _ _)
  have hsource : passed.flatten ++ before ++ ('<' :: after ++ following.flatten) = source := by
    rw [← flatten_split source, hsplit]
    simp
  exact unended_of_isJoint ⟨rfl, hrest, by rw [hsource, hsplit]⟩ rfl

end KitTemplate.Token
