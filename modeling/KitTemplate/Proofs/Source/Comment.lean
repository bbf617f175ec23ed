import Mathlib.Data.List.Infix
import KitTemplate.Proofs.Source.Keyword
import KitTemplate.Proofs.Source.TokenRun
import KitTemplate.Proofs.Text.Marks
import KitTemplate.Source.Piece

/-! Directives that are written out and read back. A comment that is put together from a keyword and
a value gives both back if the value is verbatim: no closing mark stands in it, it neither begins
nor ends with a blank, and it does not begin with what may fill the gap before a value. The closing
mark that is put behind the value is then the first one that is found, in the last token of the
comment. -/

namespace KitTemplate

open Text

namespace Text

/-- A mark behind a text that holds none is the first one. -/
theorem cut?_commentClose {before : Text} (hbefore : ¬ commentClose <:+: before) (after : Text) :
    cut? commentClose (before ++ commentClose ++ after) = some (before, after) := by
  induction before with
  | nil => rfl
  | cons first rest ih =>
      have hrest : ¬ commentClose <:+: rest := fun hmark =>
        hbefore (hmark.trans (List.suffix_cons first rest).isInfix)
      have hnone : commentClose.isPrefixOf? (first :: (rest ++ commentClose ++ after)) = none := by
        rw [Option.eq_none_iff_forall_ne_some]
        intro found hfound
        have htext := isPrefixOf?_eq_some_iff.1 hfound
        -- the mark would end inside the first two dashes of the other one or stand before it
        match rest with
        | [] => simp [commentClose] at htext
        | [_] => simp [commentClose] at htext
        | second :: third :: rest =>
            obtain ⟨rfl, rfl, rfl, -⟩ := by simpa [commentClose] using htext
            exact hbefore ⟨[], rest, rfl⟩
      simp only [List.cons_append, cut?, hnone, ih hrest, Option.map_some]

/-- Where a text neither ends with a dash, nor the next one begins with what may follow a dash in a
mark, no mark stands across the two. -/
theorem not_isInfix_append {before after : Text} (hbefore : ¬ commentClose <:+: before)
    (hafter : ¬ commentClose <:+: after)
    (hmeet : before.getLast? ≠ some '-' ∨ after.head? ≠ some '-' ∧ after.head? ≠ some '>') :
    ¬ commentClose <:+: before ++ after := by
  rw [List.infix_append_iff]
  rintro (hmark | hmark | ⟨first, second, hmark, ⟨read, rfl⟩, ⟨rest, rfl⟩⟩)
  · exact hbefore hmark
  · exact hafter hmark
  rcases List.append_eq_cons_iff.1 hmark.symm with ⟨rfl, rfl⟩ | ⟨first, rfl, hdash⟩
  · exact hafter (List.prefix_append _ rest).isInfix
  rcases List.append_eq_cons_iff.1 hdash.symm with ⟨rfl, rfl⟩ | ⟨first, rfl, hangle⟩
  · simp at hmeet
  rcases List.append_eq_cons_iff.1 hangle.symm with ⟨rfl, rfl⟩ | ⟨first, rfl, hnil⟩
  · simp at hmeet
  obtain ⟨rfl, rfl⟩ := List.append_eq_nil_iff.1 hnil.symm
  exact hbefore (List.suffix_append read _).isInfix

/-- Text without a dash and an angle bracket around a body adds no mark to it. -/
theorem not_isInfix_append_gaps {gap body gap' : Text} (hgap : '-' ∉ gap)
    (hgap' : '-' ∉ gap' ∧ '>' ∉ gap') (hbody : ¬ commentClose <:+: body) :
    ¬ commentClose <:+: gap ++ body ++ gap' := by
  have hunmarked {gap : Text} (hgap : '-' ∉ gap) : ¬ commentClose <:+: gap := fun hmark =>
    hgap (hmark.subset (by simp [commentClose]))
  apply not_isInfix_append
  · apply not_isInfix_append (hunmarked hgap) hbody
    exact Or.inl fun hlast => hgap (List.mem_of_mem_getLast? hlast)
  · exact hunmarked hgap'.1
  · right
    constructor
    · exact fun hhead => hgap'.1 (List.mem_of_mem_head? hhead)
    · exact fun hhead => hgap'.2 (List.mem_of_mem_head? hhead)

/-- The body of a comment with a name and a value closes no comment if the value does not. -/
theorem not_isInfix_body {name value : Text} (hname : ¬ commentClose <:+: name)
    (hvalue : ¬ commentClose <:+: value) : ¬ commentClose <:+: name ++ ' ' :: value := by
  have hspaced : ¬ commentClose <:+: name ++ [' '] :=
    not_isInfix_append hname (by decide) (Or.inr (by decide))
  have hbody := not_isInfix_append hspaced hvalue (Or.inl (by simp))
  rwa [List.append_assoc] at hbody

end Text

namespace Directive

/-- A value that a directive gives back as it is written. -/
structure IsVerbatim (value : Text) : Prop where
  unmarked : ¬ commentClose <:+: value
  begins : value.head?.any fun c => !isBlank c && !Keyword.isGap c
  ends : value.getLast?.any (!isBlank ·)

instance (value : Text) : Decidable (IsVerbatim value) :=
  decidable_of_iff (¬ commentClose <:+: value ∧
      (value.head?.any fun c => !isBlank c && !Keyword.isGap c) ∧ value.getLast?.any (!isBlank ·))
    ⟨fun ⟨hmark, hfirst, hlast⟩ => ⟨hmark, hfirst, hlast⟩,
      fun hvalue => ⟨hvalue.unmarked, hvalue.begins, hvalue.ends⟩⟩

variable {value : Text}

theorem IsVerbatim.isTrimmed (hvalue : IsVerbatim value) : value.IsTrimmed := by
  refine isTrimmed_iff.2 ⟨?_, hvalue.ends⟩
  obtain ⟨c, hc, hbegins⟩ := (Option.any_eq_true _ _).1 hvalue.begins
  exact (Option.any_eq_true _ _).2 ⟨c, hc, (Bool.and_eq_true_iff.1 hbegins).1⟩

/-- A keyword and a value are read back from the body of a comment. -/
theorem IsVerbatim.ofBody? (hvalue : IsVerbatim value) {gap name gap' : Text} {sigil : Char}
    (hgap : ∀ c ∈ gap, isBlank c) (hgap' : ∀ c ∈ gap', isBlank c)
    (hsigil : Keyword.isSigil sigil) (hname : ∀ c ∈ name, ¬ Keyword.endsKeyword c) :
    Keyword.ofBody? (gap ++ (sigil :: name ++ ' ' :: value) ++ gap') =
      some (sigil :: name, some value) := by
  refine Keyword.ofBody?_of_isTrimmed hgap hgap' hsigil hname hvalue.isTrimmed fun c hc => ?_
  have hbegins := hvalue.begins
  rw [Option.mem_def.1 hc, Option.any_some, Bool.and_eq_true] at hbegins
  simpa using hbegins.2

theorem close?_of_cut? {current : Token} {before trailing : Text}
    (hcut : cut? commentClose current = some (before, trailing)) (searched following : List Token)
    (count : Nat) : close? searched current count following =
      some ⟨(before :: searched).reverse.flatten, trailing, count, following⟩ := by
  unfold close?
  rw [hcut]

/-- The search for a closing mark ends where the first mark stands. -/
theorem close?_of_not_isInfix {inner following remaining : List Token} {current before : Token}
    {trailing : Text}
    (htokens : current :: following = inner ++ (before ++ commentClose ++ trailing) :: remaining)
    (hbody : ¬ commentClose <:+: inner.flatten ++ before) (searched : List Token) (count : Nat) :
    close? searched current count following =
      some ⟨searched.reverse.flatten ++ inner.flatten ++ before, trailing, count + inner.length,
        remaining⟩ := by
  induction inner generalizing searched current count following with
  | nil =>
      obtain ⟨rfl, rfl⟩ := List.cons.inj htokens
      simp only [List.flatten_nil, List.nil_append] at hbody
      rw [close?_of_cut? (cut?_commentClose hbody trailing)]
      simp
  | cons token inner ih =>
      obtain ⟨rfl, hfollowing⟩ := List.cons.inj htokens
      have hrest : ¬ commentClose <:+: inner.flatten ++ before := fun hmark =>
        hbody (hmark.trans ⟨current, [], by simp⟩)
      have hcurrent : cut? commentClose current = none :=
        cut?_of_not_isInfix (by decide) fun hmark => hbody (by
          rw [List.flatten_cons, List.append_assoc]
          exact hmark.trans (List.prefix_append _ _).isInfix)
      obtain ⟨next, later, rfl⟩ : ∃ next later, following = next :: later :=
        List.exists_cons_of_ne_nil (by rintro rfl; cases inner <;> cases hfollowing)
      have hcount : count + 1 + inner.length = count + (inner.length + 1) := by omega
      have hclose := ih hfollowing hrest (current :: searched) (count + 1)
      simp only [close?, hcurrent, hclose, hcount]
      simp

/-- A comment is read whose tokens are given: some that hold no closing mark, and one that does. -/
theorem read_eq_of_tokens {after before trailing : Text} {inner following remaining : List Token}
    (htokens : after :: following = inner ++ (before ++ commentClose ++ trailing) :: remaining)
    (hunmarked : ¬ commentClose <:+: inner.flatten ++ before) (line : Int) :
    read (commentOpen ++ after) following line =
      let comment := commentOpen ++ (inner.flatten ++ before) ++ commentClose
      match Keyword.ofBody? (inner.flatten ++ before) with
      | none => .error (.withoutKeyword comment)
      | some (keyword, value) =>
        .ok ({ keyword, value, line, comment, trailing, tokenCount := 1 + inner.length },
          remaining) := by
  have hclose := close?_of_not_isInfix htokens hunmarked [commentOpen] 1
  have hopened : [commentOpen].reverse.flatten ++ inner.flatten ++ before =
      commentOpen ++ (inner.flatten ++ before) := by simp
  rw [hopened] at hclose
  cases hkeyword : Keyword.ofBody? (inner.flatten ++ before) <;>
    simp only [read, List.take_left, List.drop_left, hclose, hkeyword]

theorem read_of_tokens {after before keyword trailing : Text} {value : Option Text}
    {inner following remaining : List Token}
    (htokens : after :: following = inner ++ (before ++ commentClose ++ trailing) :: remaining)
    (hbody : Keyword.ofBody? (inner.flatten ++ before) = some (keyword, value))
    (hunmarked : ¬ commentClose <:+: inner.flatten ++ before) (line : Int) :
    ∃ directive : Directive,
      read (commentOpen ++ after) following line = .ok (directive, remaining) ∧
        directive.keyword = keyword ∧ directive.value = value ∧ directive.line = line ∧
        directive.comment = commentOpen ++ (inner.flatten ++ before) ++ commentClose ∧
        directive.trailing = trailing := by
  rw [read_eq_of_tokens htokens hunmarked, hbody]
  exact ⟨_, rfl, rfl, rfl, rfl, rfl, rfl⟩

end Directive

/-- The pieces of tokens that begin with a directive. -/
theorem Cursor.pieces_of_read {after : Text} {following remaining : List Token} {line : Int}
    {directive : Directive} (hopens : Directive.opensAt (commentOpen ++ after) following)
    (hread : Directive.read (commentOpen ++ after) following line = .ok (directive, remaining)) :
    pieces ⟨(commentOpen ++ after) :: following, line⟩ = .literal [] :: .directive directive ::
      if occursIn commentOpen directive.suffix then
        pieces ⟨directive.suffix :: remaining, line + lineBreaks directive.comment⟩
      else
        .literal directive.suffix :: pieces ⟨remaining, line + lineBreaks directive.source⟩ := by
  have hcut : cut? commentOpen (commentOpen ++ after) = some ([], after) :=
    cut?_self (by decide) after
  split
  · rename_i hoccurs
    exact @pieces_of_step?_eq_some _ _ [.literal [], .directive directive]
      (by simp only [step?, hcut, hopens, hread, hoccurs, if_true])
  · rename_i hoccurs
    refine @pieces_of_step?_eq_some _ _
      [.literal [], .directive directive, .literal directive.suffix] ?_
    simp only [step?, hcut, hopens, hread, if_true, if_neg hoccurs]

/-- The pieces of a comment that is a directive and has nothing behind it but a line terminator. -/
theorem Cursor.pieces_of_comment {after content trailing keyword : Text} {value : Option Text}
    (more tokens : List Token) (htrailing : trailing = [] ∨ isLineBreak trailing)
    (hlast : Token.IsWhole (commentClose ++ trailing))
    (hopens : ∀ following, Directive.opensAt (commentOpen ++ after) (more ++ following))
    (hbody : Keyword.ofBody? (after ++ more.flatten ++ content) = some (keyword, value))
    (hunmarked : ¬ commentClose <:+: after ++ more.flatten ++ content) (line : Int) :
    ∃ directive : Directive,
      pieces ⟨(commentOpen ++ after) ::
          (more ++ (Token.split (content ++ (commentClose ++ trailing)) ++ tokens)), line⟩ =
        .literal [] :: .directive directive :: .literal [] :: pieces ⟨tokens, line + lineBreaks
          (commentOpen ++ after ++ more.flatten ++ content ++ commentClose ++ trailing)⟩ ∧
      directive.keyword = keyword ∧ directive.value = value ∧ directive.line = line := by
  obtain ⟨inner, before, hsplit, hcontent⟩ :=
    Token.exists_split_append (List.append_ne_nil_of_left_ne_nil (by decide) trailing) hlast content
  have hflatten : (after :: more ++ inner).flatten ++ before =
      after ++ more.flatten ++ content := by
    rw [List.flatten_append, List.flatten_cons, ← hcontent]
    simp only [List.append_assoc]
  have htokens :
      after :: (more ++ (Token.split (content ++ (commentClose ++ trailing)) ++ tokens)) =
        after :: more ++ inner ++ (before ++ commentClose ++ trailing) :: tokens := by
    rw [hsplit]
    simp only [List.append_assoc, List.cons_append, List.nil_append]
  obtain ⟨directive, hread, hkeyword, hvalue, hline, hcomment, htail⟩ :=
    Directive.read_of_tokens htokens (by rw [hflatten]; exact hbody)
      (by rw [hflatten]; exact hunmarked) line
  have hsuffix : directive.suffix = [] := by
    rw [Directive.suffix, htail]
    rcases htrailing with rfl | hbreak
    · rfl
    · rw [if_pos hbreak]
  have hsource : directive.source =
      commentOpen ++ after ++ more.flatten ++ content ++ commentClose ++ trailing := by
    rw [Directive.source, hcomment, htail, ← hcontent]
    simp only [List.flatten_append, List.flatten_cons, List.append_assoc]
  have hnone : ¬ occursIn commentOpen ([] : Text) := by decide
  refine ⟨directive, ?_, hkeyword, hvalue, hline⟩
  rw [pieces_of_read (hopens _) hread, hsuffix, if_neg hnone, hsource]

end KitTemplate
