import KitTemplate.Site.Title
import KitTemplate.Proofs.Text.LetterCase
import KitTemplate.Proofs.Text.Pattern
import KitTemplate.Proofs.Text.Words

/-! Titles of posts. The search for a heading tries runs of every length, but only one way through
the pattern can succeed at a place: the opening tag ends at the first angle bracket, and the text of
the heading at the first closing tag. If the first opening tag has no such ending, no later one has,
so the search comes down to looking for three marks one after the other. -/

namespace KitTemplate.Site

open Text Pattern

/-- A heading that opens at a place goes on to the first angle bracket behind the name of its tag,
and its text from there to the first closing tag, in any case of its letters. -/
structure IsClosed (text : Text) (opening bracket closing : Nat) : Prop where
  tag : IsFirstFrom (opening + 3) ['>'] text bracket
  content : IsFirstFrom (bracket + 1) "</h1>".toList (text.map Char.toLower) closing

structure IsFirstHeading (text : Text) (opening bracket closing : Nat) : Prop extends
    IsClosed text opening bracket closing where
  opens : IsFirstFrom 0 "<h1".toList (text.map Char.toLower) opening

variable {text : Text} {opening bracket closing place : Nat}

theorem opens_iff (text : Text) (place : Nat) :
    "<h1".toList <+: (text.drop place).map smallLetter ↔
      "<h1".toList <+: (text.map Char.toLower).drop place := by
  rw [isPrefix_map_smallLetter_iff (by simp [IsPlainLatin]), List.map_drop]

theorem isFirstFrom_closing_iff {start : Nat} :
    IsFirstFrom start "</h1>".toList (text.map smallLetter) closing ↔
      IsFirstFrom start "</h1>".toList (text.map Char.toLower) closing := by
  have hsame (place : Nat) : "</h1>".toList <+: (text.map smallLetter).drop place ↔
      "</h1>".toList <+: (text.map Char.toLower).drop place := by
    rw [← List.map_drop, ← List.map_drop, isPrefix_map_smallLetter_iff (by simp [IsPlainLatin])]
  constructor
  · intro hfirst
    exact ⟨hfirst.start_le, (hsame _).1 hfirst.stands, fun earlier hstart hlt hstands =>
      hfirst.first earlier hstart hlt ((hsame _).2 hstands)⟩
  · intro hfirst
    exact ⟨hfirst.start_le, (hsame _).2 hfirst.stands, fun earlier hstart hlt hstands =>
      hfirst.first earlier hstart hlt ((hsame _).1 hstands)⟩

/-- The ways that the search for a heading tries at a place come to two cuts of what follows. -/
theorem head?_ways_headingPattern (text : Text) (place : Nat) :
    (headingPattern.ways ⟨place, text.drop place, []⟩).head?.map (·.spans) =
      if "<h1".toList <+: (text.map Char.toLower).drop place then
        (cut? ['>'] (text.drop (place + 3))).bind fun sides =>
          (cut? "</h1>".toList (sides.2.map smallLetter)).map fun inner =>
            let start := place + 3 + sides.1.length + 1
            [(start, start + inner.1.length)]
      else none := by
  have hparts (start : Reached) : headingPattern.ways start =
      ((word "<h1".toList).ways start).flatMap fun reached =>
        ((most (· ≠ '>') ++ one (· = '>')).ways reached).flatMap
          (captured (fewest fun _ => true) ++ word "</h1>".toList).ways := by
    simp only [headingPattern, ways_append, List.flatMap_assoc]
    rfl
  have hlength : "<h1".toList.length = 3 := rfl
  rw [hparts, ways_word]
  simp only [opens_iff]
  split
  · rw [List.flatMap_singleton, ways_most_one, List.drop_drop, hlength]
    cases cut? ['>'] (text.drop (place + 3)) with
    | none => rfl
    | some sides =>
        rw [Option.map_some, Option.toList_some, List.flatMap_singleton,
          head?_ways_fewest_word (by decide), Option.map_map]
        rfl
  · rfl

/-- Behind an opening tag the search finds the heading that it opens. -/
theorem exists_way_of_isClosed (hopens : "<h1".toList <+: (text.map Char.toLower).drop opening)
    (hclosed : IsClosed text opening bracket closing) :
    ∃ reached, (headingPattern.ways ⟨opening, text.drop opening, []⟩).head? = some reached ∧
      reached.spans = [(bracket + 1, closing)] := by
  have hclosing := isFirstFrom_closing_iff.2 hclosed.content
  have htag := hclosed.tag.cut? (List.cons_ne_nil _ _)
  have hcontent := hclosing.cut? (by decide)
  rw [← List.map_drop] at hcontent
  have hspans := head?_ways_headingPattern text opening
  rw [if_pos hopens, htag, Option.bind_some] at hspans
  change _ = (cut? "</h1>".toList ((text.drop (bracket + 1)).map smallLetter)).map _ at hspans
  rw [hcontent, Option.map_some] at hspans
  obtain ⟨reached, hreached, hspan⟩ := Option.map_eq_some_iff.1 hspans
  refine ⟨reached, hreached, hspan.trans ?_⟩
  have htagEnd := hclosed.tag.length_take_drop (List.cons_ne_nil _ _)
  have hcontentEnd := hclosing.length_take_drop (by decide)
  simp only [List.cons.injEq, Prod.mk.injEq, and_true]
  omega

/-- Wherever the search finds a heading, one opens and is closed. -/
theorem exists_isClosed_of_way {reached : Reached}
    (hways : (headingPattern.ways ⟨place, text.drop place, []⟩).head? = some reached) :
    "<h1".toList <+: (text.map Char.toLower).drop place ∧
      ∃ bracket closing, IsClosed text place bracket closing := by
  have hspans := head?_ways_headingPattern text place
  rw [hways, Option.map_some] at hspans
  split at hspans
  · rename_i hopens
    obtain ⟨⟨before, after⟩, htag, hrest⟩ := Option.bind_eq_some_iff.1 hspans.symm
    obtain ⟨⟨content, behind⟩, hcontent, -⟩ := Option.map_eq_some_iff.1 hrest
    have hbracket := isFirstFrom_of_cut? htag
    have hafter := (hbracket.cut? (List.cons_ne_nil _ _)).symm.trans htag
    obtain ⟨-, rfl⟩ := Prod.mk.inj (Option.some.inj hafter)
    rw [List.map_drop] at hcontent
    exact ⟨hopens, _, _, hbracket, isFirstFrom_closing_iff.1 (isFirstFrom_of_cut? hcontent)⟩
  · cases hspans

/-- If any opening tag is closed, so is the first one. -/
theorem exists_isFirstHeading (hopens : "<h1".toList <+: (text.map Char.toLower).drop place)
    (hclosed : IsClosed text place bracket closing) :
    ∃ opening bracket closing, IsFirstHeading text opening bracket closing := by
  obtain ⟨opening, hopening⟩ := exists_isFirstFrom (by decide) (Nat.zero_le place) hopens
  have hle : opening ≤ place := by
    by_contra hlt
    exact hopening.first place (Nat.zero_le _) (Nat.not_le.1 hlt) hopens
  have hstart : opening + 3 ≤ bracket := by
    have hbracket := hclosed.tag.start_le
    omega
  obtain ⟨first, hfirst⟩ := exists_isFirstFrom (by decide) hstart hclosed.tag.stands
  have hle' : first ≤ bracket := by
    by_contra hlt
    exact hfirst.first bracket hstart (Nat.not_le.1 hlt) hclosed.tag.stands
  have hstart' : first + 1 ≤ closing := by
    have hclosing := hclosed.content.start_le
    omega
  obtain ⟨last, hlast⟩ := exists_isFirstFrom (by decide) hstart' hclosed.content.stands
  exact ⟨opening, first, last, ⟨hfirst, hlast⟩, hopening⟩

theorem heading?_of_isFirstHeading (hheading : IsFirstHeading text opening bracket closing) :
    heading? text = some ((text.take closing).drop (bracket + 1)) := by
  obtain ⟨reached, hways, hspans⟩ :=
    exists_way_of_isClosed hheading.opens.stands hheading.toIsClosed
  have hlength : opening ≤ text.length := by
    have hstands := hheading.opens.stands.length_le
    rw [List.length_drop, List.length_map] at hstands
    have hpos : 0 < "<h1".toList.length := by decide
    omega
  have hsearch : headingPattern.search text = some reached := by
    refine searchFrom_eq_some hlength (fun earlier hlt => ?_) (by rwa [Nat.zero_add])
    rw [Nat.zero_add, Option.eq_none_iff_forall_ne_some]
    intro other hother
    exact hheading.opens.first earlier (Nat.zero_le _) hlt (exists_isClosed_of_way hother).1
  rw [heading?, hsearch]
  simp [hspans]

theorem heading?_eq_none
    (hnone : ∀ opening bracket closing, ¬ IsFirstHeading text opening bracket closing) :
    heading? text = none := by
  have hsearch : headingPattern.search text = none := by
    refine searchFrom_eq_none fun place _ => ?_
    rw [Nat.zero_add, Option.eq_none_iff_forall_ne_some]
    intro reached hways
    obtain ⟨hopens, bracket, closing, hclosed⟩ := exists_isClosed_of_way hways
    obtain ⟨opening, first, last, hheading⟩ := exists_isFirstHeading hopens hclosed
    exact hnone opening first last hheading
  rw [heading?, hsearch]
  rfl

/-! ### Titles -/

theorem title_of_heading?_eq_none (hnone : heading? text = none) (other : Text) :
    title text other = other := by
  rw [title, hnone]
  rfl

theorem title_of_heading? {content : Text} (hcontent : heading? text = some content)
    (other : Text) :
    (∀ c ∈ content, isBlank c) ∧ title text other = other ∨
      ∃ found, HasWords isBlank content found ∧ found ≠ [] ∧
        title text other = join [' '] found := by
  have hwords := hasWords_words isBlank content
  rw [title, hcontent, Option.getD_some]
  cases hfound : words isBlank content with
  | nil =>
      rw [hfound] at hwords
      exact Or.inl ⟨hwords.eq_nil_iff.1 rfl, rfl⟩
  | cons word more =>
      rw [hfound] at hwords
      exact Or.inr ⟨_, hwords, List.cons_ne_nil word more, rfl⟩

/-- The title of a post is taken from its first heading: from the first opening tag, the first
angle bracket behind it and the first closing tag behind that. If something other than blanks stands
between the tags, the title is the words of it with single spaces between them. A post without these
three marks, or with a blank heading in front of others, goes by its other name. -/
theorem title_takes_first_heading (text other : Text) :
    (∀ opening bracket closing, IsFirstHeading text opening bracket closing →
      let content := (text.take closing).drop (bracket + 1)
      ((∃ c ∈ content, ¬ isBlank c) →
        (∃ found, HasWords isBlank content found ∧ title text other = join [' '] found) ∧
          IsSingleSpaced (title text other)) ∧
      ((∀ c ∈ content, isBlank c) → title text other = other)) ∧
    ((∀ opening bracket closing, ¬ IsFirstHeading text opening bracket closing) →
      title text other = other) := by
  refine ⟨fun opening bracket closing hheading => ?_, fun hnone =>
    title_of_heading?_eq_none (heading?_eq_none hnone) other⟩
  rcases title_of_heading? (heading?_of_isFirstHeading hheading) other with
    ⟨hblank, htitle⟩ | ⟨found, hwords, hne, htitle⟩
  · exact ⟨fun ⟨c, hc, hletter⟩ => absurd (hblank c hc) hletter, fun _ => htitle⟩
  · refine ⟨fun _ => ⟨⟨found, hwords, htitle⟩, ?_⟩, fun hblank =>
      absurd (hwords.eq_nil_iff.2 hblank) hne⟩
    rw [htitle]
    exact (isSingleSpaced_join hne hwords.ne_nil_and_not).2

/-- A heading with an attribute, on two lines, in front of another one; a blank heading in front of
another one; and no heading. -/
theorem title_takes_first_heading_lines :
    let text := "<p><H1 id=t>A\n B</h1><h1>C</h1>".toList
    let blank := "<h1> \n</h1><h1>C</h1>".toList
    let plain := "<p>C</h1>".toList
    let other := "a".toList
    (IsFirstHeading text 3 11 16 ∧ (∃ c ∈ (text.take 16).drop 12, ¬ isBlank c) ∧
      (∃ found, HasWords isBlank ((text.take 16).drop 12) found ∧
        title text other = join [' '] found) ∧
      IsSingleSpaced (title text other)) ∧
    (IsFirstHeading blank 0 3 6 ∧ title blank other = other) ∧
    (∀ opening bracket closing, ¬ IsFirstHeading plain opening bracket closing) ∧
      title plain other = other := by
  intro text blank plain other
  have htext : IsFirstHeading text 3 11 16 := ⟨⟨by decide, by decide⟩, by decide⟩
  have hletter : ∃ c ∈ (text.take 16).drop 12, ¬ isBlank c := ⟨'A', by decide, by decide⟩
  have hblank : IsFirstHeading blank 0 3 6 := ⟨⟨by decide, by decide⟩, by decide⟩
  have hgap : ∀ c ∈ (blank.take 6).drop 4, isBlank c := List.all_eq_true.1 rfl
  have hplain : ∀ opening bracket closing, ¬ IsFirstHeading plain opening bracket closing := by
    intro opening bracket closing hheading
    have hstands := hheading.opens.stands
    have hlength := hstands.length_le
    have hopening : opening < 7 := by
      have hplain : (plain.map Char.toLower).length = 9 := rfl
      have htag : "<h1".toList.length = 3 := rfl
      rw [List.length_drop] at hlength
      omega
    have hnone : ∀ place < 7, ¬ "<h1".toList <+: (plain.map Char.toLower).drop place := by decide
    exact hnone opening hopening hstands
  obtain ⟨hwords, hspaced⟩ := ((title_takes_first_heading text other).1 3 11 16 htext).1 hletter
  exact ⟨⟨htext, hletter, hwords, hspaced⟩,
    ⟨hblank, ((title_takes_first_heading blank other).1 0 3 6 hblank).2 hgap⟩,
    hplain, (title_takes_first_heading plain other).2 hplain⟩

end KitTemplate.Site
