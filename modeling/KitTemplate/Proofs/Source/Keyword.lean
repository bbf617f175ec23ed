import KitTemplate.Proofs.Text.Trimming
import KitTemplate.Source.Keyword

/-! Keywords and values. A keyword and a value are parts of the body that they are read from
(`exists_of_ofBody?`), and there is a keyword wherever the body has a sigil. What stands behind
blanks at the beginning of a body is its keyword if it begins like one, and a value that is written
behind the keyword is read back exactly if it is trimmed and does not begin like the gap before it
(`ofBody?_eq_self_iff`). -/

namespace KitTemplate

open Text

/-- A text that is not empty and neither begins nor ends with a blank. -/
structure Text.IsTrimmed (text : Text) : Prop where
  nonempty : text ≠ []
  begins : ∀ c ∈ text.head?, ¬ isBlank c
  ends : ∀ c ∈ text.getLast?, ¬ isBlank c

theorem Text.any_getLast?_of_forall {text : Text} (hnonempty : text ≠ [])
    (hends : ∀ c ∈ text.getLast?, ¬ isBlank c) : text.getLast?.any (!isBlank ·) := by
  rw [List.getLast?_eq_some_getLast hnonempty] at hends ⊢
  simpa using hends

theorem Text.isTrimmed_iff {text : Text} : text.IsTrimmed ↔
    text.head?.any (!isBlank ·) ∧ text.getLast?.any (!isBlank ·) := by
  constructor
  · rintro ⟨hnonempty, hbegins, hends⟩
    refine ⟨?_, any_getLast?_of_forall hnonempty hends⟩
    rw [List.head?_eq_some_head hnonempty] at hbegins ⊢
    simpa using hbegins
  · rintro ⟨hbegins, hends⟩
    refine ⟨?_, fun c hc => ?_, fun c hc => ?_⟩
    · rintro rfl
      cases hbegins
    · rw [Option.mem_def.1 hc] at hbegins
      simpa using hbegins
    · rw [Option.mem_def.1 hc] at hends
      simpa using hends

instance (text : Text) : Decidable text.IsTrimmed := decidable_of_iff _ isTrimmed_iff.symm

theorem Text.isTrimmed_strip {text : Text} (htext : strip text ≠ []) : (strip text).IsTrimmed where
  nonempty := htext
  begins _ := not_of_mem_head?_trim
  ends _ := not_of_mem_getLast?_trim

theorem Text.IsTrimmed.strip_eq {text : Text} (htext : text.IsTrimmed) : strip text = text := by
  have hright : trimRight isBlank (text ++ []) = text := trimRight_append nofun htext.ends
  have hleft : trimLeft isBlank ([] ++ text) = text := trimLeft_append nofun htext.begins
  rw [List.append_nil] at hright
  rw [List.nil_append] at hleft
  rw [strip, trim, hleft, hright]

namespace Keyword

theorem not_isBlank_of_isSigil {c : Char} (hsigil : isSigil c) : ¬ isBlank c := by
  simp only [isSigil, Bool.or_eq_true, decide_eq_true_eq] at hsigil
  rcases hsigil with rfl | rfl <;> decide

/-- What may fill the gap before a value is a blank or one of two signs. -/
theorem cases_of_isGap {c : Char} (hgap : isGap c) (hblank : ¬ isBlank c) : c = '=' ∨ c = ':' := by
  simp only [isGap, Bool.or_eq_true, decide_eq_true_eq] at hgap
  rcases hgap with (hascii | heq) | hcolon
  · exact absurd (isBlank_of_isAsciiBlank hascii) hblank
  · exact Or.inl heq
  · exact Or.inr hcolon

theorem not_endsKeyword_of_isSigil {c : Char} (hsigil : isSigil c) : ¬ endsKeyword c := by
  simp only [isSigil, Bool.or_eq_true, decide_eq_true_eq] at hsigil
  rcases hsigil with rfl | rfl <;> decide

theorem toNat_of_isAlpha {c : Char} (hletter : c.isAlpha) : 65 ≤ c.toNat ∧ c.toNat ≤ 122 := by
  rcases Bool.or_eq_true_iff.1 hletter with hupper | hlower
  · obtain ⟨hlow, hhigh⟩ : 'A'.val ≤ c.val ∧ c.val ≤ 'Z'.val := of_decide_eq_true hupper
    have hlow : 65 ≤ c.toNat := hlow
    have hhigh : c.toNat ≤ 90 := hhigh
    omega
  · have hlower : decide ('a'.val ≤ c.val) && decide (c.val ≤ 'z'.val) := hlower
    obtain ⟨hlow, hhigh⟩ := Bool.and_eq_true_iff.1 hlower
    have hlow : 97 ≤ c.toNat := of_decide_eq_true hlow
    have hhigh : c.toNat ≤ 122 := of_decide_eq_true hhigh
    omega

theorem not_isBlank_of_isAlpha {c : Char} (hletter : c.isAlpha) : ¬ isBlank c := by
  have hcode := toNat_of_isAlpha hletter
  simp only [isBlank, Bool.or_eq_true, Bool.and_eq_true, decide_eq_true_eq]
  omega

theorem not_endsKeyword_of_isAlpha {c : Char} (hletter : c.isAlpha) : ¬ endsKeyword c := by
  simp only [endsKeyword, Bool.or_eq_true, decide_eq_true_eq]
  rintro (((rfl | rfl) | rfl) | rfl) <;> cases hletter

theorem startsText_iff {text : Text} : startsText text ↔
    ∃ sigil letter rest, text = sigil :: letter :: rest ∧ isSigil sigil ∧ letter.isAlpha := by
  constructor
  · intro hstarts
    match text, hstarts with
    | sigil :: letter :: rest, hstarts =>
      exact ⟨sigil, letter, rest, rfl, Bool.and_eq_true_iff.1 hstarts⟩
  · rintro ⟨sigil, letter, rest, rfl, hstarts⟩
    exact Bool.and_eq_true_iff.2 hstarts

variable {body keyword : Text} {value : Option Text}

/-- What a keyword and a value are read from. -/
theorem exists_of_ofBody? (hbody : ofBody? body = some (keyword, value)) :
    ∃ before sigil name rest, strip body = before ++ sigil :: name ++ rest ∧
      keyword = sigil :: name ∧ isSigil sigil ∧ (∀ c ∈ name, ¬ endsKeyword c) ∧
      ∀ text ∈ value, text = strip (rest.dropWhile isGap) ∧ text ≠ [] := by
  rw [ofBody?] at hbody
  split at hbody
  · cases hbody
  rename_i sigil rest hstart
  obtain ⟨rfl, rfl⟩ := Prod.mk.inj (Option.some.inj hbody)
  refine ⟨(strip body).takeWhile (!isSigil ·), sigil, rest.takeWhile (!endsKeyword ·),
    rest.dropWhile (!endsKeyword ·), ?_, rfl, ?_, fun c hc => ?_, fun text htext => ?_⟩
  · rw [List.append_assoc, List.cons_append, List.takeWhile_append_dropWhile, ← hstart,
      List.takeWhile_append_dropWhile]
  · have hhead := List.head?_dropWhile_not (!isSigil ·) (strip body)
    rw [hstart] at hhead
    simpa using hhead
  · simpa using List.mem_takeWhile_imp hc
  · split at htext
    · cases htext
    · rename_i hne
      obtain rfl := Option.some.inj htext
      exact ⟨rfl, hne⟩

theorem keyword_isInfix (hbody : ofBody? body = some (keyword, value)) : keyword <:+: body := by
  obtain ⟨before, sigil, name, rest, hstrip, rfl, -⟩ := exists_of_ofBody? hbody
  exact List.IsInfix.trans ⟨before, rest, hstrip.symm⟩ (trim_isInfix isBlank body)

theorem not_endsKeyword_of_ofBody? (hbody : ofBody? body = some (keyword, value)) :
    ∀ c ∈ keyword, ¬ endsKeyword c := by
  obtain ⟨-, sigil, name, -, -, rfl, hsigil, hname, -⟩ := exists_of_ofBody? hbody
  exact List.forall_mem_cons.2 ⟨not_endsKeyword_of_isSigil hsigil, hname⟩

/-- The value of a comment stands in its body. -/
theorem value_isInfix {text : Text} (hbody : ofBody? body = some (keyword, some text)) :
    text <:+: body := by
  obtain ⟨before, sigil, name, rest, hstrip, -, -, -, hvalue⟩ := exists_of_ofBody? hbody
  obtain ⟨rfl, -⟩ := hvalue text rfl
  calc strip (rest.dropWhile isGap)
      <:+: rest.dropWhile isGap := trim_isInfix isBlank _
    _ <:+: rest := (List.dropWhile_suffix isGap).isInfix
    _ <:+: strip body := hstrip ▸ (List.suffix_append _ rest).isInfix
    _ <:+: body := trim_isInfix isBlank body

theorem isTrimmed_of_ofBody? {text : Text} (hbody : ofBody? body = some (keyword, some text)) :
    text.IsTrimmed := by
  obtain ⟨-, -, -, rest, -, -, -, -, hvalue⟩ := exists_of_ofBody? hbody
  obtain ⟨rfl, hne⟩ := hvalue text rfl
  exact isTrimmed_strip hne

/-- A body has a keyword unless it has no sigil. -/
theorem ofBody?_eq_none_iff : ofBody? body = none ↔ ∀ c ∈ body, ¬ isSigil c := by
  have hstripped : ofBody? body = none ↔ ∀ c ∈ strip body, ¬ isSigil c := by
    rw [ofBody?]
    split
    · rename_i hnone
      simpa using hnone
    · rename_i sigil rest hstart
      refine iff_of_false nofun fun hnone => ?_
      rw [List.dropWhile_eq_nil_iff.2 (by simpa using hnone)] at hstart
      cases hstart
  rw [hstripped]
  constructor
  · exact fun hnone c hc hsigil => hnone c (mem_strip hc (not_isBlank_of_isSigil hsigil)) hsigil
  · exact fun hnone c hc => hnone c ((trim_isInfix isBlank body).subset hc)

/-- Blanks around a body are not read. -/
theorem ofBody?_append_gaps {gap gap' : Text} (hgap : ∀ c ∈ gap, isBlank c)
    (hgap' : ∀ c ∈ gap', isBlank c) (body : Text) :
    ofBody? (gap ++ body ++ gap') = ofBody? body := by
  rw [ofBody?, ofBody?, strip_append_gaps hgap hgap']

/-- The first character of a body that begins with a sigil begins the keyword. -/
theorem ofBody?_of_strip {sigil : Char} {rest : Text} (hstrip : strip body = sigil :: rest)
    (hsigil : isSigil sigil) : ofBody? body =
      let value := strip ((rest.dropWhile (!endsKeyword ·)).dropWhile isGap)
      some (sigil :: rest.takeWhile (!endsKeyword ·), if value = [] then none else some value) := by
  rw [ofBody?, hstrip, List.dropWhile_cons_of_neg (by simp [hsigil])]

/-- A keyword behind layout characters is read from its first two characters on. -/
theorem exists_keyword_of_startsText {gap : Text} (hgap : ∀ c ∈ gap, isLayout c)
    {sigil letter : Char} (hsigil : isSigil sigil) (hletter : letter.isAlpha) (rest : Text) :
    ∃ inner value, ofBody? (gap ++ sigil :: letter :: rest) =
      some (sigil :: letter :: inner, value) := by
  have hblank : ∀ c ∈ gap, isBlank c := fun c hc =>
    isBlank_of_isAsciiBlank (isAsciiBlank_of_isLayout (hgap c hc))
  have hstrip : strip (gap ++ sigil :: letter :: rest) =
      sigil :: letter :: trimRight isBlank rest := by
    have hlast : ∀ c ∈ [sigil, letter].getLast?, ¬ isBlank c := by
      simpa using not_isBlank_of_isAlpha hletter
    rw [strip, trim, trimLeft_append hblank (by simpa using not_isBlank_of_isSigil hsigil)]
    exact trimRight_append_of_not hlast rest
  have hname (more : Text) : (letter :: more).takeWhile (!endsKeyword ·) =
      letter :: more.takeWhile (!endsKeyword ·) :=
    List.takeWhile_cons_of_pos (by simpa using not_endsKeyword_of_isAlpha hletter)
  rw [ofBody?_of_strip hstrip hsigil, hname]
  exact ⟨_, _, rfl⟩

/-- A keyword that a blank ends is read with the value behind the blank, if the body ends with a
character of that value. -/
theorem ofBody?_of_name {gap name value gap' : Text} {sigil : Char} (hgap : ∀ c ∈ gap, isBlank c)
    (hgap' : ∀ c ∈ gap', isBlank c) (hsigil : isSigil sigil)
    (hname : ∀ c ∈ name, ¬ endsKeyword c) (hends : value.getLast?.any (!isBlank ·)) :
    ofBody? (gap ++ (sigil :: name ++ ' ' :: value) ++ gap') =
      let given := strip (value.dropWhile isGap)
      some (sigil :: name, if given = [] then none else some given) := by
  have hstrip : strip (gap ++ (sigil :: name ++ ' ' :: value) ++ gap') =
      sigil :: (name ++ ' ' :: value) := by
    refine strip_append hgap hgap' ?_ ?_
    · simpa using not_isBlank_of_isSigil hsigil
    · cases value with
      | nil => cases hends
      | cons first rest =>
          rwa [List.getLast?_append_of_ne_nil _ (List.cons_ne_nil _ _),
            List.getLast?_cons_of_ne_nil (List.cons_ne_nil _ _)]
  have hkeyword : ∀ c ∈ name, (!endsKeyword c) = true := fun c hc => by simpa using hname c hc
  have htake : (name ++ ' ' :: value).takeWhile (!endsKeyword ·) = name := by
    rw [List.takeWhile_append_of_pos hkeyword, List.takeWhile_cons_of_neg (by decide),
      List.append_nil]
  have hdrop : ((name ++ ' ' :: value).dropWhile (!endsKeyword ·)).dropWhile isGap =
      value.dropWhile isGap := by
    rw [List.dropWhile_append_of_pos hkeyword, List.dropWhile_cons_of_neg (by decide),
      List.dropWhile_cons_of_pos (by decide)]
  rw [ofBody?_of_strip hstrip hsigil, htake, hdrop]

/-- A value that neither begins like a gap nor has blanks around it is read back as it is, with
blanks in front of it as well. -/
theorem ofBody?_of_isTrimmed_append {gap name inner value gap' : Text} {sigil : Char}
    (hgap : ∀ c ∈ gap, isBlank c) (hinner : ∀ c ∈ inner, isBlank c) (hgap' : ∀ c ∈ gap', isBlank c)
    (hsigil : isSigil sigil) (hname : ∀ c ∈ name, ¬ endsKeyword c) (hvalue : value.IsTrimmed)
    (hbegins : ∀ c ∈ value.head?, ¬ isGap c) :
    ofBody? (gap ++ (sigil :: name ++ ' ' :: (inner ++ value)) ++ gap') =
      some (sigil :: name, some value) := by
  have hkept : value.dropWhile isGap = value := by
    obtain ⟨c, rest, rfl⟩ := List.exists_cons_of_ne_nil hvalue.nonempty
    exact List.dropWhile_cons_of_neg (hbegins c rfl)
  have hgiven : strip ((inner ++ value).dropWhile isGap) = value := by
    have hleft : ∀ c ∈ inner.dropWhile isGap, isBlank c := fun c hc =>
      hinner c ((List.dropWhile_suffix isGap).subset hc)
    have hstrip := strip_append_gaps hleft (List.forall_mem_nil _) value
    rw [List.append_nil, hvalue.strip_eq] at hstrip
    rw [List.dropWhile_append, hkept]
    split
    · exact hvalue.strip_eq
    · exact hstrip
  have hends : (inner ++ value).getLast?.any (!isBlank ·) := by
    rw [List.getLast?_append_of_ne_nil _ hvalue.nonempty]
    exact (isTrimmed_iff.1 hvalue).2
  rw [ofBody?_of_name hgap hgap' hsigil hname hends, hgiven]
  exact congrArg (fun given => some (sigil :: name, given)) (if_neg hvalue.nonempty)

/-- A value that neither begins like a gap nor has blanks around it is read back as it is. -/
theorem ofBody?_of_isTrimmed {gap name value gap' : Text} {sigil : Char}
    (hgap : ∀ c ∈ gap, isBlank c) (hgap' : ∀ c ∈ gap', isBlank c) (hsigil : isSigil sigil)
    (hname : ∀ c ∈ name, ¬ endsKeyword c) (hvalue : value.IsTrimmed)
    (hbegins : ∀ c ∈ value.head?, ¬ isGap c) :
    ofBody? (gap ++ (sigil :: name ++ ' ' :: value) ++ gap') =
      some (sigil :: name, some value) :=
  ofBody?_of_isTrimmed_append hgap (List.forall_mem_nil _) hgap' hsigil hname hvalue hbegins

/-- Behind a name and a blank, only that name is read as the keyword of a value. -/
theorem eq_name_of_ofBody? {name value given : Text} {sigil : Char} (hsigil : isSigil sigil)
    (hname : ∀ c ∈ name, ¬ endsKeyword c)
    (hbody : ofBody? (sigil :: name ++ ' ' :: value) = some (keyword, some given)) :
    keyword = sigil :: name := by
  obtain ⟨gap, hvalue, hgap⟩ := exists_trimRight_append isBlank value
  by_cases hnone : trimRight isBlank value = []
  · -- nothing but blanks follow the name, so there is no value
    have hblank : ∀ c ∈ ' ' :: value, isBlank c := by
      rw [hvalue, hnone]
      exact List.forall_mem_cons.2 ⟨rfl, hgap⟩
    have hstrip : strip (sigil :: name ++ ' ' :: value) = sigil :: trimRight isBlank name := by
      rw [strip, List.cons_append, trim_cons_of_not (not_isBlank_of_isSigil hsigil),
        trimRight_append_gap hblank]
    have hkept : ∀ c ∈ trimRight isBlank name, (!endsKeyword c) = true := fun c hc => by
      simpa using hname c ((trimRight_isPrefix isBlank name).subset hc)
    rw [ofBody?_of_strip hstrip hsigil, List.dropWhile_eq_nil_iff.2 hkept] at hbody
    cases hbody
  · have hends := any_getLast?_of_forall hnone fun c hc => not_of_mem_getLast?_trimRight hc
    have hread :=
      @ofBody?_of_name [] name _ gap sigil (List.forall_mem_nil _) hgap hsigil hname hends
    have htext : [] ++ (sigil :: name ++ ' ' :: trimRight isBlank value) ++ gap =
        sigil :: name ++ ' ' :: value := by
      conv_rhs => rw [hvalue]
      simp
    rw [htext, hbody] at hread
    exact (Prod.mk.inj (Option.some.inj hread)).1

/-- A value that is written behind a name and a blank is read as it is, if it is trimmed and does
not begin like a gap. -/
theorem ofBody?_eq_self_iff {name value : Text} {sigil : Char} (hsigil : isSigil sigil)
    (hname : ∀ c ∈ name, ¬ endsKeyword c) :
    ofBody? (sigil :: name ++ ' ' :: value) = some (sigil :: name, some value) ↔
      value.IsTrimmed ∧ ∀ c ∈ value.head?, c ≠ '=' ∧ c ≠ ':' := by
  constructor
  · intro hbody
    have hvalue := isTrimmed_of_ofBody? hbody
    have hread := @ofBody?_of_name [] name value [] sigil (List.forall_mem_nil _)
      (List.forall_mem_nil _) hsigil hname (isTrimmed_iff.1 hvalue).2
    rw [List.nil_append, List.append_nil, hbody] at hread
    refine ⟨hvalue, fun c hc => not_or.1 fun hgap => ?_⟩
    obtain ⟨rest, rfl⟩ := List.head?_eq_some_iff.1 hc
    -- the value would be what is left of it without its first character
    have hskipped : isGap c := by
      rcases hgap with rfl | rfl <;> rfl
    rw [List.dropWhile_cons_of_pos hskipped] at hread
    have hgiven : strip (rest.dropWhile isGap) = c :: rest := by
      dsimp only at hread
      split at hread
      · cases hread
      · exact (Option.some.inj (Prod.mk.inj (Option.some.inj hread)).2).symm
    have hinfix : strip (rest.dropWhile isGap) <:+: rest :=
      (trim_isInfix isBlank _).trans (List.dropWhile_suffix isGap).isInfix
    rw [hgiven] at hinfix
    exact absurd hinfix.length_le (by simp)
  · rintro ⟨hvalue, hbegins⟩
    have hstands (c : Char) (hc : c ∈ value.head?) : ¬ isGap c := by
      have hblank : ¬ isAsciiBlank c := fun hblank =>
        hvalue.begins c hc (isBlank_of_isAsciiBlank hblank)
      simp [isGap, hblank, hbegins c hc]
    have hread := @ofBody?_of_isTrimmed [] name value [] sigil (List.forall_mem_nil _)
      (List.forall_mem_nil _) hsigil hname hvalue hstands
    rwa [List.nil_append, List.append_nil] at hread

end Keyword

end KitTemplate
