import Mathlib.Data.List.Basic
import KitTemplate.Text.Pattern
import KitTemplate.Proofs.Text.Marks

/-! Searching with patterns. Where the part behind a run of characters decides how long the run is,
the ways that are tried in vain can be left out: a run of all characters but one, as long as it can
be, ends in front of that one if the pattern goes on with it (`ways_most_one`), and a run of any
characters, as short as it can be, ends in front of the first word that the pattern goes on with
(`head?_ways_fewest_word`). A search goes through the places of a text in order. -/

namespace KitTemplate.Pattern

open Text

variable {pattern : Pattern} {place : Nat} {rest text letters : Text} {spans : List (Nat × Nat)}

theorem ways_append (first second : Pattern) (start : Reached) :
    (first ++ second).ways start = (first.ways start).flatMap second.ways := rfl

/-- A word is found where the small letters of the text begin with it. -/
theorem ways_word (letters : Text) (place : Nat) (rest : Text) (spans : List (Nat × Nat)) :
    (word letters).ways ⟨place, rest, spans⟩ =
      if letters <+: rest.map smallLetter then
        [⟨place + letters.length, rest.drop letters.length, spans⟩]
      else [] := by
  induction letters generalizing place rest with
  | nil => simp [word, ways]
  | cons letter letters ih =>
      rw [word, ways_append]
      cases rest with
      | nil => simp [ways]
      | cons c rest =>
          by_cases hletter : smallLetter c = letter
          · have hplace : place + 1 + letters.length = place + (letters.length + 1) := by omega
            simp [ways, hletter, ih, hplace]
          · simp [ways, hletter, Ne.symm hletter]

theorem ways_one_cons (allows : Char → Bool) (place : Nat) (c : Char) (rest : Text)
    (spans : List (Nat × Nat)) : (one allows).ways ⟨place, c :: rest, spans⟩ =
      if allows c then [⟨place + 1, rest, spans⟩] else [] := rfl

/-- A run of all characters but one ends where that one is found. -/
theorem ways_most_one (mark : Char) (place : Nat) (rest : Text) (spans : List (Nat × Nat)) :
    (most (· ≠ mark) ++ one (· = mark)).ways ⟨place, rest, spans⟩ =
      ((cut? [mark] rest).map fun sides =>
        ⟨place + sides.1.length + 1, sides.2, spans⟩).toList := by
  change (passing (· ≠ mark) place spans rest).reverse.flatMap (one (· = mark)).ways = _
  induction rest generalizing place with
  | nil => rfl
  | cons c rest ih =>
      rw [passing, List.reverse_cons, List.flatMap_append, List.flatMap_singleton, ways_one_cons,
        cut?_singleton_cons]
      by_cases hc : c = mark
      · simp [hc]
      · have hplace (length : Nat) : place + 1 + length + 1 = place + (length + 1) + 1 := by omega
        rw [if_pos (decide_eq_true hc), ih, if_neg (by simpa using hc), if_neg hc]
        simp [Option.map_map, Function.comp_def, hplace]

/-- A run of any characters that is kept ends where the word behind it is first found. -/
theorem head?_ways_fewest_word (hletters : letters ≠ []) (place : Nat) (rest : Text)
    (spans : List (Nat × Nat)) :
    ((captured (fewest fun _ => true) ++ word letters).ways ⟨place, rest, spans⟩).head? =
      (cut? letters (rest.map smallLetter)).map fun sides =>
        ⟨place + sides.1.length + letters.length, rest.drop (sides.1.length + letters.length),
          spans ++ [(place, place + sides.1.length)]⟩ := by
  -- the run grows while the place that it is kept from stays
  suffices hgrows : ∀ reached, (((passing (fun _ => true) reached spans rest).map fun stop =>
      { stop with spans := stop.spans ++ [(place, stop.place)] }).flatMap
        (word letters).ways).head? =
      (cut? letters (rest.map smallLetter)).map fun sides =>
        ⟨reached + sides.1.length + letters.length, rest.drop (sides.1.length + letters.length),
          spans ++ [(place, reached + sides.1.length)]⟩ from hgrows place
  induction rest with
  | nil => simp [passing, ways_word, cut?, hletters]
  | cons c rest ih =>
      intro reached
      rw [passing, if_pos rfl, List.map_cons, List.flatMap_cons, List.head?_append, ih, ways_word]
      by_cases hbegins : letters <+: (c :: rest).map smallLetter
      · obtain ⟨after, hafter⟩ := hbegins
        rw [if_pos ⟨after, hafter⟩, ← hafter, cut?_self hletters]
        simp
      · have hnone : letters.isPrefixOf? (smallLetter c :: rest.map smallLetter) = none := by
          rw [Option.eq_none_iff_forall_ne_some]
          intro after hafter
          exact hbegins ⟨after, (isPrefixOf?_eq_some_iff.1 hafter).symm⟩
        rw [if_neg hbegins, List.map_cons, cut?, hnone, List.head?_nil, Option.none_or,
          Option.map_map]
        refine congrArg (Option.map · _) (funext fun sides => ?_)
        have hplace : reached + 1 + sides.1.length = reached + (sides.1.length + 1) := by omega
        have hdrop : sides.1.length + 1 + letters.length = sides.1.length + letters.length + 1 := by
          omega
        simp [hplace, hdrop]

/-! ### Searches -/

/-- A search finds the first place with a way through the pattern. -/
theorem searchFrom_eq_some {reached : Reached} {passed : Nat} (hpassed : passed ≤ text.length)
    (hearlier : ∀ earlier < passed,
      (pattern.ways ⟨place + earlier, text.drop earlier, []⟩).head? = none)
    (hfound : (pattern.ways ⟨place + passed, text.drop passed, []⟩).head? = some reached) :
    pattern.searchFrom place text = some reached := by
  induction passed generalizing place text with
  | zero =>
      have hhere : (pattern.ways ⟨place, text, []⟩).head? = some reached := hfound
      unfold searchFrom
      rw [hhere]
  | succ passed ih =>
      cases text with
      | nil => cases hpassed
      | cons c rest =>
          have hfirst : (pattern.ways ⟨place, c :: rest, []⟩).head? = none :=
            hearlier 0 (Nat.succ_pos passed)
          rw [searchFrom, hfirst]
          have hplace (earlier : Nat) : place + 1 + earlier = place + (earlier + 1) := by omega
          refine ih (Nat.le_of_succ_le_succ hpassed) (fun earlier hlt => ?_) ?_
          · rw [hplace]
            exact hearlier (earlier + 1) (Nat.succ_lt_succ hlt)
          · rwa [hplace]

theorem searchFrom_eq_none
    (hall : ∀ passed ≤ text.length,
      (pattern.ways ⟨place + passed, text.drop passed, []⟩).head? = none) :
    pattern.searchFrom place text = none := by
  induction text generalizing place with
  | nil =>
      have hlast : (pattern.ways ⟨place, [], []⟩).head? = none := hall 0 (Nat.le_refl 0)
      rw [searchFrom, hlast]
  | cons c rest ih =>
      have hfirst : (pattern.ways ⟨place, c :: rest, []⟩).head? = none := hall 0 (Nat.zero_le _)
      rw [searchFrom, hfirst]
      refine ih fun passed hpassed => ?_
      rw [show place + 1 + passed = place + (passed + 1) by omega]
      exact hall (passed + 1) (Nat.succ_le_succ hpassed)

end KitTemplate.Pattern
