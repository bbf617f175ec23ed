import Mathlib.Data.List.Chain
import KitTemplate.Text.Blank
import KitTemplate.Proofs.Text.Splitting

/-! Words. The words of a text are its longest runs of characters that do not separate
(`hasWords_words`). Words without blanks that are joined by single spaces hold no blank but these
spaces, no two of which stand together and none of which stands at an end (`isSingleSpaced_join`).
-/

namespace KitTemplate.Text

/-- The words of a text, which stand between runs of separating characters. -/
inductive HasWords (separates : Char → Bool) : Text → List Text → Prop
  | none {gap : Text} (hgap : ∀ c ∈ gap, separates c) : HasWords separates gap []
  | word {gap word rest : Text} {more : List Text} (hgap : ∀ c ∈ gap, separates c)
      (hne : word ≠ []) (hword : ∀ c ∈ word, ¬ separates c) (hend : ∀ c ∈ rest.head?, separates c)
      (hrest : HasWords separates rest more) :
      HasWords separates (gap ++ word ++ rest) (word :: more)

variable {separates : Char → Bool} {c : Char} {text rest : Text} {found : List Text}

namespace HasWords

theorem cons_gap (hc : separates c) (htext : HasWords separates text found) :
    HasWords separates (c :: text) found := by
  cases htext with
  | none hgap => exact .none (List.forall_mem_cons.2 ⟨hc, hgap⟩)
  | word hgap hne hword hend hrest =>
      exact .word (List.forall_mem_cons.2 ⟨hc, hgap⟩) hne hword hend hrest

/-- A character that does not separate is a word by itself if a separating one follows. -/
theorem cons_word (hc : ¬ separates c) (hend : ∀ next ∈ text.head?, separates next)
    (htext : HasWords separates text found) : HasWords separates (c :: text) ([c] :: found) :=
  .word (List.forall_mem_nil _) (List.cons_ne_nil c []) (by simpa using hc) hend htext

/-- A character that does not separate joins the word that follows it directly. -/
theorem cons_join {next : Char} (hc : ¬ separates c) (hnext : ¬ separates next)
    (htext : HasWords separates (next :: text) found) :
    ∃ word more, found = word :: more ∧
      HasWords separates (c :: next :: text) ((c :: word) :: more) := by
  generalize hwhole : next :: text = whole at htext
  cases htext with
  | none hgap => exact absurd (hgap next (hwhole ▸ List.mem_cons_self)) hnext
  | @word gap word rest more hgap hne hword hend hrest =>
      cases gap with
      | nil =>
          refine ⟨word, more, rfl, ?_⟩
          have hjoined : ∀ letter ∈ c :: word, ¬ separates letter :=
            List.forall_mem_cons.2 ⟨hc, hword⟩
          exact .word (List.forall_mem_nil _) (List.cons_ne_nil c word) hjoined hend hrest
      | cons first gap =>
          obtain ⟨rfl, -⟩ := List.cons.inj hwhole
          exact absurd (hgap next List.mem_cons_self) hnext

end HasWords

theorem hasWords_words (separates : Char → Bool) (text : Text) :
    HasWords separates text (words separates text) := by
  induction text with
  | nil => exact .none (List.forall_mem_nil _)
  | cons c rest ih =>
      unfold words
      split
      · rename_i hc
        exact ih.cons_gap hc
      rename_i hc
      split
      · rename_i next rest word more hwords
        rw [hwords] at ih
        split
        · rename_i hnext
          exact ih.cons_word hc (by simpa using hnext)
        · rename_i hnext
          obtain ⟨word, more, hfound, hjoined⟩ := ih.cons_join hc hnext
          obtain ⟨rfl, rfl⟩ := List.cons.inj hfound
          exact hjoined
      · rename_i hrest
        -- nothing follows, or separating characters only
        refine ih.cons_word hc fun next hnext => ?_
        by_contra hletter
        obtain ⟨tail, rfl⟩ := List.head?_eq_some_iff.1 (Option.mem_def.1 hnext)
        obtain ⟨word, more, hfound, -⟩ := ih.cons_join hc hletter
        exact hrest next tail word more rfl hfound

theorem HasWords.ne_nil_and_not (htext : HasWords separates text found) :
    ∀ word ∈ found, word ≠ [] ∧ ∀ c ∈ word, ¬ separates c := by
  induction htext with
  | none => exact List.forall_mem_nil _
  | word _ hne hword _ _ ih => exact List.forall_mem_cons.2 ⟨⟨hne, hword⟩, ih⟩

/-- A text has words if it has a character that does not separate. -/
theorem HasWords.eq_nil_iff (htext : HasWords separates text found) :
    found = [] ↔ ∀ c ∈ text, separates c := by
  cases htext with
  | none hgap => exact iff_of_true rfl hgap
  | @word gap word rest more _ hne hword =>
      refine iff_of_false (List.cons_ne_nil _ _) fun hall => ?_
      obtain ⟨c, letters, rfl⟩ := List.exists_cons_of_ne_nil hne
      exact hword c List.mem_cons_self (hall c (by simp))

/-! ### Joined words -/

/-- A text of words with single spaces between them. -/
structure IsSingleSpaced (text : Text) : Prop where
  spaces : ∀ c ∈ text, isBlank c → c = ' '
  single : List.IsChain (fun c next => ¬ (c = ' ' ∧ next = ' ')) text
  first : ∀ c ∈ text.head?, ¬ isBlank c
  last : ∀ c ∈ text.getLast?, ¬ isBlank c

theorem isSingleSpaced_of_not_isBlank (htext : ∀ c ∈ text, ¬ isBlank c) : IsSingleSpaced text where
  spaces c hc hblank := absurd hblank (htext c hc)
  single := by
    refine List.isChain_iff_forall_rel_of_append_cons_cons.2 ?_
    rintro c next before after rfl ⟨rfl, -⟩
    exact htext ' ' (by simp) rfl
  first c hc := htext c (List.mem_of_mem_head? hc)
  last c hc := htext c (List.mem_of_mem_getLast? hc)

theorem IsSingleSpaced.append {before after : Text} (hbefore : IsSingleSpaced before)
    (hafter : IsSingleSpaced after) (hne : before ≠ []) (hne' : after ≠ []) :
    IsSingleSpaced (before ++ ' ' :: after) where
  spaces c hc hblank := by
    rcases List.mem_append.1 hc with hc | hc
    · exact hbefore.spaces c hc hblank
    · rcases List.mem_cons.1 hc with rfl | hc
      · rfl
      · exact hafter.spaces c hc hblank
  single := by
    -- blanks stand neither at the end of the one text nor at the beginning of the other
    refine List.isChain_append.2 ⟨hbefore.single, List.isChain_cons.2 ⟨?_, hafter.single⟩, ?_⟩
    · rintro c hc ⟨-, rfl⟩
      exact hafter.first ' ' hc rfl
    · rintro c hc - - ⟨rfl, -⟩
      exact hbefore.last ' ' hc rfl
  first := by
    rw [List.head?_append_of_ne_nil _ hne]
    exact hbefore.first
  last := by
    rw [List.getLast?_append_of_ne_nil _ (List.cons_ne_nil _ _), List.getLast?_cons_of_ne_nil hne']
    exact hafter.last

/-- Words without blanks are single spaced when they are joined. -/
theorem isSingleSpaced_join {found : List Text} (hne : found ≠ [])
    (hfound : ∀ word ∈ found, word ≠ [] ∧ ∀ c ∈ word, ¬ isBlank c) :
    join [' '] found ≠ [] ∧ IsSingleSpaced (join [' '] found) := by
  induction found with
  | nil => exact absurd rfl hne
  | cons word more ih =>
      obtain ⟨⟨hword, hletters⟩, hmore⟩ := List.forall_mem_cons.1 hfound
      cases more with
      | nil =>
          rw [show join [' '] [word] = word by simp [join]]
          exact ⟨hword, isSingleSpaced_of_not_isBlank hletters⟩
      | cons next more =>
          obtain ⟨hne, hjoined⟩ := ih (List.cons_ne_nil _ _) hmore
          rw [join_cons_cons]
          exact ⟨by simp, (isSingleSpaced_of_not_isBlank hletters).append hjoined hword hne⟩

end KitTemplate.Text
