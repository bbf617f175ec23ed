import KitTemplate.Import.Spec
import KitTemplate.Proofs.Source.Comment
import KitTemplate.Proofs.Text.Splitting

/-! Entries of import lists. A spec is written with padding on both sides, blanks and at most one
quote among them, and is cleaned of that padding (`clean_of_isPadding`). Blanks around a list belong
to the padding of its outermost entries, so the list is read alike with them and without them
(`map_clean_splitOn_strip`). -/

namespace KitTemplate.Import

open Text

theorem not_isBlank_of_isQuote {c : Char} (hquote : isQuote c) : ¬ isBlank c := by
  simp only [isQuote, Bool.or_eq_true, decide_eq_true_eq] at hquote
  rcases hquote with rfl | rfl <;> decide

/-! ### Blanks around an entry -/

section Gaps

variable {gap gap' : Text} (hgap : ∀ c ∈ gap, isBlank c) (hgap' : ∀ c ∈ gap', isBlank c)

include hgap hgap'

theorem dropOpeningQuote_append_gaps (entry : Text) : ∃ before after,
    dropOpeningQuote (gap ++ entry ++ gap') = before ++ dropOpeningQuote entry ++ after ∧
      (∀ c ∈ before, isBlank c) ∧ ∀ c ∈ after, isBlank c := by
  rw [dropOpeningQuote, dropOpeningQuote, List.append_assoc, List.dropWhile_append_of_pos hgap,
    List.dropWhile_append]
  cases hentry : entry.dropWhile isBlank with
  | nil =>
      rw [List.dropWhile_eq_nil_iff.2 hgap']
      exact ⟨gap, gap', (List.append_assoc ..).symm, hgap, hgap'⟩
  | cons c rest =>
      simp only [List.isEmpty_cons, Bool.false_eq_true, if_false, List.cons_append]
      split
      · exact ⟨[], gap', rfl, List.forall_mem_nil _, hgap'⟩
      · exact ⟨gap, gap', (List.append_assoc ..).symm, hgap, hgap'⟩

theorem dropClosingQuote_append_gaps (entry : Text) : ∃ before after,
    dropClosingQuote (gap ++ entry ++ gap') = before ++ dropClosingQuote entry ++ after ∧
      (∀ c ∈ before, isBlank c) ∧ ∀ c ∈ after, isBlank c := by
  have hreverse {gap : Text} (hgap : ∀ c ∈ gap, isBlank c) : ∀ c ∈ gap.reverse, isBlank c :=
    fun c hc => hgap c (List.mem_reverse.1 hc)
  obtain ⟨before, after, hdrop, hbefore, hafter⟩ :=
    dropOpeningQuote_append_gaps (hreverse hgap') (hreverse hgap) entry.reverse
  refine ⟨after.reverse, before.reverse, ?_, hreverse hafter, hreverse hbefore⟩
  have htext : (gap ++ entry ++ gap').reverse = gap'.reverse ++ entry.reverse ++ gap.reverse := by
    simp
  rw [dropClosingQuote, htext, hdrop, dropClosingQuote]
  simp

/-- Blanks around an entry make no difference. -/
theorem clean_append_gaps (entry : Text) : clean (gap ++ entry ++ gap') = clean entry := by
  obtain ⟨before, after, hopen, hbefore, hafter⟩ := dropOpeningQuote_append_gaps hgap hgap' entry
  obtain ⟨first, last, hclose, hfirst, hlast⟩ :=
    dropClosingQuote_append_gaps hbefore hafter (dropOpeningQuote entry)
  rw [clean, hopen, hclose, strip_append_gaps hfirst hlast, clean]

end Gaps

/-- Blanks around a list make no difference to its entries. -/
theorem map_clean_splitOn_strip (list : Text) :
    (splitOn ',' (strip list)).map clean = (splitOn ',' list).map clean := by
  obtain ⟨gap, gap', hlist, hgap, hgap'⟩ := exists_strip list
  have hcomma {gap : Text} (hgap : ∀ c ∈ gap, isBlank c) : ',' ∉ gap := fun hc =>
    absurd (hgap _ hc) (by decide)
  obtain ⟨others, last, hstripped, hjoined⟩ := splitOn_append_right (hcomma hgap') (strip list)
  obtain ⟨first, parts, hparts, hwhole⟩ :=
    splitOn_append_of_not_mem (hcomma hgap) (strip list ++ gap')
  have hfirst : clean (gap ++ first) = clean first := by
    have hclean := clean_append_gaps hgap (List.forall_mem_nil _) first
    rwa [List.append_nil] at hclean
  have hlast : clean (last ++ gap') = clean last :=
    clean_append_gaps (List.forall_mem_nil _) hgap' last
  calc (splitOn ',' (strip list)).map clean
      = (others ++ [last ++ gap']).map clean := by
        rw [hstripped, List.map_append, List.map_append, List.map_singleton, List.map_singleton,
          hlast]
    _ = (first :: parts).map clean := by rw [← hjoined, hparts]
    _ = ((gap ++ first) :: parts).map clean := by rw [List.map_cons, List.map_cons, hfirst]
    _ = (splitOn ',' list).map clean := by rw [← hwhole, ← List.append_assoc, ← hlist]

/-! ### Padded specs -/

/-- Blanks and at most one quote among them. -/
def IsPadding (text : Text) : Prop :=
  ∃ (gap : Text) (quote : Option Char) (gap' : Text), text = gap ++ quote.toList ++ gap' ∧
    (∀ c ∈ gap, isBlank c) ∧ (∀ c ∈ quote, isQuote c) ∧ ∀ c ∈ gap', isBlank c

/-- A text that may stand in an import list for itself. -/
structure IsSpec (spec : Text) : Prop where
  trimmed : spec.IsTrimmed
  unquoted : (∀ c ∈ spec.head?, ¬ isQuote c) ∧ ∀ c ∈ spec.getLast?, ¬ isQuote c
  begins : ∀ c ∈ spec.head?, c ≠ '=' ∧ c ≠ ':'
  single : ',' ∉ spec
  unmarked : ¬ commentClose <:+: spec
  unbroken : '\n' ∉ spec ∧ '\r' ∉ spec

/-- A spec as it is written in an import list. -/
structure Entry where
  before : Text
  spec : Text
  after : Text
  isPadding_before : IsPadding before
  isSpec : IsSpec spec
  isPadding_after : IsPadding after

def Entry.text (entry : Entry) : Text := entry.before ++ entry.spec ++ entry.after

theorem isPadding_nil : IsPadding [] :=
  ⟨[], none, [], rfl, List.forall_mem_nil _, nofun, List.forall_mem_nil _⟩

variable {before spec after : Text}

theorem IsPadding.reverse (hbefore : IsPadding before) : IsPadding before.reverse := by
  obtain ⟨gap, quote, gap', rfl, hgap, hquote, hgap'⟩ := hbefore
  refine ⟨gap'.reverse, quote, gap.reverse, ?_, fun c hc => hgap' c (List.mem_reverse.1 hc), hquote,
    fun c hc => hgap c (List.mem_reverse.1 hc)⟩
  cases quote <;> simp

/-- A character of a padding is a blank or a quote. -/
theorem IsPadding.cases_of_mem (hbefore : IsPadding before) {c : Char} (hc : c ∈ before) :
    isBlank c ∨ isQuote c := by
  obtain ⟨gap, quote, gap', rfl, hgap, hquote, hgap'⟩ := hbefore
  rcases List.mem_append.1 hc with hc | hc
  · rcases List.mem_append.1 hc with hc | hc
    · exact Or.inl (hgap c hc)
    · exact Or.inr (hquote c (Option.mem_toList.1 hc))
  · exact Or.inl (hgap' c hc)

theorem IsPadding.not_mem (hbefore : IsPadding before) {c : Char} (hblank : ¬ isBlank c)
    (hquote : ¬ isQuote c) : c ∉ before :=
  fun hc => (hbefore.cases_of_mem hc).elim hblank hquote

/-- Of a padding in front of a spec, blanks are left. -/
theorem dropOpeningQuote_of_isPadding (hbefore : IsPadding before) {rest : Text} (hrest : rest ≠ [])
    (hbegins : ∀ c ∈ rest.head?, ¬ isBlank c ∧ ¬ isQuote c) : ∃ gap,
      dropOpeningQuote (before ++ rest) = gap ++ rest ∧ ∀ c ∈ gap, isBlank c := by
  obtain ⟨gap, quote, gap', rfl, hgap, hquote, hgap'⟩ := hbefore
  obtain ⟨first, rest, rfl⟩ := List.exists_cons_of_ne_nil hrest
  obtain ⟨hblank, hunquoted⟩ := hbegins first rfl
  cases quote with
  | none =>
      have hgaps : ∀ c ∈ gap ++ gap', isBlank c := List.forall_mem_append.2 ⟨hgap, hgap'⟩
      refine ⟨gap ++ gap', ?_, hgaps⟩
      rw [Option.toList_none, List.append_nil, dropOpeningQuote, List.dropWhile_append_of_pos hgaps,
        List.dropWhile_cons_of_neg hblank]
      exact if_neg hunquoted
  | some c =>
      refine ⟨gap', ?_, hgap'⟩
      have hc : isQuote c := hquote c rfl
      have htext : gap ++ (some c).toList ++ gap' ++ first :: rest =
          gap ++ c :: (gap' ++ first :: rest) := by simp
      rw [htext, dropOpeningQuote, List.dropWhile_append_of_pos hgap,
        List.dropWhile_cons_of_neg (not_isBlank_of_isQuote hc)]
      exact if_pos hc

/-- An entry is cleaned of its padding. -/
theorem clean_of_isPadding (hbefore : IsPadding before) (hspec : IsSpec spec)
    (hafter : IsPadding after) : clean (before ++ spec ++ after) = spec := by
  have hne := hspec.trimmed.nonempty
  have hfirst : ∀ c ∈ (spec ++ after).head?, ¬ isBlank c ∧ ¬ isQuote c := by
    rw [List.head?_append_of_ne_nil _ hne]
    exact fun c hc => ⟨hspec.trimmed.begins c hc, hspec.unquoted.1 c hc⟩
  obtain ⟨gap, hopen, hgap⟩ :=
    dropOpeningQuote_of_isPadding hbefore (List.append_ne_nil_of_left_ne_nil hne after) hfirst
  have hlast : ∀ c ∈ (spec.reverse ++ gap.reverse).head?, ¬ isBlank c ∧ ¬ isQuote c := by
    rw [List.head?_append_of_ne_nil _ (List.reverse_ne_nil_iff.2 hne), List.head?_reverse]
    exact fun c hc => ⟨hspec.trimmed.ends c hc, hspec.unquoted.2 c hc⟩
  obtain ⟨gap', hclose, hgap'⟩ := dropOpeningQuote_of_isPadding hafter.reverse
    (List.append_ne_nil_of_left_ne_nil (List.reverse_ne_nil_iff.2 hne) _) hlast
  have hreverse : (gap ++ (spec ++ after)).reverse =
      after.reverse ++ (spec.reverse ++ gap.reverse) := by simp
  have hcleaned : (gap' ++ (spec.reverse ++ gap.reverse)).reverse = gap ++ spec ++ gap'.reverse := by
    simp
  rw [clean, List.append_assoc, hopen, dropClosingQuote, hreverse, hclose, hcleaned,
    strip_append_gaps hgap fun c hc => hgap' c (List.mem_reverse.1 hc), hspec.trimmed.strip_eq]

theorem IsSpec.clean_eq (hspec : IsSpec spec) : clean spec = spec := by
  have hclean := clean_of_isPadding isPadding_nil hspec isPadding_nil
  rwa [List.append_nil] at hclean

theorem IsSpec.not_isGap (hspec : IsSpec spec) : ∀ c ∈ spec.head?, ¬ Keyword.isGap c := by
  intro c hc hgap
  have hsign := Keyword.cases_of_isGap hgap (hspec.trimmed.begins c hc)
  exact hsign.elim (hspec.begins c hc).1 (hspec.begins c hc).2

/-! ### Lists -/

namespace Entry

theorem clean_text (entry : Entry) : clean entry.text = entry.spec :=
  clean_of_isPadding entry.isPadding_before entry.isSpec entry.isPadding_after

theorem not_mem_comma (entry : Entry) : ',' ∉ entry.text := by
  have hpadding {padding : Text} (hpadding : IsPadding padding) : ',' ∉ padding :=
    hpadding.not_mem (by decide) (by decide)
  rw [text, List.mem_append, List.mem_append, not_or, not_or]
  exact ⟨⟨hpadding entry.isPadding_before, entry.isSpec.single⟩, hpadding entry.isPadding_after⟩

theorem unmarked (entry : Entry) : ¬ commentClose <:+: entry.text :=
  not_isInfix_append_gaps (entry.isPadding_before.not_mem (by decide) (by decide))
    ⟨entry.isPadding_after.not_mem (by decide) (by decide),
      entry.isPadding_after.not_mem (by decide) (by decide)⟩ entry.isSpec.unmarked

/-- The entries one after the other with commas between neighbours. -/
def list (entries : List Entry) : Text := join [','] (entries.map text)

variable {entries : List Entry}

theorem splitOn_list (hentries : entries ≠ []) : splitOn ',' (list entries) = entries.map text := by
  have hsingle : ∀ entry ∈ entries, splitOn ',' (text entry) = [text entry] :=
    fun entry _ => splitOn_of_not_mem entry.not_mem_comma
  rw [list, splitOn_join (by simpa using hentries), List.flatMap_map, List.flatMap_congr hsingle,
    List.map_eq_flatMap]

/-- What is read of a list are its specs. -/
theorem map_clean_list (hentries : entries ≠ []) :
    (splitOn ',' (strip (list entries))).map clean = entries.map Entry.spec := by
  rw [map_clean_splitOn_strip, splitOn_list hentries, List.map_map]
  exact List.map_congr_left fun entry _ => entry.clean_text

theorem unmarked_list (entries : List Entry) : ¬ commentClose <:+: list entries := by
  induction entries with
  | nil => decide
  | cons entry rest ih =>
      cases rest with
      | nil => simpa [list, join, List.intercalate] using entry.unmarked
      | cons next rest =>
          have hcons : list (entry :: next :: rest) =
              entry.text ++ (',' :: list (next :: rest)) := join_cons_cons ..
          have hcomma : ¬ commentClose <:+: ',' :: list (next :: rest) :=
            @not_isInfix_append [','] _ (by decide) ih (Or.inl (by decide))
          rw [hcons]
          exact not_isInfix_append entry.unmarked hcomma (Or.inr (by simp))

theorem exists_list (entry : Entry) (rest : List Entry) :
    ∃ more, list (entry :: rest) = entry.before ++ (entry.spec ++ more) := by
  cases rest with
  | nil => exact ⟨entry.after, by simp [list, join, List.intercalate, text]⟩
  | cons next rest =>
      refine ⟨entry.after ++ ',' :: list (next :: rest), ?_⟩
      calc list (entry :: next :: rest)
          = entry.text ++ ',' :: list (next :: rest) := join_cons_cons ..
        _ = _ := by simp only [text, List.append_assoc]

theorem isTrimmed_strip_list (hentries : entries ≠ []) : (strip (list entries)).IsTrimmed := by
  obtain ⟨entry, rest, rfl⟩ := List.exists_cons_of_ne_nil hentries
  obtain ⟨more, hlist⟩ := exists_list entry rest
  obtain ⟨first, inner, hspec⟩ := List.exists_cons_of_ne_nil entry.isSpec.trimmed.nonempty
  have hblank : ¬ isBlank first := entry.isSpec.trimmed.begins first (by rw [hspec]; rfl)
  apply isTrimmed_strip
  apply List.ne_nil_of_mem
  apply mem_strip _ hblank
  rw [hlist, hspec]
  simp

/-- Neither an equals sign nor a colon is the first character of a list, blanks aside. -/
theorem not_isGap_strip_list (hentries : entries ≠ []) :
    ∀ c ∈ (strip (list entries)).head?, ¬ Keyword.isGap c := by
  intro c hc hgap
  have hblank : ¬ isBlank c := (isTrimmed_strip_list hentries).begins c hc
  have hsign : c = '=' ∨ c = ':' := Keyword.cases_of_isGap hgap hblank
  obtain ⟨entry, rest, rfl⟩ := List.exists_cons_of_ne_nil hentries
  obtain ⟨more, hlist⟩ := exists_list entry rest
  obtain ⟨first, inner, hspec⟩ := List.exists_cons_of_ne_nil entry.isSpec.trimmed.nonempty
  have hmem : first ∈ entry.spec.head? := by rw [hspec]; rfl
  have hfirst : c ≠ first := by
    rintro rfl
    exact hsign.elim (entry.isSpec.begins c hmem).1 (entry.isSpec.begins c hmem).2
  have hpadding : c ∉ entry.before := by
    apply entry.isPadding_before.not_mem hblank
    rcases hsign with rfl | rfl <;> decide
  obtain ⟨gap, gap', hstrip, hblanks, -⟩ := exists_strip (list (entry :: rest))
  obtain ⟨tail, htail⟩ := List.head?_eq_some_iff.1 hc
  rw [htail, hlist, hspec, List.append_assoc, List.cons_append, List.cons_append] at hstrip
  -- the character would stand in the padding, or the spec would begin with it or with a blank
  rcases List.append_eq_append_iff.1 hstrip with ⟨behind, hgap', hfollows⟩ | ⟨behind, hbefore, hfollows⟩
  · cases behind with
    | nil =>
        obtain ⟨hsame, -⟩ := List.cons.inj hfollows
        exact hfirst hsame.symm
    | cons other behind =>
        obtain ⟨rfl, -⟩ := List.cons.inj hfollows
        refine entry.isSpec.trimmed.begins first hmem (hblanks first ?_)
        rw [hgap']
        simp
  · cases behind with
    | nil =>
        obtain ⟨hsame, -⟩ := List.cons.inj hfollows
        exact hfirst hsame
    | cons other behind =>
        obtain ⟨rfl, -⟩ := List.cons.inj hfollows
        apply hpadding
        rw [hbefore]
        simp

end Entry

end KitTemplate.Import
