import Mathlib.Data.List.Infix
import Mathlib.Data.List.TakeWhile
import KitTemplate.Text.Blank

/-! Trimmed texts. Trimming takes the skipped characters off the two ends of a text and nothing
else: a part of the text is left (`trim_isInfix`), and it neither begins nor ends with such a
character (`not_of_mem_head?_trim`, `not_of_mem_getLast?_trim`). -/

namespace KitTemplate.Text

variable {skipped : Char → Bool}

theorem trimLeft_append {gap text : Text} (hgap : ∀ c ∈ gap, skipped c)
    (htext : ∀ c ∈ text.head?, ¬ skipped c) : trimLeft skipped (gap ++ text) = text := by
  rw [trimLeft, List.dropWhile_append_of_pos hgap]
  cases text with
  | nil => rfl
  | cons c rest => exact List.dropWhile_cons_of_neg (htext c rfl)

theorem trimRight_append {text gap : Text} (hgap : ∀ c ∈ gap, skipped c)
    (htext : ∀ c ∈ text.getLast?, ¬ skipped c) : trimRight skipped (text ++ gap) = text := by
  have hreverse : trimLeft skipped (gap.reverse ++ text.reverse) = text.reverse :=
    trimLeft_append (fun c hc => hgap c (List.mem_reverse.1 hc)) fun c hc =>
      htext c (by rwa [List.head?_reverse] at hc)
  rw [trimRight, List.reverse_append]
  exact List.reverse_eq_iff.2 hreverse

theorem trimRight_isPrefix (skipped : Char → Bool) (text : Text) :
    trimRight skipped text <+: text := by
  rw [trimRight, ← List.reverse_suffix, List.reverse_reverse]
  exact List.dropWhile_suffix skipped

theorem trim_isInfix (skipped : Char → Bool) (text : Text) : trim skipped text <:+: text :=
  (trimRight_isPrefix skipped (trimLeft skipped text)).isInfix.trans
    (List.dropWhile_suffix skipped).isInfix

/-- A text is its trimmed text and skipped characters behind it. -/
theorem exists_trimRight_append (skipped : Char → Bool) (text : Text) :
    ∃ gap, text = trimRight skipped text ++ gap ∧ ∀ c ∈ gap, skipped c := by
  refine ⟨(text.reverse.takeWhile skipped).reverse, ?_, fun c hc => ?_⟩
  · rw [trimRight, ← List.reverse_append, List.takeWhile_append_dropWhile, List.reverse_reverse]
  · exact List.mem_takeWhile_imp (List.mem_reverse.1 hc)

theorem not_of_mem_getLast?_trimRight {text : Text} {c : Char}
    (hc : c ∈ (trimRight skipped text).getLast?) : ¬ skipped c := by
  rw [trimRight, List.getLast?_reverse] at hc
  have hhead := List.head?_dropWhile_not skipped text.reverse
  rw [Option.mem_def.1 hc] at hhead
  simpa using hhead

theorem not_of_mem_getLast?_trim {text : Text} {c : Char}
    (hc : c ∈ (trim skipped text).getLast?) : ¬ skipped c :=
  not_of_mem_getLast?_trimRight hc

theorem not_of_mem_head?_trim {text : Text} {c : Char} (hc : c ∈ (trim skipped text).head?) :
    ¬ skipped c := by
  -- what is left begins like the text without the characters in front
  have hfirst : c ∈ (trimLeft skipped text).head? := by
    obtain ⟨rest, hrest⟩ := trimRight_isPrefix skipped (trimLeft skipped text)
    rw [← hrest, List.head?_append]
    exact Option.mem_def.2 (by rw [show (trimRight _ _).head? = some c from hc]; rfl)
  have hhead := List.head?_dropWhile_not skipped text
  rw [show (text.dropWhile skipped).head? = some c from hfirst] at hhead
  simpa using hhead

/-- Trimming on the right goes no further than to a character that is not skipped. -/
theorem trimRight_append_of_not {before : Text} (hbefore : ∀ c ∈ before.getLast?, ¬ skipped c)
    (after : Text) : trimRight skipped (before ++ after) = before ++ trimRight skipped after := by
  obtain ⟨gap, hafter, hgap⟩ := exists_trimRight_append skipped after
  have hlast : ∀ c ∈ (before ++ trimRight skipped after).getLast?, ¬ skipped c := by
    intro c hc
    rw [List.getLast?_append, Option.mem_def, Option.or_eq_some_iff] at hc
    rcases hc with hc | ⟨-, hc⟩
    · exact not_of_mem_getLast?_trimRight hc
    · exact hbefore c hc
  calc trimRight skipped (before ++ after)
      = trimRight skipped (before ++ trimRight skipped after ++ gap) := by
        rw [List.append_assoc, ← hafter]
    _ = before ++ trimRight skipped after := trimRight_append hgap hlast

theorem trimRight_append_gap {gap : Text} (hgap : ∀ c ∈ gap, skipped c) (text : Text) :
    trimRight skipped (text ++ gap) = trimRight skipped text := by
  rw [trimRight, trimRight, List.reverse_append, List.dropWhile_append_of_pos]
  exact fun c hc => hgap c (List.mem_reverse.1 hc)

theorem trim_cons_of_not {c : Char} (hc : ¬ skipped c) (text : Text) :
    trim skipped (c :: text) = c :: trimRight skipped text := by
  have hlast : ∀ last ∈ [c].getLast?, ¬ skipped last := by simpa using hc
  rw [trim, trimLeft, List.dropWhile_cons_of_neg hc]
  exact trimRight_append_of_not hlast text

/-- What stands between blanks, if it neither begins nor ends with one. -/
theorem strip_append {gap text gap' : Text} (hgap : ∀ c ∈ gap, isBlank c)
    (hgap' : ∀ c ∈ gap', isBlank c) (hfirst : text.head?.any (!isBlank ·))
    (hlast : text.getLast?.any (!isBlank ·)) : strip (gap ++ text ++ gap') = text := by
  have hbegins : ∀ c ∈ (text ++ gap').head?, ¬ isBlank c := by
    cases text with
    | nil => cases hfirst
    | cons c rest => simpa using hfirst
  have hends : ∀ c ∈ text.getLast?, ¬ isBlank c := by
    intro c hc
    rw [Option.mem_def.1 hc] at hlast
    simpa using hlast
  rw [strip, trim, List.append_assoc, trimLeft_append hgap hbegins, trimRight_append hgap' hends]

/-- Blanks around a text are trimmed with those at its ends. -/
theorem strip_append_gaps {gap gap' : Text} (hgap : ∀ c ∈ gap, isBlank c)
    (hgap' : ∀ c ∈ gap', isBlank c) (text : Text) : strip (gap ++ text ++ gap') = strip text := by
  rw [strip, trim, trimLeft, List.append_assoc, List.dropWhile_append_of_pos hgap,
    List.dropWhile_append]
  split
  · rename_i hempty
    rw [List.dropWhile_eq_nil_iff.2 hgap', strip, trim, trimLeft, List.isEmpty_iff.1 hempty]
  · exact trimRight_append_gap hgap' _

/-- A text is its stripped text with blanks around it. -/
theorem exists_strip (text : Text) : ∃ gap gap', text = gap ++ strip text ++ gap' ∧
    (∀ c ∈ gap, isBlank c) ∧ ∀ c ∈ gap', isBlank c := by
  obtain ⟨gap', htext, hgap'⟩ := exists_trimRight_append isBlank (trimLeft isBlank text)
  refine ⟨text.takeWhile isBlank, gap', ?_, fun c hc => List.mem_takeWhile_imp hc, hgap'⟩
  calc text
      = text.takeWhile isBlank ++ trimLeft isBlank text := List.takeWhile_append_dropWhile.symm
    _ = text.takeWhile isBlank ++ (strip text ++ gap') := congrArg (_ ++ ·) htext
    _ = text.takeWhile isBlank ++ strip text ++ gap' := (List.append_assoc ..).symm

theorem mem_strip {c : Char} {text : Text} (hc : c ∈ text) (hblank : ¬ isBlank c) :
    c ∈ strip text := by
  have hkept {text : Text} (hc : c ∈ text) : c ∈ text.dropWhile isBlank := by
    rw [← List.takeWhile_append_dropWhile (p := isBlank) (l := text), List.mem_append] at hc
    exact hc.resolve_left fun htaken => hblank (List.mem_takeWhile_imp htaken)
  exact List.mem_reverse.2 (hkept (List.mem_reverse.2 (hkept hc)))

end KitTemplate.Text
