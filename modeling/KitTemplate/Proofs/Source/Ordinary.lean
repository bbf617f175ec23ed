import Mathlib.Data.List.Infix
import Mathlib.Data.List.TakeWhile
import KitTemplate.Source.Piece

/-! Sources without directives. Whether a comment is a directive is decided token by token, but it
depends on the text alone: a directive opens only where a sigil and a letter follow the opening mark
of a comment, layout characters aside (`exists_of_opensAt`). So a source in which this is nowhere
the case has no pieces but its tokens, whatever comments it holds. -/

namespace KitTemplate

open Text

/-- A text in which no comment has a keyword right behind its opening mark, layout characters
aside. -/
def Text.IsOrdinary (text : Text) : Prop :=
  ∀ before gap rest, text = before ++ commentOpen ++ gap ++ rest → (∀ c ∈ gap, isLayout c) →
    ¬ Keyword.startsText rest

/-- Whether a text begins with a comment that has a keyword. -/
def Directive.begins (text : Text) : Bool :=
  (commentOpen.isPrefixOf? text).any fun body => Keyword.startsText (body.dropWhile isLayout)

theorem Keyword.not_isLayout_of_startsText {c : Char} {rest : Text}
    (hstarts : startsText (c :: rest)) : ¬ isLayout c := by
  cases rest with
  | nil => cases hstarts
  | cons letter rest =>
      simp only [startsText, isSigil, Bool.and_eq_true, Bool.or_eq_true,
        decide_eq_true_eq] at hstarts
      rcases hstarts.1 with rfl | rfl <;> decide

theorem Keyword.startsText_append {text : Text} (hstarts : startsText text) (more : Text) :
    startsText (text ++ more) := by
  match text, hstarts with
  | _ :: _ :: _, hstarts => exact hstarts

/-- A keyword ends the run of layout characters before it, so any run is the longest one. -/
theorem Directive.begins_iff {text : Text} :
    begins text ↔ ∃ gap rest, text = commentOpen ++ gap ++ rest ∧ (∀ c ∈ gap, isLayout c) ∧
      Keyword.startsText rest := by
  constructor
  · intro hbegins
    obtain ⟨body, hbody, hstarts⟩ := (Option.any_eq_true _ _).1 hbegins
    refine ⟨body.takeWhile isLayout, body.dropWhile isLayout, ?_, ?_, hstarts⟩
    · rw [List.append_assoc, List.takeWhile_append_dropWhile]
      exact isPrefixOf?_eq_some_iff.1 hbody
    · exact fun c hc => List.mem_takeWhile_imp hc
  · rintro ⟨gap, rest, rfl, hgap, hstarts⟩
    have hopen : commentOpen.isPrefixOf? (commentOpen ++ (gap ++ rest)) = some (gap ++ rest) :=
      isPrefixOf?_eq_some_iff.2 rfl
    have hrest : (gap ++ rest).dropWhile isLayout = rest := by
      rw [List.dropWhile_append_of_pos hgap]
      cases rest with
      | nil => rfl
      | cons c rest =>
          exact List.dropWhile_cons_of_neg (Keyword.not_isLayout_of_startsText hstarts)
    rw [begins, List.append_assoc, hopen, Option.any_some, hrest]
    exact hstarts

theorem Text.isOrdinary_iff {text : Text} :
    text.IsOrdinary ↔ ∀ rest ∈ text.tails, ¬ Directive.begins rest := by
  constructor
  · intro hordinary rest hrest hbegins
    obtain ⟨before, rfl⟩ := (List.mem_tails _ _).1 hrest
    obtain ⟨gap, keyword, rfl, hgap, hstarts⟩ := Directive.begins_iff.1 hbegins
    exact hordinary before gap keyword (by simp) hgap hstarts
  · rintro hnone before gap rest rfl hgap hstarts
    refine hnone (commentOpen ++ gap ++ rest) ((List.mem_tails _ _).2 ⟨before, by simp⟩) ?_
    exact Directive.begins_iff.2 ⟨gap, rest, rfl, hgap, hstarts⟩

instance (text : Text) : Decidable text.IsOrdinary := decidable_of_iff _ Text.isOrdinary_iff.symm

theorem Text.IsOrdinary.of_append {before after : Text} (hordinary : IsOrdinary (before ++ after)) :
    after.IsOrdinary := by
  rintro inner gap rest rfl hgap
  exact hordinary (before ++ inner) gap rest (by simp) hgap

/-- A directive opens only where a keyword stands behind the opening mark. -/
theorem Directive.exists_of_opensAt {after : Text} {following : List Token}
    (hopens : opensAt (commentOpen ++ after) following) :
    ∃ gap rest, after ++ following.flatten = gap ++ rest ∧ (∀ c ∈ gap, isLayout c) ∧
      Keyword.startsText rest := by
  have hrest : (commentOpen ++ after).drop commentOpen.length = after := List.drop_left
  simp only [opensAt, hrest, Bool.or_eq_true, Bool.and_eq_true] at hopens
  rcases hopens with hstarts | ⟨hafter, hkeyword⟩
  · exact ⟨[], after ++ following.flatten, rfl, List.forall_mem_nil _,
      Keyword.startsText_append hstarts _⟩
  -- layout characters up to the token that begins with the keyword
  obtain ⟨token, htoken, hstarts⟩ := (Option.any_eq_true _ _).1 hkeyword
  obtain ⟨rest, hdrop⟩ := List.head?_eq_some_iff.1 htoken
  refine ⟨after ++ (following.takeWhile isLayoutRun).flatten, token ++ rest.flatten, ?_, ?_,
    Keyword.startsText_append hstarts _⟩
  · calc after ++ following.flatten
        = after ++ (following.takeWhile isLayoutRun ++ following.dropWhile isLayoutRun).flatten := by
          rw [List.takeWhile_append_dropWhile]
      _ = after ++ (following.takeWhile isLayoutRun).flatten ++ (token ++ rest.flatten) := by
          rw [hdrop, List.flatten_append, List.flatten_cons, List.append_assoc]
  · have hrun {run : Text} (hlayout : isLayoutRun run) : ∀ c ∈ run, isLayout c :=
      List.all_eq_true.1 (Bool.and_eq_true_iff.1 hlayout).2
    intro c hc
    rcases List.mem_append.1 hc with hc | hc
    · rcases hafter with hnil | hlayout
      · rw [List.isEmpty_iff.1 hnil] at hc
        cases hc
      · exact hrun hlayout c hc
    · obtain ⟨blank, hblank, hc⟩ := List.mem_flatten.1 hc
      exact hrun (List.mem_takeWhile_imp hblank) c hc

/-- The pieces of tokens that make up an ordinary text are these tokens. -/
theorem Cursor.pieces_of_isOrdinary {tokens : List Token} (hordinary : IsOrdinary tokens.flatten)
    (line : Int) : pieces ⟨tokens, line⟩ = tokens.map .literal := by
  induction tokens generalizing line with
  | nil => exact pieces_of_step?_eq_none rfl
  | cons token following ih =>
      obtain ⟨next, hstep⟩ : ∃ next,
          step? ⟨token :: following, line⟩ = some ([.literal token], ⟨following, next⟩) := by
        cases hcut : cut? commentOpen token with
        | none => exact ⟨line + lineBreaks token, by simp only [step?, hcut]⟩
        | some sides =>
            obtain ⟨before, after⟩ := sides
            have hopens : ¬ Directive.opensAt (commentOpen ++ after) following := by
              intro hopens
              obtain ⟨gap, rest, htext, hgap, hstarts⟩ := Directive.exists_of_opensAt hopens
              refine hordinary before gap rest ?_ hgap hstarts
              simp only [List.flatten_cons, eq_of_cut? hcut, List.append_assoc, htext]
            exact ⟨line + lineBreaks (commentOpen ++ after), by simp [step?, hcut, hopens]⟩
      rw [pieces_of_step?_eq_some hstep, ih hordinary.of_append]
      rfl

/-- The pieces of an ordinary source. -/
theorem Piece.ofSource_of_isOrdinary {source : Text} (hordinary : source.IsOrdinary) :
    ofSource source = (Token.split source).map .literal :=
  Cursor.pieces_of_isOrdinary (by rwa [Token.flatten_split]) 1

end KitTemplate
