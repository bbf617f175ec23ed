import Mathlib.Algebra.GroupWithZero.Nat
import Mathlib.Data.List.Forall2
import KitTemplate.Proofs.Source.Position

/-! Counting line terminators piece by piece. The count of a text is the sum of the counts of its
pieces as long as none of the cuts separates a carriage return from its line feed. No cut between
tokens does, and no cut directly before the opening of a comment or directly behind the end of one,
since a line feed does not begin the one and a carriage return does not end the other. -/

namespace KitTemplate

open Text

/-- Pieces of a text that is cut directly before comments open and directly behind comments end,
and nowhere else. -/
structure IsCutAtMarks (text : Text) (pieces : List Text) : Prop where
  flatten : pieces.flatten = text
  marks : ∀ count < pieces.length, 0 < count →
    commentOpen <+: (pieces.drop count).flatten ∨ commentClose <:+ (pieces.take count).flatten

instance (text : Text) (pieces : List Text) : Decidable (IsCutAtMarks text pieces) :=
  decidable_of_iff (pieces.flatten = text ∧ ∀ count < pieces.length, 0 < count →
      commentOpen <+: (pieces.drop count).flatten ∨ commentClose <:+ (pieces.take count).flatten)
    ⟨fun ⟨hflatten, hmarks⟩ => ⟨hflatten, hmarks⟩, fun hcut => ⟨hcut.flatten, hcut.marks⟩⟩

/-- The counts of pieces add up if no pair is cut between any of them. -/
theorem Text.lineBreaks_flatten {pieces : List Text}
    (huncut : ∀ count, ¬ CutsPair (pieces.take count).flatten (pieces.drop count).flatten) :
    lineBreaks pieces.flatten = (pieces.map lineBreaks).sum := by
  induction pieces with
  | nil => rfl
  | cons piece rest ih =>
      have hpiece : ¬ CutsPair piece rest.flatten := by simpa using huncut 1
      have hrest : lineBreaks rest.flatten = (rest.map lineBreaks).sum := by
        refine ih fun count hpair => huncut (count + 1) ?_
        have hne : (rest.take count).flatten ≠ [] := by
          intro hnil
          rw [hnil] at hpair
          cases hpair.1
        rwa [List.take_succ_cons, List.flatten_cons, Token.cutsPair_append_left hne]
      rw [List.flatten_cons, lineBreaks_append hpiece, hrest, List.map_cons, List.sum_cons]

theorem IsCutAtMarks.lineBreaks_eq {text : Text} {pieces : List Text}
    (hpieces : IsCutAtMarks text pieces) : lineBreaks text = (pieces.map lineBreaks).sum := by
  rw [← hpieces.flatten]
  refine lineBreaks_flatten fun count hpair => ?_
  have hpos : 0 < count := by
    rw [Nat.pos_iff_ne_zero]
    rintro rfl
    cases hpair.1
  have hlt : count < pieces.length := by
    by_contra hle
    rw [List.drop_eq_nil_of_le (Nat.not_lt.1 hle)] at hpair
    cases hpair.2
  rcases hpieces.marks count hlt hpos with ⟨after, hafter⟩ | ⟨read, hread⟩
  · rw [← hafter] at hpair
    exact Cursor.not_cutsPair_commentOpen _ _ hpair
  · rw [← hread] at hpair
    exact Cursor.not_cutsPair_commentClose _ _ hpair

/-- Tokens that follow each other cut no pair. -/
theorem Token.IsRun.lineBreaks_flatten {tokens : List Token} (hrun : Token.IsRun tokens) :
    lineBreaks tokens.flatten = (tokens.map lineBreaks).sum := by
  induction tokens with
  | nil => rfl
  | cons token rest ih =>
      rw [List.flatten_cons, lineBreaks_append hrun.not_cutsPair, ih hrun.tail, List.map_cons,
        List.sum_cons]

/-- The three counts of substrings come to the number of line terminators met from left to right,
and the counts of the tokens of a source add up to it, also where the tokens are cut further at the
marks of comments. -/
theorem lineBreaks_add_up (source : Text) :
    lineBreaks source = scanLineBreaks source ∧
    ((Token.split source).map lineBreaks).sum = lineBreaks source ∧
    ∀ cuts, List.Forall₂ IsCutAtMarks (Token.split source) cuts →
      (cuts.flatten.map lineBreaks).sum = lineBreaks source := by
  have htokens : lineBreaks source = ((Token.split source).map lineBreaks).sum := by
    rw [← (Token.isRun_split source).lineBreaks_flatten, Token.flatten_split]
  refine ⟨lineBreaks_eq_scanLineBreaks source, htokens.symm, fun cuts hcuts => ?_⟩
  rw [htokens]
  generalize Token.split source = tokens at hcuts
  induction hcuts with
  | nil => rfl
  | cons htoken _ ih =>
      rw [List.flatten_cons, List.map_append, List.sum_append, ← htoken.lineBreaks_eq, ih,
        List.map_cons, List.sum_cons]

/-- Cuts in front of a comment, between two comments and behind one, among carriage returns with
and without line feeds. -/
theorem lineBreaks_add_up_comments :
    let source := "\r\r\na<!--x--><!--\r-->\r\n".toList
    let cuts := [["\r"], ["\r\n"], ["a", "<!--x-->"], ["<!--\r"], ["-->", "\r\n"]].map
      (List.map String.toList)
    List.Forall₂ IsCutAtMarks (Token.split source) cuts ∧
      (cuts.flatten.map lineBreaks).sum = lineBreaks source := by
  intro source cuts
  have hcuts : List.Forall₂ IsCutAtMarks (Token.split source) cuts := by
    refine .cons ?_ (.cons ?_ (.cons ?_ (.cons ?_ (.cons ?_ .nil)))) <;> decide
  exact ⟨hcuts, (lineBreaks_add_up source).2.2 cuts hcuts⟩

end KitTemplate
