import Mathlib.Data.List.Basic
import KitTemplate.Proofs.Source.Keyword
import KitTemplate.Proofs.Source.Position

/-! The characters of pieces. What a piece copies into a page, and the value that it gives to a
variable, stand in the source that the piece is from, so no character comes into a page that no
source has. -/

namespace KitTemplate

theorem Directive.value_subset {opening : Token} {following remaining : List Token} {line : Int}
    {directive : Directive}
    (hread : read opening following line = .ok (directive, remaining)) :
    directive.value.getD [] ⊆ directive.comment := by
  simp only [read] at hread
  split at hread
  · cases hread
  rename_i closed hclose
  split at hread
  · cases hread
  rename_i keyword value hbody
  obtain ⟨rfl, rfl⟩ := Prod.mk.inj (Except.ok.inj hread)
  cases value with
  | none => exact List.nil_subset _
  | some value =>
      intro c hc
      have hopened := (List.drop_sublist _ _).subset ((Keyword.value_isInfix hbody).subset hc)
      exact List.mem_append_left _ hopened

theorem Directive.suffix_subset (directive : Directive) :
    directive.suffix ⊆ directive.trailing := by
  rw [suffix]
  split
  · exact List.nil_subset _
  · exact List.Subset.refl _

/-- What a piece copies into a page, or the value that it has. -/
def Piece.content : Piece → Text
  | literal text => text
  | directive found => found.value.getD []
  | broken _ _ => []

theorem Cursor.content_subset_of_step? {source read : Text} {cursor next : Cursor}
    {pieces : List Piece} (hat : IsAt source read cursor)
    (hstep : cursor.step? = some (pieces, next)) {piece : Piece} (hpiece : piece ∈ pieces) :
    piece.content ⊆ source := by
  obtain ⟨tokens, line⟩ := cursor
  cases tokens with
  | nil => cases hstep
  | cons token following =>
      have htoken : token ⊆ source := by
        rw [hat.text]
        exact List.subset_append_of_subset_right _ (List.subset_append_left _ _)
      have hbefore {before after : Text}
          (hcut : Text.cut? commentOpen token = some (before, after)) : before ⊆ source := by
        refine List.Subset.trans ?_ htoken
        rw [Text.eq_of_cut? hcut, List.append_assoc]
        exact List.subset_append_left _ _
      have hdirective {before after : Text} {directive : Directive} {remaining : List Token}
          (hcut : Text.cut? commentOpen token = some (before, after))
          (hread : Directive.read (commentOpen ++ after) following line =
            .ok (directive, remaining)) :
          directive.value.getD [] ⊆ source ∧ directive.suffix ⊆ source := by
        have htext := hat.text_directive (Text.eq_of_cut? hcut) (Directive.isRead_of_read hread)
        refine ⟨fun c hc => ?_, fun c hc => ?_⟩
        · have hcomment := Directive.value_subset hread hc
          rw [htext]
          simp [hcomment]
        · have htrailing := directive.suffix_subset hc
          rw [htext]
          simp [htrailing]
      cases stepsTo_of_step? hstep with
      | copied | ordinary =>
          obtain rfl := List.mem_singleton.1 hpiece
          exact htoken
      | broken hcut =>
          rcases List.mem_pair.1 hpiece with rfl | rfl
          · exact hbefore hcut
          · exact List.nil_subset _
      | within hcut _ hread =>
          rcases List.mem_pair.1 hpiece with rfl | rfl
          · exact hbefore hcut
          · exact (hdirective hcut hread).1
      | behind hcut _ hread =>
          rcases List.mem_cons.1 hpiece with rfl | hpiece
          · exact hbefore hcut
          rcases List.mem_pair.1 hpiece with rfl | rfl
          · exact (hdirective hcut hread).1
          · exact (hdirective hcut hread).2

/-- What a piece brings into a page stands in its source. -/
theorem Piece.content_subset {source : Text} {piece : Piece} (hpiece : piece ∈ ofSource source) :
    piece.content ⊆ source := by
  obtain ⟨before, after, hpieces⟩ := List.append_of_mem hpiece
  have hstart : Cursor.Reads source [] ⟨Token.split source, 1⟩ := .start
  obtain ⟨passed, cursor, pieces, next, inner, rest, hreads, hstep, rfl, -⟩ :=
    hstart.exists_step hpieces
  exact Cursor.content_subset_of_step? (hreads.isAt_of_step? hstep) hstep
    (List.mem_append_right _ List.mem_cons_self)

end KitTemplate
