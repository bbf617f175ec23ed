import Mathlib
import KitTemplate.Charset

/-! The characters that a set holds. Reading yields characters of the set and no others, and text
that has no others can be written. So whatever is put together from text that was read in a set can
be written in that set. -/

namespace KitTemplate

namespace Charset

/-- Whether a set holds a character. -/
def Holds (charset : Charset) (c : Char) : Prop := c.toNat < charset.size

theorem holds_of_decodeSingle {charset : Charset} {bytes : List UInt8} {text : Text}
    (hdecode : charset.decodeSingle bytes = .ok text) : ∀ c ∈ text, charset.Holds c := by
  rw [decodeSingle] at hdecode
  split at hdecode
  · rename_i hrest
    obtain rfl := Except.ok.inj hdecode
    intro c hc
    obtain ⟨byte, hbyte, rfl⟩ := List.mem_map.1 hc
    have hheld := List.dropWhile_eq_nil_iff.1 hrest byte hbyte
    have hvalid : byte.toNat.isValidChar := Or.inl (byte.toNat_lt.trans (by decide))
    rw [Holds, Char.toNat_ofNat, if_pos hvalid]
    exact of_decide_eq_true hheld
  · cases hdecode

/-- What is read in a set holds its characters and no others. -/
theorem holds_of_decode {charset : Charset} {bytes : List UInt8} {text : Text}
    (hdecode : charset.decode bytes = .ok text) : ∀ c ∈ text, charset.Holds c := by
  cases charset with
  | utf8 | utf8Marked => exact fun c _ => Nat.lt_succ_of_le c.toNat_le_max
  | ascii | latin1 => exact holds_of_decodeSingle hdecode

theorem exists_encodeSingle {charset : Charset} {text : Text}
    (htext : ∀ c ∈ text, charset.Holds c) : ∃ bytes, charset.encodeSingle text = .ok bytes := by
  have hrest : text.dropWhile (fun c => c.toNat < charset.size) = [] :=
    List.dropWhile_eq_nil_iff.2 fun c hc => decide_eq_true (htext c hc)
  rw [encodeSingle, hrest]
  exact ⟨_, rfl⟩

/-- Text of characters that a set holds can be written in it. -/
theorem exists_encode {charset : Charset} {text : Text} (htext : ∀ c ∈ text, charset.Holds c) :
    ∃ bytes, charset.encode text = .ok bytes := by
  cases charset with
  | utf8 | utf8Marked => exact ⟨_, rfl⟩
  | ascii | latin1 => exact exists_encodeSingle htext

end Charset

end KitTemplate
