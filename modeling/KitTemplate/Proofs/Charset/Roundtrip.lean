import KitTemplate.Proofs.Charset.Repertoire

/-! Reading and writing back. Decoding accepts a byte sequence only if encoding gives it back, so
text that was read in a character set is written in the same set as the bytes that it was read
from. UTF-8 keeps a byte-order mark as a character; only the marked form does not say whether there
was one. The other way round, text that was written is read back in every set: the first byte of a
character tells how many there are, and the marked form drops the one mark that it has put there. -/

namespace KitTemplate.Charset

theorem encodeChar_of_decodeChar? {lead : UInt8} {tail : List UInt8} {c : Char}
    (hdecode : decodeChar? lead tail = some c) : encodeChar c = lead :: tail := by
  obtain ⟨hencode, hchar⟩ := Option.ite_none_right_eq_some.1 hdecode
  rwa [← Option.some.inj hchar]

/-- A character that was read in front of some text is written in front of it. -/
theorem encodeUtf8_cons {c : Char} {bytes rest : List UInt8} {text : Text}
    (hchar : encodeChar c = bytes) (htext : encodeUtf8 text = rest) :
    encodeUtf8 (c :: text) = bytes ++ rest := by
  rw [encodeUtf8, List.flatMap_cons, hchar]
  exact congrArg (bytes ++ ·) htext

/-- What is read in front of some text is a character, if anything is read at all. -/
theorem exists_of_decode_cons {c : Char} {outcome : Except Undecodable Text} {text : Text}
    (hdecode : (do return c :: (← outcome)) = Except.ok text) :
    ∃ rest, outcome = .ok rest ∧ text = c :: rest := by
  cases outcome with
  | error problem => cases hdecode
  | ok rest => exact ⟨rest, rfl, (Except.ok.inj hdecode).symm⟩

theorem encodeUtf8_of_decodeUtf8 {position : Nat} {bytes : List UInt8} {text : Text}
    (hdecode : decodeUtf8 position bytes = .ok text) : encodeUtf8 text = bytes := by
  fun_induction decodeUtf8 position bytes generalizing text with
  | case1 =>
      obtain rfl := Except.ok.inj hdecode
      rfl
  | case2 | case4 | case7 | case10 =>
      -- a sequence of one to four bytes that stands for a character
      rename_i c hchar ih
      obtain ⟨rest, hrest, rfl⟩ := exists_of_decode_cons hdecode
      exact encodeUtf8_cons (encodeChar_of_decodeChar? hchar) (ih hrest)
  | _ => nomatch hdecode

theorem encodeSingle_of_decodeSingle {charset : Charset} {bytes : List UInt8} {text : Text}
    (hdecode : charset.decodeSingle bytes = .ok text) : charset.encodeSingle text = .ok bytes := by
  have hheld : text.dropWhile (fun c => c.toNat < charset.size) = [] :=
    List.dropWhile_eq_nil_iff.2 fun c hc =>
      decide_eq_true (holds_of_decodeSingle hdecode c hc)
  have hbyte (byte : UInt8) : UInt8.ofNat (Char.ofNat byte.toNat).toNat = byte := by
    have hvalid : byte.toNat.isValidChar := Or.inl (byte.toNat_lt.trans (by decide))
    rw [Char.toNat_ofNat, if_pos hvalid, UInt8.ofNat_toNat]
  rw [decodeSingle] at hdecode
  split at hdecode
  · obtain rfl := Except.ok.inj hdecode
    rw [encodeSingle, hheld]
    simp [List.map_map, Function.comp_def, hbyte]
  · cases hdecode

/-- Text that was read is written as the bytes that it was read from. -/
theorem encode_of_decode {charset : Charset} (hcharset : charset ≠ utf8Marked)
    {bytes : List UInt8} {text : Text} (hdecode : charset.decode bytes = .ok text) :
    charset.encode text = .ok bytes := by
  cases charset with
  | utf8 => exact congrArg Except.ok (encodeUtf8_of_decodeUtf8 hdecode)
  | utf8Marked => exact absurd rfl hcharset
  | ascii | latin1 => exact encodeSingle_of_decodeSingle hdecode

/-! ### Reading what was written -/

/-- How many bytes a character takes is told by the first of them. -/
theorem cases_of_encodeChar (c : Char) :
    (∃ lead, encodeChar c = [lead] ∧ lead < 0x80) ∨
    (∃ lead b, encodeChar c = [lead, b] ∧ ¬ lead < 0x80 ∧ lead < 0xE0) ∨
    (∃ lead b d, encodeChar c = [lead, b, d] ∧ ¬ lead < 0x80 ∧ ¬ lead < 0xE0 ∧ lead < 0xF0) ∨
    ∃ lead b d e, encodeChar c = [lead, b, d, e] ∧
      ¬ lead < 0x80 ∧ ¬ lead < 0xE0 ∧ ¬ lead < 0xF0 := by
  have hmax : c.toNat < 0x110000 := Nat.lt_succ_of_le c.toNat_le_max
  simp only [UInt8.lt_iff_toNat_lt]
  by_cases hone : c.toNat < 0x80
  · refine Or.inl ⟨_, if_pos hone, ?_⟩
    simp
    omega
  by_cases htwo : c.toNat < 0x800
  · refine Or.inr (Or.inl ⟨_, _, (if_neg hone).trans (if_pos htwo), ?_⟩)
    simp
    omega
  by_cases hthree : c.toNat < 0x10000
  · refine Or.inr (Or.inr (Or.inl
      ⟨_, _, _, (if_neg hone).trans ((if_neg htwo).trans (if_pos hthree)), ?_⟩))
    simp
    omega
  · refine Or.inr (Or.inr (Or.inr
      ⟨_, _, _, _, (if_neg hone).trans ((if_neg htwo).trans (if_neg hthree)), ?_⟩))
    simp
    omega

theorem decodeChar?_encodeChar {c : Char} {lead : UInt8} {tail : List UInt8}
    (hencode : encodeChar c = lead :: tail) : decodeChar? lead tail = some c := by
  have hmax : c.toNat < 0x110000 := Nat.lt_succ_of_le c.toNat_le_max
  have hcode : tail.foldl (fun code byte => code * 64 + byte.toNat % 64)
      (lead.toNat % Nat.pow 2 (if tail = [] then 7 else 6 - tail.length)) = c.toNat := by
    simp only [encodeChar] at hencode
    split at hencode
    · obtain ⟨rfl, rfl⟩ := List.cons.inj hencode
      simp
      omega
    split at hencode
    · obtain ⟨rfl, rfl⟩ := List.cons.inj hencode
      simp
      omega
    split at hencode
    · obtain ⟨rfl, rfl⟩ := List.cons.inj hencode
      simp
      omega
    · obtain ⟨rfl, rfl⟩ := List.cons.inj hencode
      simp
      omega
  simp only [decodeChar?, hcode, Char.ofNat_toNat, hencode, if_true]

/-- A text is read back from its bytes. -/
theorem decodeUtf8_encodeUtf8 (position : Nat) (text : Text) :
    decodeUtf8 position (encodeUtf8 text) = .ok text := by
  induction text generalizing position with
  | nil => rfl
  | cons c rest ih =>
      rcases cases_of_encodeChar c with ⟨lead, hencode, hlead⟩ |
        ⟨lead, b, hencode, hone, hlead⟩ | ⟨lead, b, d, hencode, hone, htwo, hlead⟩ |
        ⟨lead, b, d, e, hencode, hone, htwo, hthree⟩
      · rw [encodeUtf8_cons hencode rfl, List.singleton_append]
        unfold decodeUtf8
        simp only [if_pos hlead, decodeChar?_encodeChar hencode, ih]
        rfl
      · rw [encodeUtf8_cons hencode rfl]
        simp only [List.cons_append, List.nil_append, decodeUtf8, if_neg hone, if_pos hlead,
          decodeChar?_encodeChar hencode, ih]
        rfl
      · rw [encodeUtf8_cons hencode rfl]
        simp only [List.cons_append, List.nil_append, decodeUtf8, if_neg hone, if_neg htwo,
          if_pos hlead, decodeChar?_encodeChar hencode, ih]
        rfl
      · rw [encodeUtf8_cons hencode rfl]
        simp only [List.cons_append, List.nil_append, decodeUtf8, if_neg hone, if_neg htwo,
          if_neg hthree, decodeChar?_encodeChar hencode, ih]
        rfl

theorem decodeSingle_of_encodeSingle {charset : Charset} (hsize : charset.size ≤ 256)
    {text : Text} {bytes : List UInt8}
    (hencode : charset.encodeSingle text = .ok bytes) : charset.decodeSingle bytes = .ok text := by
  rw [encodeSingle] at hencode
  split at hencode
  · rename_i hheld
    obtain rfl := Except.ok.inj hencode
    have hbyte : ∀ c ∈ text, c.toNat < charset.size ∧ (UInt8.ofNat c.toNat).toNat = c.toNat := by
      intro c hc
      have hlt : c.toNat < charset.size :=
        of_decide_eq_true (List.dropWhile_eq_nil_iff.1 hheld c hc)
      exact ⟨hlt, UInt8.toNat_ofNat_of_lt' (hlt.trans_le hsize)⟩
    have hall : (text.map fun c => UInt8.ofNat c.toNat).dropWhile
        (fun byte => byte.toNat < charset.size) = [] := by
      rw [List.dropWhile_eq_nil_iff]
      intro byte hmem
      obtain ⟨c, hc, rfl⟩ := List.mem_map.1 hmem
      rw [(hbyte c hc).2]
      exact decide_eq_true (hbyte c hc).1
    have htext : (text.map fun c => UInt8.ofNat c.toNat).map (fun byte => Char.ofNat byte.toNat) =
        text := by
      rw [List.map_map]
      refine (List.map_congr_left fun c hc => ?_).trans (List.map_id text)
      rw [Function.comp_apply, (hbyte c hc).2, Char.ofNat_toNat, id]
    rw [decodeSingle, hall]
    exact congrArg Except.ok htext
  · cases hencode

/-- Text that was written is read back from the bytes that it was written as. -/
theorem decode_of_encode {charset : Charset} {text : Text} {bytes : List UInt8}
    (hencode : charset.encode text = .ok bytes) : charset.decode bytes = .ok text := by
  cases charset with
  | utf8 =>
      obtain rfl := Except.ok.inj hencode
      exact decodeUtf8_encodeUtf8 0 text
  | utf8Marked =>
      obtain rfl := Except.ok.inj hencode
      have hmark : mark.isPrefixOf? (mark ++ encodeUtf8 text) = some (encodeUtf8 text) := rfl
      rw [decode, decodeMarked, hmark]
      exact decodeUtf8_encodeUtf8 0 text
  | ascii => exact decodeSingle_of_encodeSingle (by decide) hencode
  | latin1 => exact decodeSingle_of_encodeSingle (by decide) hencode

end KitTemplate.Charset
