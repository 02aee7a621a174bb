/-
Texts as bytes and back.

The bytes of a character are read as that character and no more, whatever follows them.  So
the bytes of a text are well formed and spell the text.
-/

import RegisterCompiler.Text.Utf8

set_option autoImplicit false

namespace RegisterCompiler
namespace Text

/-! ### Bytes as numbers -/

theorem toNat_toUInt8 {value : Nat} (hByte : value < 256) : value.toUInt8.toNat = value := by
  rw [Nat.toUInt8, UInt8.toNat_ofNat', Nat.mod_eq_of_lt hByte]

private theorem lt_toUInt8 {value : Nat} (hByte : value < 256) (bound : UInt8) :
    value.toUInt8 < bound ↔ value < bound.toNat := by
  rw [UInt8.lt_iff_toNat_lt, toNat_toUInt8 hByte]

private theorem between_toUInt8 {value : Nat} (hByte : value < 256) (low high : UInt8) :
    (low ≤ value.toUInt8 && value.toUInt8 ≤ high) =
      decide (low.toNat ≤ value ∧ value ≤ high.toNat) := by
  simp only [UInt8.le_iff_toNat_le, toNat_toUInt8 hByte, Bool.decide_and]

private theorem isContinuation_tail {bits : Nat} (hBits : bits < 64) :
    isContinuation (0x80 + bits).toUInt8 = true := by
  rw [isContinuation, between_toUInt8 (by omega), decide_eq_true_iff]
  simp only [UInt8.reduceToNat]
  omega

private theorem payload_tail {bits : Nat} (hBits : bits < 64) :
    payload (0x80 + bits).toUInt8 = bits := by
  rw [payload, toNat_toUInt8 (by omega)]
  omega

/-! ### One character -/

theorem wellFormedHead_one {code : Nat} (hCode : code < 0x80) (rest : Bytes) :
    wellFormedHead (code.toUInt8 :: rest) = some (Char.ofNat code, 1) := by
  have hByte : code < 256 := by omega
  have hOne : code.toUInt8 < 0x80 := (lt_toUInt8 hByte _).mpr hCode
  simp only [wellFormedHead, hOne, if_true, toNat_toUInt8 hByte]

private theorem wellFormedHead_two {lead tail : Nat} (hLow : 2 ≤ lead) (hHigh : lead < 32)
    (hTail : tail < 64) (rest : Bytes) :
    wellFormedHead ((0xC0 + lead).toUInt8 :: (0x80 + tail).toUInt8 :: rest) =
      some (Char.ofNat (lead * 64 + tail), 2) := by
  have hByte : 0xC0 + lead < 256 := by omega
  rw [wellFormedHead]
  simp only [lt_toUInt8 hByte, between_toUInt8 hByte, UInt8.reduceToNat, decide_eq_true_eq,
    isContinuation_tail hTail, payload_tail hTail, toNat_toUInt8 hByte, if_true]
  rw [if_neg (by omega), if_pos (by omega), show (0xC0 + lead) % 32 = lead by omega]

private theorem wellFormedHead_three {lead second third : Nat} (hLead : lead < 16)
    (hSecond : second < 64) (hThird : third < 64) (hLong : 0x800 ≤ lead * 4096 + second * 64)
    (hPlain : lead = 13 → second < 32) (rest : Bytes) :
    wellFormedHead ((0xE0 + lead).toUInt8 :: (0x80 + second).toUInt8 :: (0x80 + third).toUInt8 ::
        rest) = some (Char.ofNat (lead * 4096 + second * 64 + third), 3) := by
  have hByte : 0xE0 + lead < 256 := by omega
  have hSeconds : isSecondOfThree (0xE0 + lead).toUInt8 (0x80 + second).toUInt8 = true := by
    simp only [isSecondOfThree, isContinuation_tail hSecond, Bool.true_and, Bool.and_eq_true,
      Bool.or_eq_true, bne_iff_ne, decide_eq_true_eq, UInt8.le_iff_toNat_le, ne_eq,
      ← UInt8.toNat_inj, toNat_toUInt8 hByte, toNat_toUInt8 (by omega : 0x80 + second < 256),
      UInt8.reduceToNat]
    omega
  rw [wellFormedHead]
  simp only [lt_toUInt8 hByte, between_toUInt8 hByte, UInt8.reduceToNat, decide_eq_true_eq,
    hSeconds, isContinuation_tail hThird, Bool.and_self, payload_tail hSecond, payload_tail hThird,
    toNat_toUInt8 hByte, if_true]
  rw [if_neg (by omega), if_neg (by omega), if_pos (by omega),
    show (0xE0 + lead) % 16 = lead by omega]

private theorem wellFormedHead_four {lead second third fourth : Nat} (hLead : lead < 5)
    (hSecond : second < 64) (hThird : third < 64) (hFourth : fourth < 64)
    (hLong : 0x10000 ≤ lead * 262144 + second * 4096) (hLast : lead = 4 → second < 16)
    (rest : Bytes) :
    wellFormedHead ((0xF0 + lead).toUInt8 :: (0x80 + second).toUInt8 :: (0x80 + third).toUInt8 ::
        (0x80 + fourth).toUInt8 :: rest) =
      some (Char.ofNat (lead * 262144 + second * 4096 + third * 64 + fourth), 4) := by
  have hByte : 0xF0 + lead < 256 := by omega
  have hSeconds : isSecondOfFour (0xF0 + lead).toUInt8 (0x80 + second).toUInt8 = true := by
    simp only [isSecondOfFour, isContinuation_tail hSecond, Bool.true_and, Bool.and_eq_true,
      Bool.or_eq_true, bne_iff_ne, decide_eq_true_eq, UInt8.le_iff_toNat_le, ne_eq,
      ← UInt8.toNat_inj, toNat_toUInt8 hByte, toNat_toUInt8 (by omega : 0x80 + second < 256),
      UInt8.reduceToNat]
    omega
  rw [wellFormedHead]
  simp only [lt_toUInt8 hByte, between_toUInt8 hByte, UInt8.reduceToNat, decide_eq_true_eq,
    hSeconds, isContinuation_tail hThird, isContinuation_tail hFourth, Bool.and_self,
    payload_tail hSecond, payload_tail hThird, payload_tail hFourth, toNat_toUInt8 hByte, if_true]
  rw [if_neg (by omega), if_neg (by omega), if_neg (by omega), if_pos (by omega),
    show (0xF0 + lead) % 8 = lead by omega]

private theorem wellFormedHead_encodeChar (char : Char) (rest : Bytes) :
    wellFormedHead (encodeChar char ++ rest) = some (char, (encodeChar char).length) := by
  have hValid : char.toNat < 0xD800 ∨ 0xDFFF < char.toNat ∧ char.toNat < 0x110000 := char.valid
  have hChar : some (Char.ofNat char.toNat, (encodeChar char).length) =
      some (char, (encodeChar char).length) := by rw [Char.ofNat_toNat]
  rw [← hChar]
  unfold encodeChar
  dsimp only
  generalize char.toNat = code at hValid
  split
  · exact wellFormedHead_one ‹_› rest
  split
  · refine (wellFormedHead_two (by omega) (by omega) (by omega) rest).trans ?_
    rw [show code / 64 * 64 + code % 64 = code by omega]
    rfl
  split
  · refine (wellFormedHead_three (by omega) (by omega) (by omega) (by omega) (by omega)
      rest).trans ?_
    rw [show code / 4096 * 4096 + code / 64 % 64 * 64 + code % 64 = code by omega]
    rfl
  · refine (wellFormedHead_four (by omega) (by omega) (by omega) (by omega) (by omega)
      (by omega) rest).trans ?_
    rw [show code / 262144 * 262144 + code / 4096 % 64 * 4096 + code / 64 % 64 * 64 +
      code % 64 = code by omega]
    rfl

/-- The replacement character takes three bytes, so its bytes are not taken for a stray byte. -/
theorem length_encodeChar (char : Char) :
    0 < (encodeChar char).length ∧ (char = replacement → (encodeChar char).length ≠ 1) := by
  refine ⟨wellFormedHead_width_pos (wellFormedHead_encodeChar char []), ?_⟩
  rintro rfl
  decide

/-! ### Texts -/

theorem glyphsAfter_append (front rest : Bytes) :
    glyphsAfter front.length (front ++ rest) = glyphs rest := by
  induction front with
  | nil => rfl
  | cons byte front inductionHypothesis => exact inductionHypothesis

private theorem glyphs_encodeChar (char : Char) (rest : Bytes) :
    glyphs (encodeChar char ++ rest) = ⟨char, encodeChar char⟩ :: glyphs rest := by
  have hFirst : firstChar (encodeChar char ++ rest) = (char, (encodeChar char).length) := by
    rw [firstChar, wellFormedHead_encodeChar]
    rfl
  have hSome := (length_encodeChar char).1
  cases hBytes : encodeChar char with
  | nil =>
      rw [hBytes] at hSome
      exact absurd hSome (Nat.lt_irrefl 0)
  | cons lead tail =>
      rw [hBytes] at hFirst
      rw [glyphs, List.cons_append, glyphsAfter, ← List.cons_append, hFirst]
      simp only [List.length_cons, Nat.add_sub_cancel, glyphsAfter_append, List.cons_append,
        List.take_succ_cons, List.take_left']

private theorem glyphs_encode (text : String) :
    glyphs (encode text) = text.toList.map fun char => ⟨char, encodeChar char⟩ := by
  unfold encode
  induction text.toList with
  | nil => rfl
  | cons char chars inductionHypothesis =>
      rw [List.flatMap_cons, glyphs_encodeChar, inductionHypothesis, List.map_cons]

@[simp]
theorem decodeLossy_encode (text : String) : decodeLossy (encode text) = text := by
  rw [decodeLossy, glyphs_encode, List.map_map]
  simp [Function.comp_def]

@[simp]
theorem isWellFormed_encode (text : String) : isWellFormed (encode text) = true := by
  rw [isWellFormed, glyphs_encode, List.all_eq_true]
  intro glyph hGlyph
  obtain ⟨char, -, rfl⟩ := List.mem_map.mp hGlyph
  rw [Bool.or_eq_true, bne_iff_ne, bne_iff_ne]
  by_cases hChar : char = replacement
  · exact .inr ((length_encodeChar char).2 hChar)
  · exact .inl hChar

end Text
end RegisterCompiler
