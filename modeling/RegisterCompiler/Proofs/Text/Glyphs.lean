/-
The characters of a part of a text.

A text that is cut between two of its characters has, in either part, the same characters
as before: what a byte sequence spells does not depend on what follows it.  A character of
one byte is spelled by that byte alone, and no other character has such a byte in it.
-/

import Mathlib.Data.List.Basic
import RegisterCompiler.Proofs.Text.Utf8

set_option autoImplicit false

namespace RegisterCompiler
namespace Text

/-! ### Well-formed sequences -/

inductive Spelling : Bytes → Char → Prop where
  | one {lead : UInt8} (hLead : lead < 0x80) : Spelling [lead] (Char.ofNat lead.toNat)
  | two {lead second : UInt8} (hLow : 0xC2 ≤ lead) (hHigh : lead ≤ 0xDF)
      (hSecond : isContinuation second = true) :
      Spelling [lead, second] (Char.ofNat (lead.toNat % 32 * 64 + payload second))
  | three {lead second third : UInt8} (hLow : 0xE0 ≤ lead) (hHigh : lead ≤ 0xEF)
      (hSecond : isSecondOfThree lead second = true) (hThird : isContinuation third = true) :
      Spelling [lead, second, third]
        (Char.ofNat (lead.toNat % 16 * 4096 + payload second * 64 + payload third))
  | four {lead second third fourth : UInt8} (hLow : 0xF0 ≤ lead) (hHigh : lead ≤ 0xF4)
      (hSecond : isSecondOfFour lead second = true) (hThird : isContinuation third = true)
      (hFourth : isContinuation fourth = true) :
      Spelling [lead, second, third, fourth]
        (Char.ofNat (lead.toNat % 8 * 262144 + payload second * 4096 + payload third * 64 +
          payload fourth))

private theorem exists_spelling_of_wellFormedHead {bytes : Bytes} {char : Char} {width : Nat}
    (hHead : wellFormedHead bytes = some (char, width)) :
    ∃ front rest, bytes = front ++ rest ∧ Spelling front char ∧ width = front.length := by
  cases bytes with
  | nil => cases hHead
  | cons lead rest =>
      simp only [wellFormedHead] at hHead
      split at hHead
      · rename_i hLead
        cases hHead
        exact ⟨[lead], rest, rfl, .one hLead, rfl⟩
      split at hHead
      · rename_i hLead
        rw [Bool.and_eq_true, decide_eq_true_eq, decide_eq_true_eq] at hLead
        split at hHead
        · split at hHead
          · rename_i hSecond
            cases hHead
            exact ⟨[lead, _], _, rfl, .two hLead.1 hLead.2 hSecond, rfl⟩
          · cases hHead
        · cases hHead
      split at hHead
      · rename_i hLead
        rw [Bool.and_eq_true, decide_eq_true_eq, decide_eq_true_eq] at hLead
        split at hHead
        · split at hHead
          · rename_i hTail
            rw [Bool.and_eq_true] at hTail
            cases hHead
            exact ⟨[lead, _, _], _, rfl, .three hLead.1 hLead.2 hTail.1 hTail.2, rfl⟩
          · cases hHead
        · cases hHead
      split at hHead
      · rename_i hLead
        rw [Bool.and_eq_true, decide_eq_true_eq, decide_eq_true_eq] at hLead
        split at hHead
        · split at hHead
          · rename_i hTail
            rw [Bool.and_eq_true, Bool.and_eq_true] at hTail
            cases hHead
            exact ⟨[lead, _, _, _], _, rfl,
              .four hLead.1 hLead.2 hTail.1.1 hTail.1.2 hTail.2, rfl⟩
          · cases hHead
        · cases hHead
      · cases hHead

private theorem wellFormedHead_of_spelling {front : Bytes} {char : Char}
    (hFront : Spelling front char) (rest : Bytes) :
    wellFormedHead (front ++ rest) = some (char, front.length) := by
  cases hFront with
  | one hLead => simp only [List.cons_append, wellFormedHead, hLead, if_true]; rfl
  | two hLow hHigh hSecond =>
      have hOne : ¬ _ < (0x80 : UInt8) := UInt8.not_lt.mpr (UInt8.le_trans (by decide) hLow)
      simp only [List.cons_append, wellFormedHead, if_neg hOne, hLow, hHigh, decide_true,
        Bool.and_self, if_true, hSecond]
      rfl
  | three hLow hHigh hSecond hThird =>
      have hOne : ¬ _ < (0x80 : UInt8) := UInt8.not_lt.mpr (UInt8.le_trans (by decide) hLow)
      have hTwo : ¬ _ ≤ (0xDF : UInt8) :=
        UInt8.not_le.mpr (UInt8.lt_of_lt_of_le (by decide) hLow)
      simp only [List.cons_append, wellFormedHead, if_neg hOne, hTwo, decide_false,
        Bool.and_false, Bool.false_eq_true, if_false, hLow, hHigh, decide_true, Bool.and_self,
        if_true, hSecond, hThird]
      rfl
  | four hLow hHigh hSecond hThird hFourth =>
      have hOne : ¬ _ < (0x80 : UInt8) := UInt8.not_lt.mpr (UInt8.le_trans (by decide) hLow)
      have hTwo : ¬ _ ≤ (0xDF : UInt8) :=
        UInt8.not_le.mpr (UInt8.lt_of_lt_of_le (by decide) hLow)
      have hThree : ¬ _ ≤ (0xEF : UInt8) :=
        UInt8.not_le.mpr (UInt8.lt_of_lt_of_le (by decide) hLow)
      simp only [List.cons_append, wellFormedHead, if_neg hOne, hTwo, hThree, decide_false,
        Bool.and_false, Bool.false_eq_true, if_false, hLow, hHigh, decide_true, Bool.and_self,
        if_true, hSecond, hThird, hFourth]
      rfl

/-- What stands first in a text does not depend on what stands behind it. -/
theorem firstChar_of_append {front rest : Bytes} (hFront : front ≠ [])
    (hWidth : (firstChar (front ++ rest)).2 ≤ front.length) :
    firstChar (front ++ rest) = firstChar front := by
  unfold firstChar at hWidth ⊢
  cases hWhole : wellFormedHead (front ++ rest) with
  | some found =>
      obtain ⟨char, width⟩ := found
      rw [hWhole] at hWidth
      obtain ⟨sequence, later, hBytes, hSpelling, rfl⟩ := exists_spelling_of_wellFormedHead hWhole
      obtain ⟨tail, rfl⟩ : sequence <+: front :=
        List.prefix_of_prefix_length_le ⟨later, hBytes.symm⟩ (List.prefix_append _ _) hWidth
      rw [wellFormedHead_of_spelling hSpelling]
  | none =>
      cases hPart : wellFormedHead front with
      | none => rfl
      | some found =>
          obtain ⟨char, width⟩ := found
          obtain ⟨sequence, later, rfl, hSpelling, rfl⟩ := exists_spelling_of_wellFormedHead hPart
          rw [List.append_assoc, wellFormedHead_of_spelling hSpelling] at hWhole
          cases hWhole

private theorem firstChar_width_le {bytes : Bytes} (hBytes : bytes ≠ []) :
    (firstChar bytes).2 ≤ bytes.length := by
  unfold firstChar
  cases hHead : wellFormedHead bytes with
  | none => exact List.length_pos_of_ne_nil hBytes
  | some found =>
      obtain ⟨char, width⟩ := found
      obtain ⟨front, rest, rfl, -, rfl⟩ := exists_spelling_of_wellFormedHead hHead
      simp

/-! ### Cutting a text -/

theorem glyphsAfter_eq (skip : Nat) (bytes : Bytes) :
    glyphsAfter skip bytes = glyphs (bytes.drop skip) := by
  induction bytes generalizing skip with
  | nil => cases skip <;> rfl
  | cons byte rest inductionHypothesis =>
      cases skip with
      | zero => rfl
      | succ skip => exact inductionHypothesis skip

private theorem glyphs_eq_cons {bytes : Bytes} (hBytes : bytes ≠ []) :
    glyphs bytes = ⟨(firstChar bytes).1, bytes.take (firstChar bytes).2⟩ ::
      glyphs (bytes.drop (firstChar bytes).2) := by
  cases bytes with
  | nil => exact absurd rfl hBytes
  | cons byte rest =>
      obtain ⟨width, hWidth⟩ : ∃ width, (firstChar (byte :: rest)).2 = width + 1 :=
        Nat.exists_eq_add_of_lt (firstChar_width_pos (byte :: rest)) |>.imp fun width hSame => by
          omega
      rw [glyphs, glyphsAfter]
      simp only [glyphsAfter_eq, hWidth, Nat.add_sub_cancel, List.drop_succ_cons]

variable {bytes : Bytes} {front back : List Glyph} {glyph : Glyph}

private theorem exists_rest_of_glyphs (hGlyphs : glyphs bytes = glyph :: back) :
    ∃ rest, bytes = glyph.bytes ++ rest ∧ glyphs rest = back ∧ glyph.bytes ≠ [] ∧
      firstChar bytes = (glyph.char, glyph.bytes.length) := by
  have hBytes : bytes ≠ [] := by
    rintro rfl
    cases hGlyphs
  rw [glyphs_eq_cons hBytes] at hGlyphs
  obtain ⟨rfl, hBack⟩ := List.cons.inj hGlyphs
  have hLength : (bytes.take (firstChar bytes).2).length = (firstChar bytes).2 :=
    List.length_take_of_le (firstChar_width_le hBytes)
  have hWidth := firstChar_width_pos bytes
  refine ⟨_, (List.take_append_drop _ _).symm, hBack, ?_, ?_⟩
  · intro (hNone : bytes.take (firstChar bytes).2 = [])
    rw [hNone, List.length_nil] at hLength
    omega
  · exact Prod.ext rfl hLength.symm

private theorem glyphs_of_append_right (hGlyphs : glyphs bytes = front ++ back) :
    glyphs (back.flatMap Glyph.bytes) = back := by
  induction front generalizing bytes with
  | nil => rw [List.nil_append] at hGlyphs; rw [← hGlyphs, flatMap_bytes_glyphs]
  | cons glyph front inductionHypothesis =>
      obtain ⟨rest, -, hRest, -⟩ := exists_rest_of_glyphs hGlyphs
      exact inductionHypothesis hRest

private theorem glyphs_of_append_left (hGlyphs : glyphs bytes = front ++ back) :
    glyphs (front.flatMap Glyph.bytes) = front := by
  induction front generalizing bytes with
  | nil => rfl
  | cons glyph front inductionHypothesis =>
      obtain ⟨rest, rfl, hRest, hSome, hFirst⟩ := exists_rest_of_glyphs hGlyphs
      have hBytes : rest = front.flatMap Glyph.bytes ++ back.flatMap Glyph.bytes := by
        rw [← List.flatMap_append, ← List.append_eq, ← hRest, flatMap_bytes_glyphs]
      have hNonempty : glyph.bytes ++ front.flatMap Glyph.bytes ≠ [] :=
        List.append_ne_nil_of_left_ne_nil hSome _
      have hSame : firstChar (glyph.bytes ++ front.flatMap Glyph.bytes) =
          (glyph.char, glyph.bytes.length) := by
        rw [hBytes, ← List.append_assoc] at hFirst
        rw [← firstChar_of_append hNonempty, hFirst]
        rw [hFirst, List.length_append]
        exact Nat.le_add_right _ _
      rw [List.flatMap_cons, glyphs_eq_cons hNonempty, hSame]
      simp only [List.take_left', List.drop_left', inductionHypothesis hRest]

theorem glyphs_of_append_middle {middle : List Glyph}
    (hGlyphs : glyphs bytes = front ++ (middle ++ back)) :
    glyphs (middle.flatMap Glyph.bytes) = middle :=
  glyphs_of_append_left (glyphs_of_append_right hGlyphs)

/-! ### Characters of one byte -/

theorem encodeChar_of_lt {char : Char} (hAscii : char.toNat < 128) :
    encodeChar char = [char.toNat.toUInt8] := by
  simp only [encodeChar, if_pos hAscii]

theorem encode_of_plain {text : String} (hPlain : ∀ char ∈ text.toList, char.toNat < 128) :
    encode text = text.toList.map fun char => char.toNat.toUInt8 := by
  rw [encode, ← List.flatMap_pure_eq_map]
  exact List.flatMap_congr fun char hChar => encodeChar_of_lt (hPlain char hChar)

/-- A character as it is read: spelled by a well-formed sequence, or standing for a byte that
belongs to none. -/
inductive Glyph.IsRead : Glyph → Prop where
  | spelled {sequence : Bytes} {char : Char} (hSequence : Spelling sequence char) :
      IsRead ⟨char, sequence⟩
  | stray {byte : UInt8} (hByte : 0x80 ≤ byte) : IsRead ⟨replacement, [byte]⟩

theorem isRead_of_mem {bytes : Bytes} {glyph : Glyph} (hGlyph : glyph ∈ glyphs bytes) :
    glyph.IsRead := by
  obtain ⟨front, back, hGlyphs⟩ := List.append_of_mem hGlyph
  obtain ⟨rest, hBytes, -, hSome, hFirst⟩ :=
    exists_rest_of_glyphs (glyphs_of_append_right hGlyphs)
  generalize (glyph :: back).flatMap Glyph.bytes = bytes at hBytes hFirst
  obtain ⟨char, sequence⟩ := glyph
  subst hBytes
  unfold firstChar at hFirst
  cases hHead : wellFormedHead (sequence ++ rest) with
  | some found =>
      rw [hHead] at hFirst
      cases hFirst
      obtain ⟨spelled, later, hBytes, hSpelling, hLength⟩ := exists_spelling_of_wellFormedHead hHead
      obtain ⟨rfl, -⟩ := List.append_inj hBytes hLength
      exact .spelled hSpelling
  | none =>
      rw [hHead] at hFirst
      obtain ⟨rfl, hLength⟩ := Prod.mk.inj hFirst
      obtain ⟨byte, rfl⟩ := List.length_eq_one_iff.mp hLength.symm
      refine .stray (UInt8.not_lt.mp fun hLow => ?_)
      rw [wellFormedHead_of_spelling (.one hLow)] at hHead
      cases hHead

private theorem toNat_ofNat {code : Nat} (hCode : code.isValidChar) :
    (Char.ofNat code).toNat = code := by
  rw [Char.ofNat, dif_pos hCode]
  rfl

private theorem isContinuation_ge {byte : UInt8} (hByte : isContinuation byte = true) :
    0x80 ≤ byte := by
  rw [isContinuation, Bool.and_eq_true, decide_eq_true_eq] at hByte
  exact hByte.1

/-- A sequence of more than one byte spells a character beyond those of one byte. -/
theorem Spelling.cases_on_ascii {sequence : Bytes} {char : Char}
    (hSequence : Spelling sequence char) :
    (char.toNat < 0x80 ∧ sequence = [char.toNat.toUInt8]) ∨
      (0x80 ≤ char.toNat ∧ ∀ byte ∈ sequence, 0x80 ≤ byte) := by
  cases hSequence with
  | one hLead =>
      rename_i lead
      rw [UInt8.lt_iff_toNat_lt] at hLead
      have hCode : (Char.ofNat lead.toNat).toNat = lead.toNat :=
        toNat_ofNat (.inl (Nat.lt_trans hLead (by decide)))
      rw [hCode]
      exact .inl ⟨hLead, by simp⟩
  | two hLow hHigh hSecond =>
      rename_i lead second
      right
      constructor
      · have hPayload : payload second < 64 := Nat.mod_lt _ (by decide)
        rw [UInt8.le_iff_toNat_le] at hLow hHigh
        simp only [UInt8.reduceToNat] at hLow hHigh
        rw [toNat_ofNat (.inl (by omega))]
        omega
      · intro byte hByte
        rcases List.mem_pair.mp hByte with rfl | rfl
        · exact UInt8.le_trans (by decide) hLow
        · exact isContinuation_ge hSecond
  | three hLow hHigh hSecond hThird =>
      rename_i lead second third
      simp only [isSecondOfThree, isContinuation, Bool.and_eq_true, Bool.or_eq_true,
        decide_eq_true_eq, bne_iff_ne, ne_eq, ← UInt8.toNat_inj, UInt8.le_iff_toNat_le,
        UInt8.reduceToNat] at hLow hHigh hSecond hThird
      right
      constructor
      · have hPayload : payload third < 64 := Nat.mod_lt _ (by decide)
        rw [toNat_ofNat (by unfold payload Nat.isValidChar; omega)]
        unfold payload
        omega
      · simp only [List.mem_cons, List.not_mem_nil, or_false, forall_eq_or_imp, forall_eq,
          UInt8.le_iff_toNat_le, UInt8.reduceToNat]
        omega
  | four hLow hHigh hSecond hThird hFourth =>
      rename_i lead second third fourth
      simp only [isSecondOfFour, isContinuation, Bool.and_eq_true, Bool.or_eq_true,
        decide_eq_true_eq, bne_iff_ne, ne_eq, ← UInt8.toNat_inj, UInt8.le_iff_toNat_le,
        UInt8.reduceToNat] at hLow hHigh hSecond hThird hFourth
      right
      constructor
      · rw [toNat_ofNat (by unfold payload Nat.isValidChar; omega)]
        unfold payload
        omega
      · simp only [List.mem_cons, List.not_mem_nil, or_false, forall_eq_or_imp, forall_eq,
          UInt8.le_iff_toNat_le, UInt8.reduceToNat]
        omega

namespace Glyph

private theorem IsRead.cases_on_ascii {glyph : Glyph} (hRead : glyph.IsRead) :
    (glyph.char.toNat < 0x80 ∧ glyph.bytes = [glyph.char.toNat.toUInt8]) ∨
      (0x80 ≤ glyph.char.toNat ∧ ∀ byte ∈ glyph.bytes, 0x80 ≤ byte) := by
  cases hRead with
  | spelled hSequence => exact hSequence.cases_on_ascii
  | stray hByte =>
      exact .inr ⟨(by decide : 0x80 ≤ replacement.toNat), List.forall_mem_singleton.mpr hByte⟩

theorem IsRead.bytes_ne_nil {glyph : Glyph} (hRead : glyph.IsRead) : glyph.bytes ≠ [] := by
  cases hRead with
  | spelled hSequence =>
      cases hSequence <;> exact List.cons_ne_nil _ _
  | stray => exact List.cons_ne_nil _ _

theorem IsRead.bytes_eq {glyph : Glyph} (hRead : glyph.IsRead) (hChar : glyph.char.toNat < 0x80) :
    glyph.bytes = encodeChar glyph.char := by
  rcases hRead.cases_on_ascii with ⟨-, hBytes⟩ | ⟨hHigh, -⟩
  · rw [hBytes, encodeChar, if_pos hChar]
  · exact absurd hChar (Nat.not_lt.mpr hHigh)

/-- A byte below 128 stands in the spelling of no other character. -/
theorem IsRead.eq_of_mem {glyph : Glyph} (hRead : glyph.IsRead) {byte : UInt8}
    (hByte : byte ∈ glyph.bytes) (hLow : byte < 0x80) : glyph.bytes = [byte] ∧
      glyph.char.toNat = byte.toNat := by
  rcases hRead.cases_on_ascii with ⟨hChar, hBytes⟩ | ⟨-, hHigh⟩
  · rw [hBytes] at hByte ⊢
    obtain rfl := List.mem_singleton.mp hByte
    exact ⟨rfl, (toNat_toUInt8 (Nat.lt_trans hChar (by decide))).symm⟩
  · exact absurd hLow (UInt8.not_lt.mpr (hHigh byte hByte))

end Glyph

end Text
end RegisterCompiler
