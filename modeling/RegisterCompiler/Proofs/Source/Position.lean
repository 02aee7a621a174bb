/-
Places and offsets.

The place behind the first characters of a text is the one its offset gives: the line is
found by counting newline bytes, the column by counting the characters of the last line.
-/

import Mathlib.Data.List.DropRight
import RegisterCompiler.Proofs.Text.Glyphs
import RegisterCompiler.Source.Position

set_option autoImplicit false

namespace RegisterCompiler
namespace Source

open Text (Bytes Glyph glyphs)

def newline : UInt8 := 10

def placeAt (text : Bytes) (offset : Nat) : Position :=
  let passed := text.take offset
  ⟨offset, 1 + passed.count newline, 1 + (glyphs (passed.rtakeWhile (· != newline))).length⟩

namespace Position

def pass (position : Position) (passed : List Glyph) : Position :=
  passed.foldl after position

@[simp]
theorem pass_nil (position : Position) : position.pass [] = position :=
  rfl

@[simp]
theorem pass_cons (position : Position) (glyph : Glyph) (passed : List Glyph) :
    position.pass (glyph :: passed) = (position.after glyph).pass passed :=
  rfl

theorem pass_append (position : Position) (front back : List Glyph) :
    position.pass (front ++ back) = (position.pass front).pass back :=
  List.foldl_append

private theorem offset_after (position : Position) (glyph : Glyph) :
    (position.after glyph).offset = position.offset + glyph.bytes.length := by
  unfold after
  split <;> rfl

theorem offset_pass (position : Position) (passed : List Glyph) :
    (position.pass passed).offset = position.offset + (passed.flatMap Glyph.bytes).length := by
  induction passed generalizing position with
  | nil => rfl
  | cons glyph passed inductionHypothesis =>
      rw [pass_cons, inductionHypothesis, offset_after, List.flatMap_cons, List.length_append,
        Nat.add_assoc]

theorem offset_le_pass (position : Position) (passed : List Glyph) :
    position.offset ≤ (position.pass passed).offset := by
  rw [offset_pass]
  exact Nat.le_add_right _ _

theorem offset_lt_pass (position : Position) {passed : List Glyph} (hSome : passed ≠ [])
    (hRead : ∀ glyph ∈ passed, glyph.IsRead) : position.offset < (position.pass passed).offset := by
  cases passed with
  | nil => exact absurd rfl hSome
  | cons glyph passed =>
      have hGlyph := List.length_pos_of_ne_nil (hRead glyph List.mem_cons_self).bytes_ne_nil
      rw [offset_pass, List.flatMap_cons, List.length_append]
      omega

theorem pass_eq_shift (position : Position) {passed : List Glyph}
    (hPassed : ∀ glyph ∈ passed, glyph.char ≠ '\n' ∧ glyph.bytes.length = 1) :
    position.pass passed = position.shift passed.length := by
  induction passed generalizing position with
  | nil => rfl
  | cons glyph passed inductionHypothesis =>
      obtain ⟨hGlyph, hLater⟩ := List.forall_mem_cons.mp hPassed
      rw [pass_cons, inductionHypothesis _ hLater, after, if_neg hGlyph.1, hGlyph.2]
      simp only [shift, List.length_cons, mk.injEq, true_and]
      omega

/-! ### Lines and columns -/

theorem newline_mem_iff {glyph : Glyph} (hRead : glyph.IsRead) :
    newline ∈ glyph.bytes ↔ glyph.char = '\n' := by
  constructor
  · intro hByte
    have hChar : glyph.char.toNat = '\n'.toNat := (hRead.eq_of_mem hByte (by decide)).2
    exact Char.toNat_inj.mp hChar
  · intro hChar
    rw [hRead.bytes_eq (by rw [hChar]; decide), hChar]
    decide

private theorem bytes_eq_of_newline {glyph : Glyph} (hRead : glyph.IsRead)
    (hChar : glyph.char = '\n') :
    glyph.bytes = [newline] :=
  (hRead.eq_of_mem ((newline_mem_iff hRead).mpr hChar) (by decide)).1

theorem rtakeWhile_append_of_all {α : Type} {property : α → Bool} (front : List α) {back : List α}
    (hBack : ∀ item ∈ back, property item = true) :
    (front ++ back).rtakeWhile property = front.rtakeWhile property ++ back := by
  rw [List.rtakeWhile, List.reverse_append, List.takeWhile_append_of_pos, List.reverse_append,
    List.reverse_reverse]
  · rfl
  · exact fun item hItem => hBack item (List.mem_reverse.mp hItem)

private theorem rtakeWhile_flatMap {passed : List Glyph} (hRead : ∀ glyph ∈ passed, glyph.IsRead) :
    (passed.flatMap Glyph.bytes).rtakeWhile (· != newline) =
      (passed.rtakeWhile (·.char != '\n')).flatMap Glyph.bytes := by
  induction passed using List.reverseRecOn with
  | nil => rfl
  | append_singleton passed glyph inductionHypothesis =>
      obtain ⟨hPassed, hGlyph⟩ := List.forall_mem_append.mp hRead
      have hLast := List.forall_mem_singleton.mp hGlyph
      rw [List.flatMap_append, List.flatMap_singleton, List.rtakeWhile_concat]
      by_cases hChar : glyph.char = '\n'
      · rw [bytes_eq_of_newline hLast hChar, List.rtakeWhile_concat]
        simp [hChar]
      · have hBytes : ∀ byte ∈ glyph.bytes, (byte != newline) = true := by
          intro byte hByte
          rw [bne_iff_ne]
          rintro rfl
          exact hChar ((newline_mem_iff hLast).mp hByte)
        rw [rtakeWhile_append_of_all _ hBytes, inductionHypothesis hPassed]
        simp [hChar]

private theorem count_flatMap {passed : List Glyph} (hRead : ∀ glyph ∈ passed, glyph.IsRead) :
    (passed.flatMap Glyph.bytes).count newline = passed.countP (·.char == '\n') := by
  induction passed with
  | nil => rfl
  | cons glyph passed inductionHypothesis =>
      obtain ⟨hGlyph, hPassed⟩ := List.forall_mem_cons.mp hRead
      rw [List.flatMap_cons, List.count_append, inductionHypothesis hPassed, List.countP_cons]
      by_cases hChar : glyph.char = '\n'
      · rw [bytes_eq_of_newline hGlyph hChar]
        simp [hChar, Nat.add_comm]
      · have hNone : glyph.bytes.count newline = 0 :=
          List.count_eq_zero.mpr fun hByte => hChar ((newline_mem_iff hGlyph).mp hByte)
        simp [hChar, hNone]

theorem start_pass_eq (passed : List Glyph) :
    start.pass passed = ⟨(passed.flatMap Glyph.bytes).length, 1 + passed.countP (·.char == '\n'),
      1 + (passed.rtakeWhile (·.char != '\n')).length⟩ := by
  induction passed using List.reverseRecOn with
  | nil => rfl
  | append_singleton passed glyph inductionHypothesis =>
      rw [pass_append, inductionHypothesis, pass_cons, pass_nil, after, List.flatMap_append,
        List.flatMap_singleton, List.length_append, List.countP_append, List.rtakeWhile_concat]
      by_cases hChar : glyph.char = '\n'
      · simp [hChar, Nat.add_assoc]
      · simp [hChar, Nat.add_assoc]

theorem split_at_pass {text : Bytes} {front back : List Glyph}
    (hGlyphs : glyphs text = front ++ back) :
    text.take (start.pass front).offset = front.flatMap Glyph.bytes ∧
      text.drop (start.pass front).offset = back.flatMap Glyph.bytes := by
  have hOffset : (start.pass front).offset = (front.flatMap Glyph.bytes).length := by
    rw [offset_pass]
    exact Nat.zero_add _
  rw [hOffset, ← Text.flatMap_bytes_glyphs text, hGlyphs, List.flatMap_append]
  exact ⟨List.take_left' rfl, List.drop_left' rfl⟩

/-- Behind its first characters a text is at the place that their offset gives. -/
theorem start_pass_eq_placeAt {text : Bytes} {front back : List Glyph}
    (hGlyphs : glyphs text = front ++ back) :
    start.pass front = placeAt text (front.flatMap Glyph.bytes).length := by
  have hRead : ∀ glyph ∈ front, glyph.IsRead := fun glyph hGlyph =>
    Text.isRead_of_mem (hGlyphs ▸ List.mem_append_left back hGlyph)
  have hTake : text.take (front.flatMap Glyph.bytes).length = front.flatMap Glyph.bytes := by
    have hCut := (split_at_pass hGlyphs).1
    rwa [start_pass_eq] at hCut
  obtain ⟨lines, hLines⟩ : front.rtakeWhile (·.char != '\n') <:+ front :=
    List.rtakeWhile_suffix _ _
  have hLast : glyphs ((front.rtakeWhile (·.char != '\n')).flatMap Glyph.bytes) =
      front.rtakeWhile (·.char != '\n') := by
    rw [← hLines, List.append_assoc] at hGlyphs
    exact Text.glyphs_of_append_middle hGlyphs
  rw [start_pass_eq, placeAt]
  simp only [hTake, count_flatMap hRead, rtakeWhile_flatMap hRead, hLast]

end Position
end Source
end RegisterCompiler
