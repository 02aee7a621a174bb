/-
The pieces of a list between separators.

A list has one piece more than separators.  Cutting it at a separator cuts its pieces there, and
the piece around any other place runs from the last separator before it to the next one.
-/

import Mathlib.Data.List.DropRight
import RegisterCompiler.Text.Blank

set_option autoImplicit false

namespace RegisterCompiler
namespace Text

variable {α : Type} (isSeparator : α → Bool)

private theorem exists_splitAt_cons (items : List α) :
    ∃ later, splitAt isSeparator items = items.takeWhile (!isSeparator ·) :: later := by
  induction items with
  | nil => exact ⟨[], rfl⟩
  | cons item rest inductionHypothesis =>
      obtain ⟨later, hRest⟩ := inductionHypothesis
      cases hItem : isSeparator item with
      | true => exact ⟨_, by simp only [splitAt, hItem, if_true, List.takeWhile_cons]; rfl⟩
      | false => exact ⟨later, by simp [splitAt, hItem, hRest]⟩

private theorem length_splitAt (items : List α) :
    (splitAt isSeparator items).length = items.countP isSeparator + 1 := by
  induction items with
  | nil => rfl
  | cons item rest inductionHypothesis =>
      obtain ⟨later, hRest⟩ := exists_splitAt_cons isSeparator rest
      rw [hRest] at inductionHypothesis
      cases hItem : isSeparator item with
      | true => simpa [splitAt, hItem, hRest] using inductionHypothesis
      | false => simpa [splitAt, hItem, hRest] using inductionHypothesis

theorem splitAt_append_separator (front : List α) {separator : α}
    (hSeparator : isSeparator separator = true) (back : List α) :
    splitAt isSeparator (front ++ separator :: back) =
      splitAt isSeparator front ++ splitAt isSeparator back := by
  induction front with
  | nil => simp [splitAt, hSeparator]
  | cons item rest inductionHypothesis =>
      obtain ⟨later, hRest⟩ := exists_splitAt_cons isSeparator rest
      rw [hRest] at inductionHypothesis
      cases hItem : isSeparator item with
      | true => simp [splitAt, hItem, hRest, inductionHypothesis]
      | false => simp [splitAt, hItem, hRest, inductionHypothesis]

theorem splitAt_of_none {items : List α} (hNone : ∀ item ∈ items, isSeparator item = false) :
    splitAt isSeparator items = [items] := by
  induction items with
  | nil => rfl
  | cons item rest inductionHypothesis =>
      obtain ⟨hItem, hRest⟩ := List.forall_mem_cons.mp hNone
      simp [splitAt, hItem, inductionHypothesis hRest]

theorem splitAt_piece (passed ahead : List α) :
    (splitAt isSeparator (passed ++ ahead))[passed.countP isSeparator]? =
      some (passed.rtakeWhile (!isSeparator ·) ++ ahead.takeWhile (!isSeparator ·)) := by
  induction passed using List.reverseRecOn generalizing ahead with
  | nil =>
      obtain ⟨later, hAhead⟩ := exists_splitAt_cons isSeparator ahead
      simp [hAhead]
  | append_singleton passed item inductionHypothesis =>
      rw [List.append_assoc, List.singleton_append, List.countP_append, List.countP_singleton,
        List.rtakeWhile_concat]
      cases hItem : isSeparator item with
      | true =>
          obtain ⟨later, hAhead⟩ := exists_splitAt_cons isSeparator ahead
          rw [splitAt_append_separator isSeparator passed hItem, hAhead, if_pos rfl,
            List.getElem?_append_right (length_splitAt isSeparator passed).le, length_splitAt]
          simp
      | false =>
          rw [if_neg Bool.false_ne_true, Nat.add_zero, inductionHypothesis,
            List.takeWhile_cons_of_pos (by rw [hItem]; rfl)]
          simp

end Text
end RegisterCompiler
