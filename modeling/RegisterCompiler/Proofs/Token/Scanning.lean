/-
The tokens of a text.

Every token but the end of input takes at least one character, so that the tokens of a
text always run up to the end of input and hold it once, as the last one.
-/

import RegisterCompiler.Token.Lexer

set_option autoImplicit false

namespace RegisterCompiler

open Source (Position)
open Text (Bytes Glyph)

namespace Cursor

def left (cursor : Cursor) : Nat :=
  cursor.rest.length

private theorem left_advance_lt {cursor : Cursor} (hStart : cursor.char ≠ Char.ofNat 0) :
    cursor.advance.left < cursor.left := by
  obtain ⟨rest, position⟩ := cursor
  cases rest with
  | nil => exact absurd rfl hStart
  | cons glyph rest => exact Nat.lt_succ_self _

private theorem left_advance_le (cursor : Cursor) : cursor.advance.left ≤ cursor.left := by
  obtain ⟨rest, position⟩ := cursor
  cases rest with
  | nil => exact Nat.le_refl _
  | cons glyph rest => exact Nat.le_succ _

private theorem left_takeWhileFrom_le (property : Char → Bool) (rest : List Glyph)
    (position : Position) :
    (takeWhileFrom property rest position).2.left ≤ rest.length := by
  induction rest generalizing position with
  | nil => exact Nat.le_refl _
  | cons glyph rest inductionHypothesis =>
      simp only [takeWhileFrom]
      split
      · exact Nat.le_succ_of_le (inductionHypothesis _)
      · exact Nat.le_refl _

private theorem left_takeWhile_lt {cursor : Cursor} {property : Char → Bool}
    (hStart : cursor.char ≠ Char.ofNat 0) (hProperty : property cursor.char = true) :
    (cursor.takeWhile property).2.left < cursor.left := by
  obtain ⟨rest, position⟩ := cursor
  cases rest with
  | nil => exact absurd rfl hStart
  | cons glyph rest =>
      simp only [char] at hProperty
      simp only [takeWhile, takeWhileFrom, hProperty, if_true]
      exact Nat.lt_succ_of_le (left_takeWhileFrom_le _ _ _)

end Cursor

/-- Blanks and comments are skipped forwards; a comment without an end was entered. -/
theorem left_skipTriviaFrom (rest : List Glyph) (position : Position) (comment : Option Position) :
    match skipTriviaFrom rest position comment with
    | .ok cursor => cursor.left ≤ rest.length
    | .error (_, cursor) => cursor.left ≤ rest.length ∧ (comment = none → cursor.left < rest.length) := by
  fun_induction skipTriviaFrom rest position comment with
  | case1 position => exact Nat.le_refl _
  | case2 position start => exact ⟨Nat.le_refl _, nofun⟩
  | case3 glyph rest position hBlank inductionHypothesis =>
      split at inductionHypothesis
      · exact Nat.le_succ_of_le inductionHypothesis
      · exact ⟨Nat.le_succ_of_le inductionHypothesis.1, fun hNone =>
          Nat.lt_succ_of_lt (inductionHypothesis.2 hNone)⟩
  | case4 glyph rest position hBlank hOpen inductionHypothesis =>
      split at inductionHypothesis
      · exact Nat.le_succ_of_le inductionHypothesis
      · exact ⟨Nat.le_succ_of_le inductionHypothesis.1, fun _ =>
          Nat.lt_succ_of_le inductionHypothesis.1⟩
  | case5 glyph rest position hBlank hOpen => exact Nat.le_refl _
  | case6 glyph rest position start hClose inductionHypothesis =>
      split at inductionHypothesis
      · exact Nat.le_succ_of_le inductionHypothesis
      · exact ⟨Nat.le_succ_of_le inductionHypothesis.1, nofun⟩
  | case7 glyph rest position start hOpen hEnd => exact ⟨Nat.le_refl _, nofun⟩
  | case8 glyph rest position start hOpen hEnd inductionHypothesis =>
      split at inductionHypothesis
      · exact Nat.le_succ_of_le inductionHypothesis
      · exact ⟨Nat.le_succ_of_le inductionHypothesis.1, nofun⟩

namespace Token

private theorem left_readAt_lt {cursor : Cursor} (hKind : (readAt cursor).1.kind ≠ .endOfInput) :
    (readAt cursor).2.left < cursor.left := by
  by_cases hStart : cursor.char = Char.ofNat 0
  · simp only [readAt, if_pos hStart] at hKind
    exact absurd rfl hKind
  · have hOne := Cursor.left_advance_lt hStart
    have hTwo := Nat.lt_of_le_of_lt cursor.advance.left_advance_le hOne
    simp only [readAt, if_neg hStart]
    split
    · exact hOne
    · split
      · split
        · exact hTwo
        · exact hOne
      · split
        · split
          · exact hTwo
          · split
            · exact hTwo
            · exact hOne
        · split
          · split
            · exact hTwo
            · exact hOne
          · split
            · rename_i hDigit
              exact Cursor.left_takeWhile_lt hStart hDigit
            · split
              · rename_i hLetter
                exact Cursor.left_takeWhile_lt hStart hLetter
              · split
                · rename_i hUpper
                  split <;> exact Cursor.left_takeWhile_lt hStart hUpper
                · exact hOne

theorem left_next_lt {cursor : Cursor} (hKind : (next cursor).1.kind ≠ .endOfInput) :
    (next cursor).2.left < cursor.left := by
  have hSkip := left_skipTriviaFrom cursor.rest cursor.position none
  unfold next at hKind ⊢
  cases hStart : skipTriviaFrom cursor.rest cursor.position none with
  | ok start =>
      rw [hStart] at hSkip hKind
      exact Nat.lt_of_lt_of_le (left_readAt_lt hKind) hSkip
  | error stopped =>
      rw [hStart] at hSkip
      exact hSkip.2 rfl

/-- Tokens up to the end of input, which comes last and only there. -/
def Ended (tokens : List Token) : Prop :=
  ∃ front last, tokens = front ++ [last] ∧ last.kind = .endOfInput ∧
    ∀ token ∈ front, token.kind ≠ .endOfInput

private theorem ended_scanFrom {fuel : Nat} {cursor : Cursor} (hFuel : cursor.left < fuel) :
    Ended (scanFrom fuel cursor) := by
  induction fuel generalizing cursor with
  | zero => exact absurd hFuel (Nat.not_lt_zero _)
  | succ fuel inductionHypothesis =>
      simp only [scanFrom]
      split
      · rename_i hEnd
        exact ⟨[], _, rfl, hEnd, List.forall_mem_nil _⟩
      · rename_i hKind
        obtain ⟨front, last, hTokens, hEnd, hFront⟩ :=
          inductionHypothesis (Nat.lt_of_lt_of_le (left_next_lt hKind) (Nat.le_of_lt_succ hFuel))
        exact ⟨(next cursor).1 :: front, last, by rw [hTokens, List.cons_append], hEnd,
          List.forall_mem_cons.mpr ⟨hKind, hFront⟩⟩

theorem ended_scan (text : Bytes) : Ended (scan text) :=
  ended_scanFrom (Nat.lt_succ_self _)

end Token

end RegisterCompiler
