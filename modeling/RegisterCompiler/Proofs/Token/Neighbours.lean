/-
What adjoins a token.

Between tokens stand blanks and comments, which start and end with characters that are no
letters.  So a letter next to a name belongs to another token, and only keywords start and end
with letters without being names.
-/

import RegisterCompiler.Proofs.Token.Rows

set_option autoImplicit false

namespace RegisterCompiler

open Source (Position)
open Text (Glyph isDigit)

def isLetter (char : Char) : Bool :=
  isNameChar char || isUpper char

/-- A character next to which every word ends: it takes one byte and is no letter. -/
def Parts (char : Char) : Prop :=
  char.toNat < 0x80 ∧ isLetter char = false

instance (char : Char) : Decidable (Parts char) :=
  inferInstanceAs (Decidable (_ ∧ _))

private theorem Parts.imp_letter {char : Char} (hParts : Parts char) {consequence : Prop} :
    char.toNat < 0x80 ∧ (isLetter char = true → consequence) :=
  ⟨hParts.1, fun hLetter => absurd hLetter (Bool.eq_false_iff.mp hParts.2)⟩

private theorem isLetter_eq_false_of_digit {char : Char} (hDigit : isDigit char = true) :
    isLetter char = false := by
  rw [isLetter, Bool.or_eq_false_iff, ← Bool.not_eq_true, ← Bool.not_eq_true, isNameChar_iff,
    isUpper_iff]
  rw [isDigit_iff] at hDigit
  omega

private theorem parts_of_separator {char : Char} (hBlank : isSeparator char = true) :
    Parts char := by
  simp only [isSeparator, Bool.or_eq_true, beq_iff_eq] at hBlank
  rcases hBlank with ((rfl | rfl) | rfl) | rfl <;> decide

namespace Trivia

variable {gap : List Glyph}

private theorem parts_of_head? (hGap : Trivia gap) : ∀ glyph ∈ gap.head?, Parts glyph.char := by
  cases hGap with
  | nil => exact nofun
  | blank hBlank =>
      rintro _ ⟨⟩
      exact parts_of_separator hBlank
  | comment hOpening =>
      rintro _ ⟨⟩
      rw [hOpening]
      decide

private theorem parts_of_getLast? (hGap : Trivia gap) :
    ∀ glyph ∈ gap.getLast?, Parts glyph.char := by
  have hBehind : ∀ {first : Glyph} {rest : List Glyph}, Parts first.char →
      (∀ glyph ∈ rest.getLast?, Parts glyph.char) →
      ∀ glyph ∈ (first :: rest).getLast?, Parts glyph.char := by
    intro first rest hFirst hRest glyph hGlyph
    rw [List.getLast?_cons] at hGlyph
    cases hLast : rest.getLast? with
    | none =>
        rw [hLast] at hGlyph
        exact Option.some.inj hGlyph ▸ hFirst
    | some last =>
        rw [hLast] at hGlyph
        exact Option.some.inj hGlyph ▸ hRest last hLast
  induction hGap with
  | nil => exact nofun
  | blank hBlank _ inductionHypothesis =>
      exact hBehind (parts_of_separator hBlank) inductionHypothesis
  | comment _ _ hClosing _ inductionHypothesis =>
      have hBrace : Parts '\x7d' := by decide
      rw [← List.cons_append, List.getLast?_append_of_ne_nil _ (List.cons_ne_nil _ _)]
      exact hBehind (hClosing ▸ hBrace) inductionHypothesis

end Trivia

/-! ### Letters of tokens -/

namespace TokenKind

/-- Only names and keywords have letters. -/
theorem IsText.of_letter {kind : TokenKind} {literal : String} (hText : kind.IsText literal)
    (hEnd : kind ≠ .endOfInput) (hError : kind ≠ .error) {char : Char}
    (hChar : char ∈ literal.toList) (hLetter : isLetter char = true) :
    kind = .identifier ∨ kind ∈ keywords := by
  have hSign : (∀ other ∈ literal.toList, isLetter other = false) →
      kind = .identifier ∨ kind ∈ keywords :=
    fun hNone => absurd (hNone char hChar) (Bool.not_eq_false _ ▸ hLetter)
  cases kind with
  | endOfInput => exact absurd rfl hEnd
  | error => exact absurd rfl hError
  | number => exact hSign fun other hOther => isLetter_eq_false_of_digit (hText.2 other hOther)
  | identifier => exact .inl rfl
  | _ =>
      obtain rfl := hText
      first
        | exact .inr (by decide)
        | exact hSign (forall_mem_of_all (by decide))

theorem isLetter_of_mem_keywords {kind : TokenKind} (hKind : kind ∈ keywords) :
    ∀ char ∈ kind.name.toList, isLetter char = true := by
  cases kind
  all_goals first
    | exact absurd hKind (by decide)
    | exact forall_mem_of_all (by decide)

end TokenKind

namespace Token

variable {start : Position} {consumed rest : List Glyph} {tokens : List Token}

/-- A character of a token takes one byte, and a letter that does not belong to a name belongs to
a keyword. -/
theorem Covers.of_mem {token : Token} {covered : List Glyph} (hCovers : token.Covers covered rest)
    (hError : token.kind ≠ .error) {glyph : Glyph} (hGlyph : glyph ∈ covered) :
    glyph.char.toNat < 0x80 ∧
      (isLetter glyph.char = true → token.kind = .identifier ∨ token.kind ∈ TokenKind.keywords) := by
  cases hCovers with
  | fault _ hKind => exact absurd hKind hError
  | text hEnd _ hCovered hText =>
      have hChar : glyph.char ∈ token.literal.toList := hCovered ▸ List.mem_map_of_mem hGlyph
      exact ⟨(hText.plain.2 _ hChar).1, hText.of_letter hEnd hError hChar⟩

private theorem Covers.head?_of_identifier {token : Token} {covered : List Glyph}
    (hCovers : token.Covers covered rest) (hKind : token.kind = .identifier) :
    ∀ glyph ∈ rest.head?, isNameChar glyph.char = false := by
  cases hCovers with
  | fault _ hError => rw [hError] at hKind; cases hKind
  | text _ _ _ _ hRest =>
      rw [hKind] at hRest
      exact hRest

private theorem Covers.isNameChar_of_identifier {token : Token} {covered : List Glyph}
    (hCovers : token.Covers covered rest) (hKind : token.kind = .identifier) {glyph : Glyph}
    (hGlyph : glyph ∈ covered) : isNameChar glyph.char = true := by
  cases hCovers with
  | fault _ hError => rw [hError] at hKind; cases hKind
  | text _ _ hCovered hText =>
      rw [hKind] at hText
      exact hText.2 _ (hCovered ▸ List.mem_map_of_mem hGlyph)

/-- A row starts with a character of one byte, and a letter there is one of its first token. -/
theorem Row.letter_at_start (hRow : Row start consumed rest tokens) (hStops : Stops rest)
    (hErrors : ∀ token ∈ tokens, token.kind ≠ .error) {glyph : Glyph}
    (hGlyph : glyph ∈ (consumed ++ rest).head?) :
    glyph.char.toNat < 0x80 ∧ (isLetter glyph.char = true → ∃ token ∈ tokens,
      token.position = start ∧ (token.kind = .identifier ∧ isNameChar glyph.char = true ∨
        token.kind ∈ TokenKind.keywords)) := by
  cases hRow with
  | nil hGap =>
      rw [List.head?_append] at hGlyph
      cases hHead : consumed.head? with
      | some found =>
          rw [hHead] at hGlyph
          exact (hGap.parts_of_head? glyph (hHead.trans hGlyph)).imp_letter
      | none =>
          rw [hHead] at hGlyph
          have hNul : Parts (Char.ofNat 0) := by decide
          exact (show Parts glyph.char from hStops glyph hGlyph ▸ hNul).imp_letter
  | @cons _ gap covered later _ token tokens hGap hPosition hCovers _ =>
      rw [List.append_assoc, List.head?_append] at hGlyph
      cases hHead : gap.head? with
      | some found =>
          rw [hHead] at hGlyph
          exact (hGap.parts_of_head? glyph (hHead.trans hGlyph)).imp_letter
      | none =>
          obtain rfl := List.head?_eq_none_iff.mp hHead
          obtain ⟨first, behind, rfl⟩ := List.exists_cons_of_ne_nil hCovers.ne_nil
          obtain rfl := Option.some.inj hGlyph
          have hFirst : first ∈ first :: behind := List.mem_cons_self
          obtain ⟨hPlain, hKinds⟩ := hCovers.of_mem (hErrors token List.mem_cons_self) hFirst
          refine ⟨hPlain, fun hLetter => ⟨token, List.mem_cons_self, hPosition, ?_⟩⟩
          rcases hKinds hLetter with hName | hKeyword
          · exact .inl ⟨hName, hCovers.isNameChar_of_identifier hName hFirst⟩
          · exact .inr hKeyword

/-- A row ends with a character of one byte, and a letter there is one of its last token. -/
theorem Row.letter_at_end (hRow : Row start consumed rest tokens)
    (hRead : ∀ glyph ∈ consumed, glyph.IsRead) (hErrors : ∀ token ∈ tokens, token.kind ≠ .error)
    {glyph : Glyph} (hGlyph : glyph ∈ consumed.getLast?) :
    glyph.char.toNat < 0x80 ∧ (isLetter glyph.char = true → ∃ token ∈ tokens,
      token.stop = start.pass consumed ∧
        (token.kind = .identifier ∧ (∀ next ∈ rest.head?, isNameChar next.char = false) ∨
          token.kind ∈ TokenKind.keywords)) := by
  induction hRow with
  | nil hGap => exact (hGap.parts_of_getLast? glyph hGlyph).imp_letter
  | @cons start gap covered later rest token tokens hGap hPosition hCovers _ inductionHypothesis =>
      obtain ⟨hError, hOthers⟩ := List.forall_mem_cons.mp hErrors
      obtain ⟨-, hBehind⟩ := List.forall_mem_append.mp hRead
      obtain ⟨hCovered, hLater⟩ := List.forall_mem_append.mp hBehind
      rw [← List.append_assoc, List.getLast?_append] at hGlyph
      rw [← List.append_assoc, Position.pass_append]
      cases hEnd : later.getLast? with
      | some last =>
          rw [hEnd] at hGlyph
          obtain ⟨hPlain, hLast⟩ := inductionHypothesis hLater hOthers (hEnd.trans hGlyph)
          exact ⟨hPlain, fun hLetter => (hLast hLetter).imp fun _ => .imp_left
            (List.mem_cons_of_mem _)⟩
      | none =>
          -- The row ends with its first token.
          obtain rfl := List.getLast?_eq_none_iff.mp hEnd
          rw [hEnd, Option.none_or, List.getLast?_append_of_ne_nil _ hCovers.ne_nil] at hGlyph
          obtain ⟨hPlain, hKinds⟩ := hCovers.of_mem hError (List.mem_of_getLast? hGlyph)
          have hStop : token.stop = start.pass (gap ++ covered) := by
            rw [hCovers.stop_eq hError hCovered, hPosition, Position.pass_append]
          refine ⟨hPlain, fun hLetter => ⟨token, List.mem_cons_self, hStop, ?_⟩⟩
          exact (hKinds hLetter).imp_left fun hName => ⟨hName, hCovers.head?_of_identifier hName⟩

/-- A name of a row of tokens that spell something.  In front of it and behind it stand characters
of one byte, and a letter there is one of a keyword that adjoins the name. -/
theorem Row.exists_name (hRow : Row start consumed rest tokens)
    (hRead : ∀ glyph ∈ consumed, glyph.IsRead) (hStops : Stops rest)
    (hErrors : ∀ token ∈ tokens, token.kind ≠ .error) {token : Token} (hToken : token ∈ tokens)
    (hKind : token.kind = .identifier) : ∃ front covered later,
      consumed = front ++ (covered ++ later) ∧ token.position = start.pass front ∧
      token.Covers covered (later ++ rest) ∧
      (∀ glyph ∈ front.getLast?, glyph.char.toNat < 0x80 ∧ (isLetter glyph.char = true →
        ∃ keyword ∈ tokens, keyword.kind ∈ TokenKind.keywords ∧ keyword.stop = token.position)) ∧
      ∀ glyph ∈ (later ++ rest).head?, glyph.char.toNat < 0x80 ∧ (isLetter glyph.char = true →
        ∃ keyword ∈ tokens, keyword.kind ∈ TokenKind.keywords ∧ keyword.position = token.stop) := by
  obtain ⟨earlier, behind, rfl⟩ := List.append_of_mem hToken
  obtain ⟨before, after, rfl, hFront, hBehind, -⟩ := hRow.exists_split
  obtain ⟨hEarlier, hOthers⟩ := List.forall_mem_append.mp hErrors
  cases hBehind with
  | @cons _ gap covered later _ _ _ hGap hPosition hCovers hLater =>
      have hPlace : token.position = start.pass (before ++ gap) := by
        rw [hPosition, Position.pass_append]
      rw [← List.append_assoc] at hRead
      obtain ⟨hReadFront, hReadBehind⟩ := List.forall_mem_append.mp hRead
      rw [List.append_assoc] at hFront
      refine ⟨before ++ gap, covered, later, by simp, hPlace, hCovers, fun glyph hGlyph => ?_,
        fun glyph hGlyph => ?_⟩
      · obtain ⟨hPlain, hLast⟩ := (hFront.append_trivia hGap).letter_at_end hReadFront hEarlier
          hGlyph
        refine ⟨hPlain, fun hLetter => ?_⟩
        obtain ⟨last, hMem, hStop, ⟨-, hNext⟩ | hKeyword⟩ := hLast hLetter
        · obtain ⟨first, others, rfl⟩ := List.exists_cons_of_ne_nil hCovers.ne_nil
          have hFirst := hCovers.isNameChar_of_identifier hKind List.mem_cons_self
          exact absurd hFirst (Bool.eq_false_iff.mp (hNext first rfl))
        · exact ⟨last, List.mem_append_left _ hMem, hKeyword, hStop.trans hPlace.symm⟩
      · obtain ⟨hPlain, hFirst⟩ := hLater.letter_at_start hStops
          (fun other hOther => hOthers other (List.mem_cons_of_mem _ hOther)) hGlyph
        refine ⟨hPlain, fun hLetter => ?_⟩
        obtain ⟨next, hMem, hNext, ⟨-, hName⟩ | hKeyword⟩ := hFirst hLetter
        · have hBreaks := hCovers.head?_of_identifier hKind glyph hGlyph
          exact absurd hName (Bool.eq_false_iff.mp hBreaks)
        · refine ⟨next, List.mem_append_right _ (List.mem_cons_of_mem _ hMem), hKeyword, ?_⟩
          have hCovered := (List.forall_mem_append.mp hReadBehind).1
          rw [hNext, hCovers.stop_eq (hErrors token hToken) hCovered, hPosition,
            Position.pass_append]

end Token
end RegisterCompiler
