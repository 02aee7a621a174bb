/-
Texts as rows of tokens.

A text is made of tokens with blanks and closed comments between them, up to its end or to
the first NUL outside of these.  What a token covers is said character by character,
together with the character that must not follow it, so that every text can be split in
this way and the split gives the next token.
-/

import RegisterCompiler.Proofs.Source.Position
import RegisterCompiler.Token.Lexer

set_option autoImplicit false

namespace RegisterCompiler

open Source (Position)
open Text (Bytes Glyph glyphs isDigit)

/-! ### Between tokens -/

def CommentText (inner : List Glyph) : Prop :=
  ∀ glyph ∈ inner, glyph.char ≠ '\x7d' ∧ glyph.char ≠ Char.ofNat 0

/-- Blanks and closed comments. -/
inductive Trivia : List Glyph → Prop where
  | nil : Trivia []
  | blank {glyph : Glyph} {rest : List Glyph} (hBlank : isSeparator glyph.char = true)
      (hRest : Trivia rest) : Trivia (glyph :: rest)
  | comment {opening closing : Glyph} {inner rest : List Glyph} (hOpening : opening.char = '\x7b')
      (hInner : CommentText inner) (hClosing : closing.char = '\x7d') (hRest : Trivia rest) :
      Trivia (opening :: (inner ++ closing :: rest))

/-- The text ends here: at its last byte or at a NUL. -/
def Stops (rest : List Glyph) : Prop :=
  ∀ glyph ∈ rest.head?, glyph.char = Char.ofNat 0

/-- What follows does not start with a character that has a property. -/
def Breaks (property : Char → Bool) (rest : List Glyph) : Prop :=
  ∀ glyph ∈ rest.head?, property glyph.char = false

def startsTrivia (char : Char) : Bool :=
  isSeparator char || char == '\x7b'

/-! ### What tokens cover -/

namespace TokenKind

def IsText : TokenKind → String → Prop
  | number, literal => literal.toList ≠ [] ∧ ∀ char ∈ literal.toList, isDigit char = true
  | identifier, literal => literal.toList ≠ [] ∧ ∀ char ∈ literal.toList, isNameChar char = true
  | kind, literal => literal = kind.name

/-- The characters that would make a token of a kind longer. -/
def continues : TokenKind → Char → Bool
  | number, char => isDigit char
  | identifier, char => isNameChar char
  | less, char => char == '>' || char == '='
  | greater, char => char == '='
  | kind, char => keywords.contains kind && isUpper char

end TokenKind

def startsToken (char : Char) : Bool :=
  (singleKind? char).isSome || char == ':' || char == '<' || char == '>' || isDigit char ||
    isNameChar char || isUpper char

/-- The characters that spell no token, and what follows them. -/
def LexicalFault.Covers : LexicalFault → List Glyph → List Glyph → Prop
  | unterminatedComment, covered, rest => ∃ opening inner, covered = opening :: inner ∧
      opening.char = '\x7b' ∧ CommentText inner ∧ Stops rest
  | loneColon, covered, rest => covered.map Glyph.char = [':'] ∧ Breaks (· == '=') rest
  | strayCharacter char, covered, _ => covered.map Glyph.char = [char] ∧ char ≠ Char.ofNat 0 ∧
      startsTrivia char = false ∧ startsToken char = false
  | unknownKeyword word, covered, rest => covered.map Glyph.char = word.toList ∧
      word.toList ≠ [] ∧ (∀ char ∈ word.toList, isUpper char = true) ∧ Breaks isUpper rest ∧
      TokenKind.ofWord? word = none

namespace Token

/-- The characters a token covers when others follow.  It is as long as can be. -/
inductive Covers (token : Token) (covered rest : List Glyph) : Prop where
  | text (hEnd : token.kind ≠ .endOfInput) (hError : token.kind ≠ .error)
      (hCovered : covered.map Glyph.char = token.literal.toList)
      (hText : token.kind.IsText token.literal) (hRest : Breaks token.kind.continues rest)
  | fault (fault : LexicalFault) (hKind : token.kind = .error)
      (hLiteral : token.literal = fault.message) (hCovers : fault.Covers covered rest)

end Token

/-! ### Classes of characters -/

theorem isUpper_iff {char : Char} : isUpper char = true ↔ 65 ≤ char.toNat ∧ char.toNat ≤ 90 := by
  rw [isUpper, Bool.and_eq_true, decide_eq_true_eq, decide_eq_true_eq]
  rfl

theorem isDigit_iff {char : Char} : isDigit char = true ↔ 48 ≤ char.toNat ∧ char.toNat ≤ 57 := by
  rw [isDigit, Bool.and_eq_true, decide_eq_true_eq, decide_eq_true_eq]
  rfl

theorem isNameChar_iff {char : Char} : isNameChar char = true ↔
    (97 ≤ char.toNat ∧ char.toNat ≤ 122) ∨ char.toNat = 95 := by
  rw [isNameChar, isLower, Bool.or_eq_true, Bool.and_eq_true, decide_eq_true_eq, decide_eq_true_eq,
    beq_iff_eq, ← Char.toNat_inj]
  rfl

private theorem isDigit_eq_false_of_upper {char : Char} (hChar : isUpper char = true) :
    isDigit char = false := by
  rw [isUpper_iff] at hChar
  rw [← Bool.not_eq_true, isDigit_iff]
  omega

private theorem isNameChar_eq_false_of_upper {char : Char} (hChar : isUpper char = true) :
    isNameChar char = false := by
  rw [isUpper_iff] at hChar
  rw [← Bool.not_eq_true, isNameChar_iff]
  omega

private theorem isDigit_eq_false_of_name {char : Char} (hChar : isNameChar char = true) :
    isDigit char = false := by
  rw [isNameChar_iff] at hChar
  rw [← Bool.not_eq_true, isDigit_iff]
  omega

private theorem ne_sign_of_run {char : Char}
    (hChar : isDigit char = true ∨ isNameChar char = true ∨ isUpper char = true) :
    char ≠ Char.ofNat 0 ∧ singleKind? char = none ∧ char ≠ ':' ∧ char ≠ '<' ∧ char ≠ '>' := by
  have hClosed : ∀ sign, (isDigit sign || isNameChar sign || isUpper sign) = false →
      char ≠ sign := by
    rintro sign hSign rfl
    rw [Bool.or_eq_false_iff, Bool.or_eq_false_iff] at hSign
    simp [hSign] at hChar
  refine ⟨hClosed _ (by decide), ?_, hClosed _ (by decide), hClosed _ (by decide),
    hClosed _ (by decide)⟩
  unfold singleKind?
  split
  all_goals first | rfl | exact absurd rfl (hClosed _ (by decide))

theorem Trivia.append {gap more : List Glyph} (hGap : Trivia gap) (hMore : Trivia more) :
    Trivia (gap ++ more) := by
  induction hGap with
  | nil => exact hMore
  | blank hBlank _ inductionHypothesis => exact .blank hBlank inductionHypothesis
  | comment hOpening hInner hClosing _ inductionHypothesis =>
      rw [List.cons_append, List.append_assoc]
      exact .comment hOpening hInner hClosing inductionHypothesis

theorem plain_of_run {char : Char}
    (hChar : isDigit char = true ∨ isNameChar char = true ∨ isUpper char = true) :
    char.toNat < 0x80 ∧ startsTrivia char = false := by
  rw [isDigit_iff, isNameChar_iff, isUpper_iff] at hChar
  constructor
  · omega
  · simp only [startsTrivia, isSeparator, Bool.or_eq_false_iff, beq_eq_false_iff_ne, ne_eq,
      ← Char.toNat_inj, Char.reduceToNat]
    omega

/-- The characters are listed, so that no search among all characters is made. -/
theorem forall_mem_of_all {property : Char → Prop} [DecidablePred property] {chars : List Char}
    (hAll : chars.all (fun char => decide (property char)) = true) :
    ∀ char ∈ chars, property char :=
  fun char hChar => of_decide_eq_true (List.all_eq_true.mp hAll char hChar)

theorem TokenKind.IsText.plain {kind : TokenKind} {literal : String}
    (hText : kind.IsText literal) : literal.toList ≠ [] ∧
      ∀ char ∈ literal.toList, char.toNat < 0x80 ∧ startsTrivia char = false := by
  cases kind with
  | number => exact ⟨hText.1, fun char hChar => plain_of_run (.inl (hText.2 char hChar))⟩
  | identifier =>
      exact ⟨hText.1, fun char hChar => plain_of_run (.inr (.inl (hText.2 char hChar)))⟩
  | _ =>
      obtain rfl := hText
      exact ⟨by decide, forall_mem_of_all (by decide)⟩

theorem TokenKind.of_mem_keywords {kind : TokenKind} (hKind : kind ∈ keywords) :
    kind ≠ .endOfInput ∧ kind ≠ .error ∧ (∀ literal, kind.IsText literal ↔ literal = kind.name) ∧
      kind.continues = isUpper := by
  cases kind
  all_goals first
    | exact absurd hKind (by decide)
    | exact ⟨nofun, nofun, fun _ => Iff.rfl, funext fun _ => rfl⟩

private theorem Breaks.char_eq {property : Char → Bool} {rest : List Glyph}
    (hRest : Breaks property rest) (hStop : property (Char.ofNat 0) = false) (position : Position) :
    property (Cursor.char ⟨rest, position⟩) = false := by
  cases rest with
  | nil => exact hStop
  | cons glyph rest => exact hRest glyph rfl

/-! ### Runs -/

theorem exists_cons_or_breaks (property : Char → Bool) (ahead : List Glyph) :
    (∃ glyph tail, ahead = glyph :: tail ∧ property glyph.char = true) ∨
      Breaks property ahead := by
  cases ahead with
  | nil => exact .inr nofun
  | cons glyph tail =>
      by_cases hGlyph : property glyph.char = true
      · exact .inl ⟨glyph, tail, rfl, hGlyph⟩
      · right
        intro other hOther
        obtain rfl := Option.some.inj hOther
        exact Bool.eq_false_iff.mpr hGlyph

private theorem exists_run (property : Char → Bool) (ahead : List Glyph) :
    ∃ run rest, ahead = run ++ rest ∧ (∀ glyph ∈ run, property glyph.char = true) ∧
      Breaks property rest := by
  induction ahead with
  | nil => exact ⟨[], [], rfl, List.forall_mem_nil _, nofun⟩
  | cons glyph tail inductionHypothesis =>
      rcases exists_cons_or_breaks property (glyph :: tail) with
        ⟨first, later, hSame, hFirst⟩ | hRest
      · obtain ⟨run, rest, rfl, hRun, hRest⟩ := inductionHypothesis
        obtain ⟨rfl, -⟩ := List.cons.inj hSame
        exact ⟨glyph :: run, rest, rfl, List.forall_mem_cons.mpr ⟨hFirst, hRun⟩, hRest⟩
      · exact ⟨[], glyph :: tail, rfl, List.forall_mem_nil _, hRest⟩

private theorem takeWhileFrom_append {property : Char → Bool} {covered rest : List Glyph}
    (hCovered : ∀ glyph ∈ covered, property glyph.char = true) (hRest : Breaks property rest)
    (position : Position) :
    Cursor.takeWhileFrom property (covered ++ rest) position =
      (covered.map Glyph.char, ⟨rest, position.pass covered⟩) := by
  induction covered generalizing position with
  | nil =>
      cases rest with
      | nil => rfl
      | cons glyph rest =>
          rw [List.nil_append, Cursor.takeWhileFrom, hRest glyph rfl, if_neg Bool.false_ne_true]
          rfl
  | cons glyph covered inductionHypothesis =>
      obtain ⟨hGlyph, hLater⟩ := List.forall_mem_cons.mp hCovered
      rw [List.cons_append, Cursor.takeWhileFrom, if_pos hGlyph, inductionHypothesis hLater]
      rfl

private theorem exists_run_cons {property : Char → Bool} {glyph : Glyph}
    (hGlyph : property glyph.char = true) (tail : List Glyph) :
    ∃ run rest, glyph :: tail = run ++ rest ∧ run ≠ [] ∧
      (∀ other ∈ run, property other.char = true) ∧ Breaks property rest := by
  obtain ⟨run, rest, hSplit, hRun, hRest⟩ := exists_run property (glyph :: tail)
  refine ⟨run, rest, hSplit, ?_, hRun, hRest⟩
  rintro rfl
  obtain rfl := hSplit
  exact Bool.false_ne_true ((hRest glyph rfl).symm.trans hGlyph)

/-! ### Skipping what is between tokens -/

theorem skipTriviaFrom_comment {inner : List Glyph} (hInner : CommentText inner)
    (rest : List Glyph) (position start : Position) :
    skipTriviaFrom (inner ++ rest) position (some start) =
      skipTriviaFrom rest (position.pass inner) (some start) := by
  induction inner generalizing position with
  | nil => rfl
  | cons glyph inner inductionHypothesis =>
      obtain ⟨⟨hClosing, hStop⟩, hLater⟩ := List.forall_mem_cons.mp hInner
      rw [List.cons_append, skipTriviaFrom, if_neg hClosing, if_neg hStop]
      exact inductionHypothesis hLater _

private theorem skipTriviaFrom_trivia {gap : List Glyph} (hGap : Trivia gap) (rest : List Glyph)
    (position : Position) :
    skipTriviaFrom (gap ++ rest) position none =
      skipTriviaFrom rest (position.pass gap) none := by
  induction hGap generalizing position with
  | nil => rfl
  | blank hBlank _ inductionHypothesis =>
      rw [List.cons_append, skipTriviaFrom, if_pos hBlank]
      exact inductionHypothesis _
  | comment hOpening hInner hClosing _ inductionHypothesis =>
      have hBlank : ¬ isSeparator '\x7b' = true := by decide
      rw [List.cons_append, List.append_assoc, skipTriviaFrom, hOpening, if_neg hBlank, if_pos rfl,
        skipTriviaFrom_comment hInner, List.cons_append, skipTriviaFrom, if_pos hClosing,
        inductionHypothesis, Position.pass_cons, Position.pass_append, Position.pass_cons]

private theorem skipTriviaFrom_of_breaks {rest : List Glyph} (hRest : Breaks startsTrivia rest)
    (position : Position) : skipTriviaFrom rest position none = .ok ⟨rest, position⟩ := by
  cases rest with
  | nil => rfl
  | cons glyph rest =>
      have hGlyph : (isSeparator glyph.char || glyph.char == '\x7b') = false := hRest glyph rfl
      rw [Bool.or_eq_false_iff, beq_eq_false_iff_ne] at hGlyph
      rw [skipTriviaFrom, hGlyph.1, if_neg Bool.false_ne_true, if_neg hGlyph.2]

/-- A comment that is not closed before the text ends. -/
theorem skipTriviaFrom_open {opening : Glyph} {inner rest : List Glyph}
    (hOpening : opening.char = '\x7b') (hInner : CommentText inner) (hRest : Stops rest)
    (position : Position) :
    skipTriviaFrom (opening :: (inner ++ rest)) position none =
      .error (position, ⟨rest, position.pass (opening :: inner)⟩) := by
  have hBlank : ¬ isSeparator '\x7b' = true := by decide
  rw [skipTriviaFrom, hOpening, if_neg hBlank, if_pos rfl, skipTriviaFrom_comment hInner]
  cases rest with
  | nil => rfl
  | cons glyph rest =>
      have hStop : glyph.char = Char.ofNat 0 := hRest glyph rfl
      have hOpen : Char.ofNat 0 ≠ '\x7d' := by decide
      rw [skipTriviaFrom, hStop, if_neg hOpen, if_pos rfl]
      rfl

/-- Every text starts with blanks and closed comments, perhaps none.  Behind them stands no
blank, and no comment unless it is not closed. -/
theorem exists_trivia (ahead : List Glyph) :
    ∃ gap rest, ahead = gap ++ rest ∧ Trivia gap ∧ (Breaks startsTrivia rest ∨
      ∃ opening inner later, rest = opening :: (inner ++ later) ∧ opening.char = '\x7b' ∧
        CommentText inner ∧ Stops later) := by
  induction hSize : ahead.length using Nat.strong_induction_on generalizing ahead with
  | _ size inductionHypothesis =>
      subst hSize
      rcases exists_cons_or_breaks startsTrivia ahead with ⟨glyph, tail, rfl, hStart⟩ | hBreaks
      · rw [startsTrivia, Bool.or_eq_true, beq_iff_eq] at hStart
        rcases hStart with hBlank | hOpening
        · obtain ⟨gap, rest, rfl, hGap, hRest⟩ :=
            inductionHypothesis tail.length (Nat.lt_succ_self _) tail rfl
          exact ⟨glyph :: gap, rest, rfl, .blank hBlank hGap, hRest⟩
        -- The comment reaches up to its closing brace, a NUL or the end.
        obtain ⟨inner, behind, rfl, hInner, hBehind⟩ :=
          exists_run (fun char => char != '\x7d' && char != Char.ofNat 0) tail
        have hText : CommentText inner := by
          intro glyph hGlyph
          have hInside := hInner glyph hGlyph
          rw [Bool.and_eq_true, bne_iff_ne, bne_iff_ne] at hInside
          exact hInside
        rcases exists_cons_or_breaks (· == '\x7d') behind with
          ⟨closing, later, rfl, hClosing⟩ | hOpen
        · have hShorter : later.length < (glyph :: (inner ++ closing :: later)).length := by
            simp only [List.length_cons, List.length_append]
            omega
          obtain ⟨gap, rest, rfl, hGap, hRest⟩ :=
            inductionHypothesis later.length hShorter later rfl
          exact ⟨glyph :: (inner ++ closing :: gap), rest, by simp,
            .comment hOpening hText (beq_iff_eq.mp hClosing) hGap, hRest⟩
        · have hStops : Stops behind := by
            intro other hOther
            have hNotClosing : other.char ≠ '\x7d' := beq_eq_false_iff_ne.mp (hOpen other hOther)
            simpa [hNotClosing] using hBehind other hOther
          exact ⟨[], _, rfl, .nil, .inr ⟨glyph, inner, behind, rfl, hOpening, hText, hStops⟩⟩
      · exact ⟨[], ahead, rfl, .nil, .inl hBreaks⟩

/-! ### Reading what a token covers -/

namespace Token

section Reading

variable {cursor : Cursor}

private theorem readAt_single {kind : TokenKind} (hKind : singleKind? cursor.char = some kind) :
    readAt cursor = (⟨kind, String.singleton cursor.char, cursor.position⟩, cursor.advance) := by
  have hChar : cursor.char ≠ Char.ofNat 0 := by
    intro hStop
    rw [hStop] at hKind
    cases hKind
  simp only [readAt, if_neg hChar, hKind]

private theorem readAt_digit (hDigit : isDigit cursor.char = true) :
    readAt cursor = (⟨.number, String.ofList (cursor.takeWhile isDigit).1, cursor.position⟩,
      (cursor.takeWhile isDigit).2) := by
  obtain ⟨hStop, hSingle, hColon, hLess, hGreater⟩ := ne_sign_of_run (.inl hDigit)
  simp only [readAt, if_neg hStop, hSingle, if_neg hColon, if_neg hLess, if_neg hGreater,
    if_pos hDigit]

private theorem readAt_nameChar (hName : isNameChar cursor.char = true) :
    readAt cursor = (⟨.identifier, String.ofList (cursor.takeWhile isNameChar).1, cursor.position⟩,
      (cursor.takeWhile isNameChar).2) := by
  obtain ⟨hStop, hSingle, hColon, hLess, hGreater⟩ := ne_sign_of_run (.inr (.inl hName))
  simp only [readAt, if_neg hStop, hSingle, if_neg hColon, if_neg hLess, if_neg hGreater,
    isDigit_eq_false_of_name hName, Bool.false_eq_true, if_false, if_pos hName]

private theorem readAt_upper (hUpper : isUpper cursor.char = true) :
    readAt cursor =
      (match TokenKind.ofWord? (String.ofList (cursor.takeWhile isUpper).1) with
      | some kind => ⟨kind, String.ofList (cursor.takeWhile isUpper).1, cursor.position⟩
      | none => ofFault (.unknownKeyword (String.ofList (cursor.takeWhile isUpper).1))
          cursor.position,
      (cursor.takeWhile isUpper).2) := by
  obtain ⟨hStop, hSingle, hColon, hLess, hGreater⟩ := ne_sign_of_run (.inr (.inr hUpper))
  simp only [readAt, if_neg hStop, hSingle, if_neg hColon, if_neg hLess, if_neg hGreater,
    isDigit_eq_false_of_upper hUpper, isNameChar_eq_false_of_upper hUpper, Bool.false_eq_true,
    if_false, if_pos hUpper]
  cases TokenKind.ofWord? (String.ofList (cursor.takeWhile isUpper).1) <;> rfl

end Reading

variable {covered rest : List Glyph}

/-- A run of characters with a property stands at a cursor. -/
theorem takeWhile_covered {property : Char → Bool} (hCovered : covered ≠ [])
    (hRun : ∀ char ∈ covered.map Glyph.char, property char = true) (hRest : Breaks property rest)
    (position : Position) :
    property (Cursor.char ⟨covered ++ rest, position⟩) = true ∧
      Cursor.takeWhile ⟨covered ++ rest, position⟩ property =
        (covered.map Glyph.char, ⟨rest, position.pass covered⟩) := by
  rw [List.forall_mem_map] at hRun
  constructor
  · cases covered with
    | nil => exact absurd rfl hCovered
    | cons glyph covered => exact hRun glyph List.mem_cons_self
  · exact takeWhileFrom_append hRun hRest position

/-- A word of capital letters. -/
theorem readAt_word {word : String} (hCovered : covered.map Glyph.char = word.toList)
    (hSome : word.toList ≠ []) (hRun : ∀ char ∈ word.toList, isUpper char = true)
    (hRest : Breaks isUpper rest) (position : Position) :
    readAt ⟨covered ++ rest, position⟩ =
      (match TokenKind.ofWord? word with
      | some kind => ⟨kind, word, position⟩
      | none => ofFault (.unknownKeyword word) position, ⟨rest, position.pass covered⟩) := by
  rw [← hCovered] at hSome hRun
  obtain ⟨hUpper, hWord⟩ :=
    takeWhile_covered (List.map_eq_nil_iff.not.mp hSome) hRun hRest position
  rw [readAt_upper hUpper, hWord, hCovered, String.ofList_toList]

private theorem of_ofWord?_eq_some {word : String} {kind : TokenKind}
    (hWord : TokenKind.ofWord? word = some kind) : kind ∈ TokenKind.keywords ∧ kind.name = word := by
  unfold TokenKind.ofWord? at hWord
  exact ⟨List.mem_of_find?_eq_some hWord, beq_iff_eq.mp (List.find?_some hWord :)⟩

private theorem ofWord?_name {kind : TokenKind} (hKind : kind ∈ TokenKind.keywords) :
    TokenKind.ofWord? kind.name = some kind ∧ kind.name.toList ≠ [] ∧
      ∀ char ∈ kind.name.toList, isUpper char = true := by
  rw [← List.all_eq_true]
  revert kind
  decide

private theorem readAt_sign {kind : TokenKind}
    (hKind : kind ∈ [.plus, .minus, .star, .slash, .percent, .equal, .openBracket, .closeBracket,
      TokenKind.semicolon])
    (hCovered : covered.map Glyph.char = kind.name.toList) (position : Position) :
    readAt ⟨covered ++ rest, position⟩ =
      (⟨kind, kind.name, position⟩, ⟨rest, position.pass covered⟩) := by
  have hSign : kind.name.toList.any (fun char =>
      decide (kind.name = String.singleton char ∧ singleKind? char = some kind)) = true := by
    clear hCovered
    revert kind
    decide
  obtain ⟨char, -, hChar⟩ := List.any_eq_true.mp hSign
  obtain ⟨hName, hSingle⟩ := of_decide_eq_true hChar
  rw [hName, String.toList_singleton] at hCovered
  obtain ⟨glyph, later, rfl, rfl, hLater⟩ := List.map_eq_cons_iff.mp hCovered
  obtain rfl := List.map_eq_nil_iff.mp hLater
  have hRead : readAt ⟨glyph :: rest, position⟩ =
      (⟨kind, String.singleton glyph.char, position⟩, ⟨rest, position.after glyph⟩) :=
    readAt_single hSingle
  rw [hName]
  exact hRead

private theorem exists_pair (first second : Char)
    (hCovered : covered.map Glyph.char = [first, second]) :
    ∃ one two : Glyph, covered = [one, two] ∧ one.char = first ∧ two.char = second := by
  obtain ⟨one, later, rfl, hOne, hLater⟩ := List.map_eq_cons_iff.mp hCovered
  obtain ⟨two, last, rfl, hTwo, hLast⟩ := List.map_eq_cons_iff.mp hLater
  obtain rfl := List.map_eq_nil_iff.mp hLast
  exact ⟨one, two, rfl, hOne, hTwo⟩

/-- A sign of two characters. -/
theorem readAt_pair {kind : TokenKind}
    (hKind : kind = .assign ∨ kind = .notEqual ∨ kind = .lessEqual ∨ kind = .greaterEqual)
    (hCovered : covered.map Glyph.char = kind.name.toList) (position : Position) :
    readAt ⟨covered ++ rest, position⟩ =
      (⟨kind, kind.name, position⟩, ⟨rest, position.pass covered⟩) := by
  rcases hKind with rfl | rfl | rfl | rfl
  · obtain ⟨one, two, rfl, hOne, hTwo⟩ := exists_pair ':' '=' hCovered
    simp [readAt, Cursor.char, Cursor.advance, singleKind?, hOne, hTwo, TokenKind.name]
  · obtain ⟨one, two, rfl, hOne, hTwo⟩ := exists_pair '<' '>' hCovered
    simp [readAt, Cursor.char, Cursor.advance, singleKind?, hOne, hTwo, TokenKind.name]
  · obtain ⟨one, two, rfl, hOne, hTwo⟩ := exists_pair '<' '=' hCovered
    simp [readAt, Cursor.char, Cursor.advance, singleKind?, hOne, hTwo, TokenKind.name]
  · obtain ⟨one, two, rfl, hOne, hTwo⟩ := exists_pair '>' '=' hCovered
    simp [readAt, Cursor.char, Cursor.advance, singleKind?, hOne, hTwo, TokenKind.name]

private theorem readAt_less (hCovered : covered.map Glyph.char = ['<'])
    (hRest : Breaks (fun char => char == '>' || char == '=') rest) (position : Position) :
    readAt ⟨covered ++ rest, position⟩ =
      (⟨.less, "<", position⟩, ⟨rest, position.pass covered⟩) := by
  obtain ⟨glyph, later, rfl, hGlyph, hLater⟩ := List.map_eq_cons_iff.mp hCovered
  obtain rfl := List.map_eq_nil_iff.mp hLater
  have hNext := hRest.char_eq rfl (position.after glyph)
  rw [Bool.or_eq_false_iff, beq_eq_false_iff_ne, beq_eq_false_iff_ne] at hNext
  have hChar : Cursor.char ⟨glyph :: rest, position⟩ = '<' := hGlyph
  have hAdvance : Cursor.advance ⟨glyph :: rest, position⟩ = ⟨rest, position.after glyph⟩ := rfl
  simp only [readAt, List.singleton_append, hChar, hAdvance, if_neg hNext.1, if_neg hNext.2]
  rfl

private theorem readAt_greater (hCovered : covered.map Glyph.char = ['>'])
    (hRest : Breaks (· == '=') rest) (position : Position) :
    readAt ⟨covered ++ rest, position⟩ =
      (⟨.greater, ">", position⟩, ⟨rest, position.pass covered⟩) := by
  obtain ⟨glyph, later, rfl, hGlyph, hLater⟩ := List.map_eq_cons_iff.mp hCovered
  obtain rfl := List.map_eq_nil_iff.mp hLater
  have hNext := beq_eq_false_iff_ne.mp (hRest.char_eq rfl (position.after glyph))
  have hChar : Cursor.char ⟨glyph :: rest, position⟩ = '>' := hGlyph
  have hAdvance : Cursor.advance ⟨glyph :: rest, position⟩ = ⟨rest, position.after glyph⟩ := rfl
  simp only [readAt, List.singleton_append, hChar, hAdvance, if_neg hNext]
  rfl

private theorem readAt_colon (hCovered : covered.map Glyph.char = [':'])
    (hRest : Breaks (· == '=') rest) (position : Position) :
    readAt ⟨covered ++ rest, position⟩ =
      (ofFault .loneColon position, ⟨rest, position.pass covered⟩) := by
  obtain ⟨glyph, later, rfl, hGlyph, hLater⟩ := List.map_eq_cons_iff.mp hCovered
  obtain rfl := List.map_eq_nil_iff.mp hLater
  have hNext := beq_eq_false_iff_ne.mp (hRest.char_eq rfl (position.after glyph))
  have hChar : Cursor.char ⟨glyph :: rest, position⟩ = ':' := hGlyph
  have hAdvance : Cursor.advance ⟨glyph :: rest, position⟩ = ⟨rest, position.after glyph⟩ := rfl
  simp only [readAt, List.singleton_append, hChar, hAdvance, if_neg hNext]
  rfl

/-- A token is read back from the characters it covers. -/
theorem readAt_text {token : Token} (hEnd : token.kind ≠ .endOfInput)
    (hError : token.kind ≠ .error) (hCovered : covered.map Glyph.char = token.literal.toList)
    (hText : token.kind.IsText token.literal) (hRest : Breaks token.kind.continues rest) :
    readAt ⟨covered ++ rest, token.position⟩ = (token, ⟨rest, token.position.pass covered⟩) := by
  obtain ⟨kind, literal, position⟩ := token
  simp only at hEnd hError hCovered hText hRest ⊢
  by_cases hKeyword : kind ∈ TokenKind.keywords
  · obtain ⟨-, -, hName, hContinues⟩ := TokenKind.of_mem_keywords hKeyword
    obtain rfl := (hName literal).mp hText
    rw [hContinues] at hRest
    obtain ⟨hKind, hSome, hUpper⟩ := ofWord?_name hKeyword
    rw [readAt_word hCovered hSome hUpper hRest, hKind]
  · cases kind with
    | endOfInput => exact absurd rfl hEnd
    | error => exact absurd rfl hError
    | number =>
        obtain ⟨hSome, hRun⟩ := hText
        rw [← hCovered] at hSome hRun
        obtain ⟨hDigit, hNumber⟩ :=
          takeWhile_covered (List.map_eq_nil_iff.not.mp hSome) hRun hRest position
        rw [readAt_digit hDigit, hNumber, hCovered, String.ofList_toList]
    | identifier =>
        obtain ⟨hSome, hRun⟩ := hText
        rw [← hCovered] at hSome hRun
        obtain ⟨hName, hIdentifier⟩ :=
          takeWhile_covered (List.map_eq_nil_iff.not.mp hSome) hRun hRest position
        rw [readAt_nameChar hName, hIdentifier, hCovered, String.ofList_toList]
    | less =>
        obtain rfl := hText
        exact readAt_less hCovered hRest position
    | greater =>
        obtain rfl := hText
        exact readAt_greater hCovered hRest position
    | assign | notEqual | lessEqual | greaterEqual =>
        obtain rfl := hText
        exact readAt_pair (by decide) hCovered position
    | plus | minus | star | slash | percent | equal | openBracket | closeBracket | semicolon =>
        obtain rfl := hText
        exact readAt_sign (by decide) hCovered position
    | _ => exact absurd (by decide) hKeyword

private theorem readAt_stray {char : Char} (hCovered : covered.map Glyph.char = [char])
    (hStop : char ≠ Char.ofNat 0) (hStray : startsToken char = false) (position : Position) :
    readAt ⟨covered ++ rest, position⟩ =
      (ofFault (.strayCharacter char) position, ⟨rest, position.pass covered⟩) := by
  obtain ⟨glyph, later, rfl, hGlyph, hLater⟩ := List.map_eq_cons_iff.mp hCovered
  obtain rfl := List.map_eq_nil_iff.mp hLater
  simp only [startsToken, Bool.or_eq_false_iff, beq_eq_false_iff_ne, Option.isSome_eq_false_iff,
    Option.isNone_iff_eq_none] at hStray
  obtain ⟨⟨⟨⟨⟨⟨hSingle, hColon⟩, hLess⟩, hGreater⟩, hDigit⟩, hName⟩, hUpper⟩ := hStray
  have hChar : Cursor.char ⟨glyph :: rest, position⟩ = char := hGlyph
  simp only [readAt, List.singleton_append, hChar, if_neg hStop, hSingle, if_neg hColon,
    if_neg hLess, if_neg hGreater, hDigit, hName, hUpper, Bool.false_eq_true, if_false]
  rfl

private theorem breaks_covered {property : Char → Bool} (hSome : covered.map Glyph.char ≠ [])
    (hCovered : ∀ char ∈ covered.map Glyph.char, property char = false) :
    Breaks property (covered ++ rest) := by
  cases covered with
  | nil => exact absurd rfl hSome
  | cons first covered =>
      intro glyph hGlyph
      obtain rfl := Option.some.inj hGlyph
      exact hCovered _ List.mem_cons_self

/-- The next token is the one whose characters follow behind blanks and comments. -/
theorem next_of_covers {start : Position} {gap : List Glyph} {token : Token} (hGap : Trivia gap)
    (hPosition : token.position = start.pass gap) (hCovers : token.Covers covered rest) :
    next ⟨gap ++ (covered ++ rest), start⟩ = (token, ⟨rest, start.pass (gap ++ covered)⟩) := by
  rw [next, skipTriviaFrom_trivia hGap, ← hPosition, Position.pass_append, ← hPosition]
  cases hCovers with
  | text hEnd hError hCovered hText hRest =>
      obtain ⟨hSome, hPlain⟩ := hText.plain
      have hStart : Breaks startsTrivia (covered ++ rest) :=
        breaks_covered (hCovered ▸ hSome) (hCovered ▸ fun char hChar => (hPlain char hChar).2)
      rw [skipTriviaFrom_of_breaks hStart]
      exact readAt_text hEnd hError hCovered hText hRest
  | fault fault hKind hLiteral hCovers =>
      obtain ⟨kind, literal, position⟩ := token
      simp only at hKind hLiteral
      subst hKind hLiteral
      cases fault with
      | unterminatedComment =>
          obtain ⟨opening, inner, rfl, hOpening, hInner, hRest⟩ := hCovers
          rw [List.cons_append, skipTriviaFrom_open hOpening hInner hRest]
          rfl
      | loneColon =>
          obtain ⟨hCovered, hRest⟩ := hCovers
          have hStart : Breaks startsTrivia (covered ++ rest) :=
            breaks_covered (hCovered ▸ List.cons_ne_nil _ _)
              (hCovered ▸ List.forall_mem_singleton.mpr rfl)
          rw [skipTriviaFrom_of_breaks hStart]
          exact readAt_colon hCovered hRest position
      | strayCharacter char =>
          obtain ⟨hCovered, hStop, hTrivia, hStray⟩ := hCovers
          have hStart : Breaks startsTrivia (covered ++ rest) :=
            breaks_covered (hCovered ▸ List.cons_ne_nil _ _)
              (hCovered ▸ List.forall_mem_singleton.mpr hTrivia)
          rw [skipTriviaFrom_of_breaks hStart]
          exact readAt_stray hCovered hStop hStray position
      | unknownKeyword word =>
          obtain ⟨hCovered, hSome, hRun, hRest, hUnknown⟩ := hCovers
          have hStart : Breaks startsTrivia (covered ++ rest) :=
            breaks_covered (hCovered ▸ hSome)
              (hCovered ▸ fun char hChar => (plain_of_run (.inr (.inr (hRun char hChar)))).2)
          rw [skipTriviaFrom_of_breaks hStart]
          simp only
          rw [readAt_word hCovered hSome hRun hRest, hUnknown]
          rfl

theorem next_of_stops {start : Position} {gap : List Glyph} (hGap : Trivia gap)
    (hRest : Stops rest) :
    next ⟨gap ++ rest, start⟩ = (⟨.endOfInput, "", start.pass gap⟩, ⟨rest, start.pass gap⟩) := by
  have hStart : Breaks startsTrivia rest := by
    intro glyph hGlyph
    rw [hRest glyph hGlyph]
    rfl
  have hChar : Cursor.char ⟨rest, start.pass gap⟩ = Char.ofNat 0 := by
    cases rest with
    | nil => rfl
    | cons glyph rest => exact hRest glyph rfl
  rw [next, skipTriviaFrom_trivia hGap, skipTriviaFrom_of_breaks hStart]
  simp only [readAt, if_pos hChar]

/-! ### Splitting a text -/

theorem covers_single {glyph : Glyph} {kind : TokenKind} (hKind : singleKind? glyph.char = some kind)
    (position : Position) : Covers ⟨kind, kind.name, position⟩ [glyph] rest := by
  have hSign : kind ≠ .endOfInput ∧ kind ≠ .error ∧ [glyph.char] = kind.name.toList ∧
      kind.IsText kind.name ∧ ∀ char, kind.continues char = false := by
    unfold singleKind? at hKind
    split at hKind
    all_goals first
      | cases hKind
        rename_i hChar
        rw [hChar]
        exact ⟨nofun, nofun, rfl, rfl, fun _ => rfl⟩
      | cases hKind
  obtain ⟨hEnd, hError, hCovered, hText, hContinues⟩ := hSign
  exact .text hEnd hError hCovered hText fun _ _ => hContinues _

private theorem exists_covers_word (hCovered : covered ≠ [])
    (hRun : ∀ glyph ∈ covered, isUpper glyph.char = true) (hRest : Breaks isUpper rest)
    (position : Position) :
    ∃ token : Token, token.position = position ∧ token.Covers covered rest := by
  have hLetters : covered.map Glyph.char = (String.ofList (covered.map Glyph.char)).toList :=
    String.toList_ofList.symm
  cases hWord : TokenKind.ofWord? (String.ofList (covered.map Glyph.char)) with
  | none =>
      refine ⟨ofFault (.unknownKeyword _) position, rfl, .fault (.unknownKeyword _) rfl rfl
        ⟨hLetters, ?_, ?_, hRest, hWord⟩⟩
      · rw [← hLetters]
        exact List.map_eq_nil_iff.not.mpr hCovered
      · rw [← hLetters]
        exact List.forall_mem_map.mpr hRun
  | some kind =>
      obtain ⟨hKeyword, hName⟩ := of_ofWord?_eq_some hWord
      obtain ⟨hEnd, hError, hText, hContinues⟩ := TokenKind.of_mem_keywords hKeyword
      rw [← hName] at hLetters
      exact ⟨⟨kind, kind.name, position⟩, rfl,
        .text hEnd hError hLetters ((hText _).mpr rfl) (hContinues ▸ hRest)⟩

/-- A character that starts neither blanks nor comments starts a token, unless it is NUL. -/
theorem exists_covers {ahead : List Glyph} (hStart : Breaks startsTrivia ahead)
    (position : Position) : Stops ahead ∨ ∃ (token : Token) (covered rest : List Glyph),
      ahead = covered ++ rest ∧ covered ≠ [] ∧ token.position = position ∧
        token.Covers covered rest := by
  cases ahead with
  | nil => exact .inl nofun
  | cons glyph tail =>
      by_cases hStop : glyph.char = Char.ofNat 0
      · left
        intro other hOther
        obtain rfl := Option.some.inj hOther
        exact hStop
      right
      cases hToken : startsToken glyph.char with
      | false =>
          exact ⟨ofFault (.strayCharacter glyph.char) position, [glyph], tail, rfl,
            List.cons_ne_nil _ _, rfl,
            .fault (.strayCharacter glyph.char) rfl rfl ⟨rfl, hStop, hStart glyph rfl, hToken⟩⟩
      | true =>
          simp only [startsToken, Bool.or_eq_true, beq_iff_eq, Option.isSome_iff_exists] at hToken
          obtain (((((⟨kind, hSingle⟩ | hColon) | hLess) | hGreater) | hDigit) | hName) | hUpper :=
            hToken
          · exact ⟨_, [glyph], tail, rfl, List.cons_ne_nil _ _, rfl, covers_single hSingle position⟩
          · rcases exists_cons_or_breaks (· == '=') tail with ⟨second, later, rfl, hEqual⟩ | hRest
            · exact ⟨⟨.assign, ":=", position⟩, [glyph, second], later, rfl,
                List.cons_ne_nil _ _, rfl,
                .text nofun nofun (by simp [hColon, beq_iff_eq.mp hEqual]) rfl fun _ _ => rfl⟩
            · exact ⟨ofFault .loneColon position, [glyph], tail, rfl, List.cons_ne_nil _ _, rfl,
                .fault .loneColon rfl rfl ⟨by rw [← hColon]; rfl, hRest⟩⟩
          · rcases exists_cons_or_breaks (fun char => char == '>' || char == '=') tail with
              ⟨second, later, rfl, hSecond⟩ | hRest
            · rcases Bool.or_eq_true_iff.mp hSecond with hAbove | hEqual
              · exact ⟨⟨.notEqual, "<>", position⟩, [glyph, second], later, rfl,
                  List.cons_ne_nil _ _, rfl,
                  .text nofun nofun (by simp [hLess, beq_iff_eq.mp hAbove]) rfl fun _ _ => rfl⟩
              · exact ⟨⟨.lessEqual, "<=", position⟩, [glyph, second], later, rfl,
                  List.cons_ne_nil _ _, rfl,
                  .text nofun nofun (by simp [hLess, beq_iff_eq.mp hEqual]) rfl fun _ _ => rfl⟩
            · exact ⟨⟨.less, "<", position⟩, [glyph], tail, rfl, List.cons_ne_nil _ _, rfl,
                .text nofun nofun (by simp [hLess]) rfl hRest⟩
          · rcases exists_cons_or_breaks (· == '=') tail with ⟨second, later, rfl, hEqual⟩ | hRest
            · exact ⟨⟨.greaterEqual, ">=", position⟩, [glyph, second], later, rfl,
                List.cons_ne_nil _ _, rfl,
                .text nofun nofun (by simp [hGreater, beq_iff_eq.mp hEqual]) rfl fun _ _ => rfl⟩
            · exact ⟨⟨.greater, ">", position⟩, [glyph], tail, rfl, List.cons_ne_nil _ _, rfl,
                .text nofun nofun (by simp [hGreater]) rfl hRest⟩
          · obtain ⟨run, rest, hSplit, hSome, hRun, hRest⟩ := exists_run_cons hDigit tail
            exact ⟨⟨.number, String.ofList (run.map Glyph.char), position⟩, run, rest, hSplit, hSome,
              rfl, .text nofun nofun String.toList_ofList.symm
                ⟨by simpa using hSome, by simpa using hRun⟩ hRest⟩
          · obtain ⟨run, rest, hSplit, hSome, hRun, hRest⟩ := exists_run_cons hName tail
            exact ⟨⟨.identifier, String.ofList (run.map Glyph.char), position⟩, run, rest, hSplit,
              hSome, rfl, .text nofun nofun String.toList_ofList.symm
                ⟨by simpa using hSome, by simpa using hRun⟩ hRest⟩
          · obtain ⟨run, rest, hSplit, hSome, hRun, hRest⟩ := exists_run_cons hUpper tail
            obtain ⟨token, hPosition, hCovers⟩ := exists_covers_word hSome hRun hRest position
            exact ⟨token, run, rest, hSplit, hSome, hPosition, hCovers⟩

/-- What comes next in a text: blanks and closed comments, then the end or a token. -/
theorem exists_next (ahead : List Glyph) (start : Position) :
    ∃ gap behind, ahead = gap ++ behind ∧ Trivia gap ∧ (Stops behind ∨
      ∃ (token : Token) (covered rest : List Glyph), behind = covered ++ rest ∧ covered ≠ [] ∧
        token.position = start.pass gap ∧ token.Covers covered rest) := by
  obtain ⟨gap, behind, rfl, hGap, hStart | hOpen⟩ := exists_trivia ahead
  · exact ⟨gap, behind, rfl, hGap, exists_covers hStart _⟩
  · obtain ⟨opening, inner, rest, rfl, hOpening, hInner, hRest⟩ := hOpen
    exact ⟨gap, _, rfl, hGap, .inr ⟨ofFault .unterminatedComment (start.pass gap), opening :: inner,
      rest, rfl, List.cons_ne_nil _ _, rfl,
      .fault .unterminatedComment rfl rfl ⟨opening, inner, rfl, hOpening, hInner, hRest⟩⟩⟩

end Token

end RegisterCompiler
