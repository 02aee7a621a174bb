/-
The word under the cursor and the tokens of a text.

The word is found byte by byte on a line, and a name is a token of the text.  All characters
of a name are bytes of a word, so the word around any of them holds the name.  It holds more
where a keyword adjoins the name, and its columns are those of the editor only where every
character in front of the name takes one byte.
-/

import RegisterCompiler.Editor.Word
import RegisterCompiler.Proofs.Correctness
import RegisterCompiler.Proofs.Program.Spans
import RegisterCompiler.Proofs.Text.Pieces
import RegisterCompiler.Proofs.Token.Neighbours

set_option autoImplicit false

namespace RegisterCompiler

open Source (Position newline placeAt)
open Text (Bytes Glyph glyphs)

/-! ### Lines -/

/-- The bytes in front of an offset of a text, on its line. -/
def Source.lineBefore (text : Bytes) (offset : Nat) : Bytes :=
  (text.take offset).rtakeWhile (· != newline)

open Source (lineBefore)

private theorem Editor.line?_eq (front back : Bytes) :
    line? (front ++ back) (front.count newline) =
      some (front.rtakeWhile (· != newline) ++ back.takeWhile (· != newline)) :=
  Text.splitAt_piece (· == newline) front back

/-! ### Bytes of words -/

namespace Editor

private theorem isWordByte_toUInt8 {char : Char} (hChar : char.toNat < 0x80) :
    isWordByte char.toNat.toUInt8 = isLetter char := by
  have hAll : ∀ code : Fin 0x80, isWordByte code.val.toUInt8 = isLetter (Char.ofNat code.val) := by
    decide +kernel
  have hCode := hAll ⟨char.toNat, hChar⟩
  rwa [Char.ofNat_toNat] at hCode

private theorem isWordByte_of_mem_encode {text : String}
    (hText : ∀ char ∈ text.toList, char.toNat < 0x80 ∧ isLetter char = true) :
    (Text.encode text).length = text.length ∧
      ∀ byte ∈ Text.encode text, isWordByte byte = true := by
  rw [Text.encode_of_plain fun char hChar => (hText char hChar).1]
  refine ⟨by rw [List.length_map, String.length_toList], List.forall_mem_map.mpr fun char hChar => ?_⟩
  obtain ⟨hPlain, hLetter⟩ := hText char hChar
  rw [isWordByte_toUInt8 hPlain, hLetter]

variable {passed ahead : List Glyph}

private theorem rtakeWhile_eq_nil_of_parts (hRead : ∀ glyph ∈ passed, glyph.IsRead)
    (hParts : ∀ glyph ∈ passed.getLast?, Parts glyph.char) :
    (passed.flatMap Glyph.bytes).rtakeWhile isWordByte = [] := by
  induction passed using List.reverseRecOn with
  | nil => rfl
  | append_singleton passed glyph =>
      obtain ⟨hPlain, hLetter⟩ := hParts glyph (by simp)
      have hBytes := (hRead glyph (by simp)).bytes_eq hPlain
      rw [List.flatMap_append, List.flatMap_singleton, hBytes, Text.encodeChar_of_lt hPlain]
      refine List.rtakeWhile_concat_neg _ _ _ ?_
      rw [isWordByte_toUInt8 hPlain, hLetter]
      exact Bool.false_ne_true

private theorem takeWhile_eq_nil_of_parts (hRead : ∀ glyph ∈ ahead, glyph.IsRead)
    (hParts : ∀ glyph ∈ ahead.head?, Parts glyph.char) :
    (ahead.flatMap Glyph.bytes).takeWhile isWordByte = [] := by
  cases ahead with
  | nil => rfl
  | cons glyph ahead =>
      obtain ⟨hPlain, hLetter⟩ := hParts glyph rfl
      have hBytes := (hRead glyph List.mem_cons_self).bytes_eq hPlain
      rw [List.flatMap_cons, hBytes, Text.encodeChar_of_lt hPlain, List.singleton_append]
      refine List.takeWhile_cons_of_neg ?_
      rw [isWordByte_toUInt8 hPlain, hLetter]
      exact Bool.false_ne_true

/-! ### The word around some bytes -/

theorem ne_newline_of_word {byte : UInt8} (hByte : isWordByte byte = true) :
    (byte != newline) = true := by
  rw [bne_iff_ne]
  rintro rfl
  exact absurd hByte (by decide)

private theorem takeWhile_line (back : Bytes) :
    (back.takeWhile (· != newline)).takeWhile isWordByte = back.takeWhile isWordByte := by
  have hBoth : ∀ byte, isWordByte byte = true ∧ (byte != newline) = true ↔ isWordByte byte = true :=
    fun byte => and_iff_left_of_imp ne_newline_of_word
  simp only [List.takeWhile_takeWhile, hBoth, Bool.decide_eq_true]

private theorem rtakeWhile_line (front : Bytes) :
    (front.rtakeWhile (· != newline)).rtakeWhile isWordByte = front.rtakeWhile isWordByte := by
  rw [List.rtakeWhile, List.rtakeWhile, List.reverse_reverse, takeWhile_line]
  rfl

/-- The word around bytes of a word goes on as far as there are such bytes. -/
theorem wordAt_eq {front inner back : Bytes} (hInner : ∀ byte ∈ inner, isWordByte byte = true)
    {cursor : Cursor} (hNumber : cursor.line.toNat = front.count newline)
    (hLow : (front.rtakeWhile (· != newline)).length ≤ cursor.character.toNat)
    (hHigh : cursor.character.toNat ≤
      (front.rtakeWhile (· != newline)).length + inner.length) :
    wordAt (front ++ (inner ++ back)) cursor =
      front.rtakeWhile isWordByte ++ (inner ++ back.takeWhile isWordByte) := by
  obtain ⟨width, hColumn⟩ := Nat.exists_eq_add_of_le hLow
  rw [hColumn] at hHigh
  have hWidth : width ≤ inner.length := Nat.le_of_add_le_add_left hHigh
  -- The cursor divides the bytes; either part goes on in its direction.
  have hBefore : ∀ byte ∈ inner.take width, isWordByte byte = true :=
    fun byte hByte => hInner byte (List.mem_of_mem_take hByte)
  have hAfter : ∀ byte ∈ inner.drop width, isWordByte byte = true :=
    fun byte hByte => hInner byte (List.mem_of_mem_drop hByte)
  have hLine : (inner ++ back).takeWhile (· != newline) = inner ++ back.takeWhile (· != newline) :=
    List.takeWhile_append_of_pos fun byte hByte => ne_newline_of_word (hInner byte hByte)
  have hFront : wordBefore (front.rtakeWhile (· != newline) ++
      (inner ++ back.takeWhile (· != newline))) ((front.rtakeWhile (· != newline)).length + width) =
        front.rtakeWhile isWordByte ++ inner.take width := by
    unfold wordBefore
    rw [List.take_length_add_append, List.take_append_of_le_length hWidth]
    exact (Position.rtakeWhile_append_of_all _ hBefore).trans (by rw [rtakeWhile_line])
  have hBack : wordAfter (front.rtakeWhile (· != newline) ++
      (inner ++ back.takeWhile (· != newline))) ((front.rtakeWhile (· != newline)).length + width) =
        inner.drop width ++ back.takeWhile isWordByte := by
    rw [wordAfter, List.drop_length_add_append, List.drop_append_of_le_length hWidth,
      List.takeWhile_append_of_pos hAfter, takeWhile_line]
  rw [wordAt, hNumber, line?_eq, hLine, Option.elim_some, hColumn, hFront, hBack,
    List.append_assoc, ← List.append_assoc (inner.take width), List.take_append_drop]

end Editor

/-! ### Words of a text -/

section Scan

variable {text : Bytes} {token : Token}

private theorem Token.mem_body_of_kind (hToken : token ∈ Token.scan text)
    (hKind : token.kind = .identifier ∨ token.kind ∈ TokenKind.keywords) :
    token ∈ Token.body text := by
  obtain ⟨last, hScan, hLast⟩ := Token.scan_eq text
  rw [hScan, List.mem_append, List.mem_singleton] at hToken
  refine hToken.resolve_right ?_
  rintro rfl
  rw [hLast] at hKind
  exact absurd hKind (by decide)

private theorem TokenKind.IsText.letters {kind : TokenKind} {literal : String}
    (hText : kind.IsText literal) (hKind : kind = .identifier ∨ kind ∈ keywords) :
    ∀ char ∈ literal.toList, char.toNat < 0x80 ∧ isLetter char = true := by
  refine fun char hChar => ⟨(hText.plain.2 char hChar).1, ?_⟩
  rcases hKind with rfl | hKeyword
  · rw [isLetter, hText.2 char hChar, Bool.true_or]
  · obtain rfl := ((TokenKind.of_mem_keywords hKeyword).2.2.1 literal).mp hText
    exact TokenKind.isLetter_of_mem_keywords hKeyword char hChar

/-- Where a name or a keyword stands there are the bytes of a word, one for each letter. -/
theorem Token.exists_word (hErrors : ∀ other ∈ Token.body text, other.kind ≠ .error)
    (hToken : token ∈ Token.body text)
    (hKind : token.kind = .identifier ∨ token.kind ∈ TokenKind.keywords) :
    text.drop token.position.offset = Text.encode token.literal ++ text.drop token.stop.offset ∧
      text.take token.stop.offset = text.take token.position.offset ++ Text.encode token.literal ∧
      Text.encode token.literal ≠ [] ∧ (Text.encode token.literal).length = token.literal.length ∧
      ∀ byte ∈ Text.encode token.literal, Editor.isWordByte byte = true := by
  obtain ⟨consumed, rest, hGlyphs, hRow, -⟩ := Token.exists_row_body text
  obtain ⟨tail, hTail⟩ := hRow.literal_prefix hGlyphs hToken (hErrors token hToken)
  obtain ⟨_, _, _, -, -, hCovers⟩ := hRow.exists_covered hToken
  cases hCovers with
  | fault _ hError => exact absurd hError (hErrors token hToken)
  | text _ _ _ hText =>
      obtain ⟨hLength, hWord⟩ := Editor.isWordByte_of_mem_encode (hText.letters hKind)
      have hStop : token.stop.offset =
          token.position.offset + (Text.encode token.literal).length :=
        hLength ▸ rfl
      refine ⟨?_, ?_, fun hNone => ?_, hLength, hWord⟩
      · rw [hStop, ← List.drop_drop, ← hTail, List.drop_left]
      · rw [hStop, List.take_add, ← hTail, List.take_left]
      · rw [hNone, List.length_nil, ← String.length_toList] at hLength
        exact hText.plain.1 (List.length_eq_zero_iff.mp hLength.symm)

private theorem Token.word_ne_nil (hErrors : ∀ other ∈ Token.body text, other.kind ≠ .error)
    (hToken : token ∈ Token.body text)
    (hKind : token.kind = .identifier ∨ token.kind ∈ TokenKind.keywords) :
    (text.drop token.position.offset).takeWhile Editor.isWordByte ≠ [] ∧
      (text.take token.stop.offset).rtakeWhile Editor.isWordByte ≠ [] := by
  obtain ⟨hDrop, hTake, hSome, -, hWord⟩ := Token.exists_word hErrors hToken hKind
  rw [hDrop, hTake, List.takeWhile_append_of_pos hWord,
    Position.rtakeWhile_append_of_all _ hWord]
  exact ⟨List.append_ne_nil_of_left_ne_nil hSome _, List.append_ne_nil_of_right_ne_nil _ hSome⟩

/-- A keyword that ends where a token starts, or starts where it ends. -/
def Token.Adjoins (keyword token : Token) : Prop :=
  keyword.kind ∈ TokenKind.keywords ∧
    (keyword.stop = token.position ∨ keyword.position = token.stop)

instance (keyword token : Token) : Decidable (keyword.Adjoins token) :=
  inferInstanceAs (Decidable (_ ∧ _))

/-- No word reaches into a name, and none goes on behind it, unless a keyword adjoins it. -/
theorem Token.word_eq_nil_iff (hErrors : ∀ other ∈ Token.body text, other.kind ≠ .error)
    (hToken : token ∈ Token.body text) (hKind : token.kind = .identifier) :
    ((text.take token.position.offset).rtakeWhile Editor.isWordByte = [] ∧
        (text.drop token.stop.offset).takeWhile Editor.isWordByte = []) ↔
      ∀ keyword ∈ Token.body text, ¬keyword.Adjoins token := by
  constructor
  · rintro ⟨hFront, hBack⟩ keyword hKeyword ⟨hUpper, hStop | hPosition⟩
    · exact (Token.word_ne_nil hErrors hKeyword (.inr hUpper)).2 (hStop ▸ hFront)
    · exact (Token.word_ne_nil hErrors hKeyword (.inr hUpper)).1 (hPosition ▸ hBack)
  · intro hNone
    obtain ⟨consumed, rest, tokens, hGlyphs, hRow, hStops⟩ :=
      Token.exists_row (glyphs text) .start
    obtain ⟨last, hBody, -⟩ := Token.scan_eq text
    obtain ⟨rfl, -⟩ :=
      List.append_inj' ((Token.scan_of_row hGlyphs hRow hStops).symm.trans hBody) rfl
    obtain ⟨front, covered, later, rfl, hPosition, hCovers, hBefore, hBehind⟩ :=
      hRow.exists_name (Token.isRead_of_glyphs hGlyphs) hStops hErrors hToken hKind
    have hStart : glyphs text = front ++ (covered ++ (later ++ rest)) := by
      rw [hGlyphs, List.append_assoc, List.append_assoc]
    have hEnd : glyphs text = (front ++ covered) ++ (later ++ rest) := by
      rw [hStart, List.append_assoc]
    have hRead : ∀ glyph ∈ glyphs text, glyph.IsRead := fun _ => Text.isRead_of_mem
    rw [hEnd, List.forall_mem_append, List.forall_mem_append] at hRead
    have hStop : token.stop = Position.start.pass (front ++ covered) := by
      rw [hCovers.stop_eq (hErrors token hToken) hRead.1.2, hPosition, Position.pass_append]
    rw [hStop, hPosition, (Position.split_at_pass hStart).1, (Position.split_at_pass hEnd).2]
    -- A letter on either side is one of a keyword, which adjoins the name.
    refine ⟨Editor.rtakeWhile_eq_nil_of_parts hRead.1.1 fun glyph hGlyph => ?_,
      Editor.takeWhile_eq_nil_of_parts hRead.2 fun glyph hGlyph => ?_⟩
    · obtain ⟨hPlain, hLetter⟩ := hBefore glyph hGlyph
      refine ⟨hPlain, Bool.eq_false_iff.mpr fun hOne => ?_⟩
      obtain ⟨keyword, hKeyword, hUpper, hMeets⟩ := hLetter hOne
      exact hNone keyword hKeyword ⟨hUpper, .inl hMeets⟩
    · obtain ⟨hPlain, hLetter⟩ := hBehind glyph hGlyph
      refine ⟨hPlain, Bool.eq_false_iff.mpr fun hOne => ?_⟩
      obtain ⟨keyword, hKeyword, hUpper, hMeets⟩ := hLetter hOne
      exact hNone keyword hKeyword ⟨hUpper, .inr hMeets⟩

end Scan

/-! ### Columns -/

theorem Text.length_glyphs_le (bytes : Bytes) :
    (glyphs bytes).length ≤ bytes.length ∧
      ((glyphs bytes).length = bytes.length ↔
        ∀ glyph ∈ glyphs bytes, glyph.bytes.length = 1) := by
  have hCount : ∀ passed : List Glyph, (∀ glyph ∈ passed, glyph.IsRead) →
      passed.length ≤ (passed.flatMap Glyph.bytes).length ∧
        (passed.length = (passed.flatMap Glyph.bytes).length ↔
          ∀ glyph ∈ passed, glyph.bytes.length = 1) := by
    intro passed hRead
    induction passed with
    | nil => exact ⟨Nat.le_refl _, iff_of_true rfl (List.forall_mem_nil _)⟩
    | cons glyph passed inductionHypothesis =>
        obtain ⟨hGlyph, hPassed⟩ := List.forall_mem_cons.mp hRead
        obtain ⟨hLe, hSame⟩ := inductionHypothesis hPassed
        have hWidth := List.length_pos_of_ne_nil hGlyph.bytes_ne_nil
        rw [List.forall_mem_cons, ← hSame, List.flatMap_cons, List.length_append, List.length_cons]
        constructor <;> omega
  have hBytes := hCount (glyphs bytes) fun _ => Text.isRead_of_mem
  rwa [Text.flatMap_bytes_glyphs] at hBytes

section Scan

variable {text : Bytes} {token : Token}

private theorem Token.place_on_line (hToken : token ∈ Token.body text) :
    token.position.line - 1 = (text.take token.position.offset).count newline ∧
      token.position.column = 1 + (glyphs (lineBefore text token.position.offset)).length := by
  obtain ⟨consumed, rest, hGlyphs, hRow, -⟩ := Token.exists_row_body text
  have hPlace := hRow.position_eq hGlyphs hToken
  have hLine : token.position.line = 1 + (text.take token.position.offset).count newline :=
    congrArg Position.line hPlace
  exact ⟨by rw [hLine, Nat.add_sub_cancel_left], congrArg Position.column hPlace⟩

/-- The word at the bytes of a name, with what it has in front of the name and behind it. -/
theorem Token.wordAt_name (hErrors : ∀ other ∈ Token.body text, other.kind ≠ .error)
    (hToken : token ∈ Token.body text) (hKind : token.kind = .identifier)
    {cursor : Editor.Cursor} (hLine : cursor.line.toNat = token.position.line - 1)
    (hLow : (lineBefore text token.position.offset).length ≤ cursor.character.toNat)
    (hHigh : cursor.character.toNat ≤
      (lineBefore text token.position.offset).length + token.literal.length) :
    Editor.wordAt text cursor =
      (text.take token.position.offset).rtakeWhile Editor.isWordByte ++
        (Text.encode token.literal ++
          (text.drop token.stop.offset).takeWhile Editor.isWordByte) := by
  obtain ⟨hDrop, -, -, hLength, hWord⟩ := Token.exists_word hErrors hToken (.inl hKind)
  rw [← hLength] at hHigh
  rw [(Token.place_on_line hToken).1] at hLine
  have hWordAt := @Editor.wordAt_eq _ _ (text.drop token.stop.offset) hWord _ hLine hLow hHigh
  rwa [← hDrop, List.take_append_drop] at hWordAt

end Scan

/-- The word at the columns of a name.  Columns of the editor count bytes of a line and those of
tokens count characters, so that they are the same only behind characters of one byte.  From the
first byte of a name to the place behind its last one the word is the name, unless a keyword
adjoins the name. -/
theorem Editor.word_of_name {text : Bytes} {checked : CheckedProgram}
    (hCheck : check text = .ok checked) {token : Token} (hToken : token ∈ Token.scan text)
    (hKind : token.kind = .identifier) :
    (token.position.column ≤ (lineBefore text token.position.offset).length + 1 ∧
      (token.position.column = (lineBefore text token.position.offset).length + 1 ↔
        ∀ glyph ∈ glyphs (lineBefore text token.position.offset), glyph.bytes.length = 1)) ∧
    ∀ cursor : Cursor, cursor.line.toNat = token.position.line - 1 →
      (lineBefore text token.position.offset).length ≤ cursor.character.toNat →
      cursor.character.toNat ≤
        (lineBefore text token.position.offset).length + token.literal.length →
      (wordAt text cursor = Text.encode token.literal ↔
        ∀ keyword ∈ Token.scan text, ¬keyword.Adjoins token) := by
  have hErrors := kind_ne_error_of_parse (exists_of_check hCheck).1
  have hBody := Token.mem_body_of_kind hToken (.inl hKind)
  constructor
  · obtain ⟨hLe, hSame⟩ := Text.length_glyphs_le (lineBefore text token.position.offset)
    rw [← hSame, (Token.place_on_line hBody).2]
    constructor <;> omega
  · intro cursor hLine hLow hHigh
    have hScan : (∀ keyword ∈ Token.scan text, ¬keyword.Adjoins token) ↔
        ∀ keyword ∈ Token.body text, ¬keyword.Adjoins token := by
      refine ⟨fun hNone keyword hKeyword => hNone keyword ?_,
        fun hNone keyword hKeyword hAdjoins => ?_⟩
      · obtain ⟨last, hScan, -⟩ := Token.scan_eq text
        exact hScan ▸ List.mem_append_left _ hKeyword
      · exact hNone keyword (Token.mem_body_of_kind hKeyword (.inr hAdjoins.1)) hAdjoins
    rw [hScan, ← Token.word_eq_nil_iff hErrors hBody hKind,
      Token.wordAt_name hErrors hBody hKind hLine hLow hHigh, ← List.length_eq_zero_iff,
      ← List.length_eq_zero_iff]
    constructor
    · intro hWord
      have hLength := congrArg List.length hWord
      simp only [List.length_append] at hLength
      omega
    · rintro ⟨hFront, hBack⟩
      rw [List.length_eq_zero_iff.mp hFront, List.length_eq_zero_iff.mp hBack, List.append_nil,
        List.nil_append]

namespace Editor

/-- A program with a character of two bytes in front of its names, one of which a keyword
adjoins. -/
def crowdedNames : Bytes :=
  Text.encode "VAR \x7b é \x7d n BEGIN READn; WRITE n; END"

def writtenName : Token :=
  ⟨.identifier, "n", ⟨32, 1, 32⟩⟩

theorem word_of_writtenName :
    (∃ checked, check crowdedNames = .ok checked) ∧ writtenName ∈ Token.scan crowdedNames ∧
      ∀ column : UInt32, 32 ≤ column.toNat → column.toNat ≤ 33 →
        wordAt crowdedNames ⟨0, column⟩ = Text.encode "n" := by
  obtain ⟨checked, hCheck, -⟩ : ∃ checked, check crowdedNames = .ok checked ∧ true = true :=
    exists_of_any_toOption (by decide +kernel)
  have hToken : writtenName ∈ Token.scan crowdedNames := by decide +kernel
  obtain ⟨-, hWord⟩ := word_of_name hCheck hToken rfl
  have hBefore : (lineBefore crowdedNames writtenName.position.offset).length = 32 := by
    decide +kernel
  rw [hBefore] at hWord
  have hAlone : ∀ keyword ∈ Token.scan crowdedNames, ¬keyword.Adjoins writtenName := by
    decide +kernel
  exact ⟨⟨checked, hCheck⟩, hToken, fun column hLow hHigh =>
    (hWord ⟨0, column⟩ rfl hLow hHigh).mpr hAlone⟩

/-- The word at a name is not the name behind a character of two bytes, where the column of the
name leads to another place, and next to a keyword, where the word holds the keyword. -/
theorem word_not_name :
    (∃ checked, check crowdedNames = .ok checked) ∧
      (⟨.identifier, "n", ⟨11, 1, 11⟩⟩ ∈ Token.scan crowdedNames ∧
        wordAt crowdedNames ⟨0, 10⟩ = []) ∧
      ⟨.identifier, "n", ⟨23, 1, 23⟩⟩ ∈ Token.scan crowdedNames ∧
        wordAt crowdedNames ⟨0, 22⟩ = Text.encode "READn" := by
  refine ⟨?_, by decide +kernel, by decide +kernel⟩
  obtain ⟨checked, hCheck, -⟩ : ∃ checked, check crowdedNames = .ok checked ∧ true = true :=
    exists_of_any_toOption (by decide +kernel)
  exact ⟨checked, hCheck⟩

end Editor
end RegisterCompiler
