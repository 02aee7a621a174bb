/-
The tokens of a text, one after the other.

A row says which characters each token covers and what stands before it.  Every text has a
row of tokens up to its end, and splitting the text gives this row: nothing of the text is
left out, and every place is the one that the offset gives.
-/

import RegisterCompiler.Proofs.Token.Scanning
import RegisterCompiler.Proofs.Token.Tiling

set_option autoImplicit false

namespace RegisterCompiler

open Source (Position placeAt)
open Text (Bytes Glyph glyphs)

namespace Token

/-- Tokens one after the other from a place on, up to the characters `rest`. -/
inductive Row : Position → List Glyph → List Glyph → List Token → Prop where
  | nil {start : Position} {gap rest : List Glyph} (hGap : Trivia gap) : Row start gap rest []
  | cons {start : Position} {gap covered later rest : List Glyph} {token : Token}
      {tokens : List Token} (hGap : Trivia gap) (hPosition : token.position = start.pass gap)
      (hCovers : token.Covers covered (later ++ rest))
      (hRow : Row (start.pass (gap ++ covered)) later rest tokens) :
      Row start (gap ++ (covered ++ later)) rest (token :: tokens)

variable {start : Position} {consumed rest : List Glyph} {tokens : List Token}

private theorem Covers.kind_ne {token : Token} {covered : List Glyph}
    (hCovers : token.Covers covered rest) : token.kind ≠ .endOfInput := by
  cases hCovers with
  | text hEnd => exact hEnd
  | fault _ hKind =>
      rw [hKind]
      exact nofun

theorem Covers.ne_nil {token : Token} {covered : List Glyph} (hCovers : token.Covers covered rest) :
    covered ≠ [] := by
  rintro rfl
  cases hCovers with
  | text hEnd hError hCovered hText => exact hText.plain.1 hCovered.symm
  | fault fault hKind hLiteral hCovers =>
      cases fault with
      | unterminatedComment =>
          obtain ⟨opening, inner, hNone, -⟩ := hCovers
          cases hNone
      | loneColon => cases hCovers.1
      | strayCharacter char => cases hCovers.1
      | unknownKeyword word => exact hCovers.2.1 hCovers.1.symm

/-! ### Splitting a text gives its row -/

theorem exists_row (ahead : List Glyph) (start : Position) :
    ∃ consumed rest tokens, ahead = consumed ++ rest ∧ Row start consumed rest tokens ∧
      Stops rest := by
  induction hSize : ahead.length using Nat.strong_induction_on generalizing ahead start with
  | _ size inductionHypothesis =>
      subst hSize
      obtain ⟨gap, behind, rfl, hGap, hStops | hToken⟩ := exists_next ahead start
      · exact ⟨gap, behind, [], rfl, .nil hGap, hStops⟩
      · obtain ⟨token, covered, later, rfl, hSome, hPosition, hCovers⟩ := hToken
        have hShorter : later.length < (gap ++ (covered ++ later)).length := by
          have hPositive := List.length_pos_of_ne_nil hSome
          simp only [List.length_append]
          omega
        obtain ⟨consumed, rest, tokens, rfl, hRow, hStops⟩ :=
          inductionHypothesis later.length hShorter later (start.pass (gap ++ covered)) rfl
        exact ⟨gap ++ (covered ++ consumed), rest, token :: tokens, by simp,
          .cons hGap hPosition hCovers hRow, hStops⟩

private theorem scanFrom_of_row (hRow : Row start consumed rest tokens) (hStops : Stops rest)
    {fuel : Nat} (hFuel : consumed.length < fuel) :
    scanFrom fuel ⟨consumed ++ rest, start⟩ =
      tokens ++ [⟨.endOfInput, "", start.pass consumed⟩] := by
  induction hRow generalizing fuel with
  | nil hGap =>
      obtain ⟨fuel, rfl⟩ := Nat.exists_eq_succ_of_ne_zero (Nat.ne_zero_of_lt hFuel)
      rw [scanFrom, next_of_stops hGap hStops]
      rfl
  | cons hGap hPosition hCovers _ inductionHypothesis =>
      rename_i gap covered later rest token tokens _
      obtain ⟨fuel, rfl⟩ := Nat.exists_eq_succ_of_ne_zero (Nat.ne_zero_of_lt hFuel)
      have hShorter : later.length < fuel := by
        have hPositive := List.length_pos_of_ne_nil hCovers.ne_nil
        simp only [List.length_append] at hFuel
        omega
      rw [List.append_assoc, List.append_assoc, scanFrom, next_of_covers hGap hPosition hCovers]
      simp only [if_neg hCovers.kind_ne]
      rw [inductionHypothesis hStops hShorter, ← Position.pass_append, List.append_assoc]
      rfl

theorem scan_of_row {text : Bytes} (hGlyphs : glyphs text = consumed ++ rest)
    (hRow : Row .start consumed rest tokens) (hStops : Stops rest) :
    scan text = tokens ++ [⟨.endOfInput, "", Position.start.pass consumed⟩] := by
  have hFuel : consumed.length < (consumed ++ rest).length + 1 := by
    rw [List.length_append]
    omega
  unfold scan Cursor.ofBytes
  simp only [hGlyphs]
  exact scanFrom_of_row hRow hStops hFuel

/-! ### The tokens of a row -/

theorem Covers.bytes_eq {token : Token} {covered : List Glyph} (hCovers : token.Covers covered rest)
    (hError : token.kind ≠ .error) (hRead : ∀ glyph ∈ covered, glyph.IsRead) :
    covered.flatMap Glyph.bytes = Text.encode token.literal := by
  cases hCovers with
  | fault _ hKind => exact absurd hKind hError
  | text hEnd _ hCovered hText =>
      have hPlain := hText.plain.2
      rw [← hCovered, List.forall_mem_map] at hPlain
      rw [Text.encode, ← hCovered, List.flatMap_map]
      exact List.flatMap_congr fun glyph hGlyph =>
        (hRead glyph hGlyph).bytes_eq (hPlain glyph hGlyph).1

theorem Covers.stop_eq {token : Token} {covered : List Glyph} (hCovers : token.Covers covered rest)
    (hError : token.kind ≠ .error) (hRead : ∀ glyph ∈ covered, glyph.IsRead) :
    token.stop = token.position.pass covered := by
  cases hCovers with
  | fault _ hKind => exact absurd hKind hError
  | text hEnd _ hCovered hText =>
      have hPlain := hText.plain.2
      rw [← hCovered, List.forall_mem_map] at hPlain
      rw [stop, Position.pass_eq_shift, ← String.length_toList, ← hCovered, List.length_map]
      intro glyph hGlyph
      obtain ⟨hChar, hTrivia⟩ := hPlain glyph hGlyph
      constructor
      · intro hNewline
        rw [hNewline] at hTrivia
        cases hTrivia
      · rw [(hRead glyph hGlyph).bytes_eq hChar, Text.encodeChar, if_pos hChar]
        rfl

theorem Row.exists_covered (hRow : Row start consumed rest tokens) {token : Token}
    (hToken : token ∈ tokens) : ∃ front covered later, consumed = front ++ (covered ++ later) ∧
      token.position = start.pass front ∧ token.Covers covered (later ++ rest) := by
  induction hRow with
  | nil => cases hToken
  | cons hGap hPosition hCovers _ inductionHypothesis =>
      rename_i start gap covered later rest first tokens _
      rcases List.mem_cons.mp hToken with rfl | hLater
      · exact ⟨gap, covered, later, rfl, hPosition, hCovers⟩
      · obtain ⟨front, other, back, hSplit, hPlace, hOther⟩ := inductionHypothesis hLater
        refine ⟨gap ++ (covered ++ front), other, back, ?_, ?_, hOther⟩
        · rw [hSplit]
          simp only [List.append_assoc]
        · rw [hPlace, ← Position.pass_append, List.append_assoc]

private theorem Row.offset_bounds (hRow : Row start consumed rest tokens)
    (hRead : ∀ glyph ∈ consumed, glyph.IsRead) {token : Token} (hToken : token ∈ tokens) :
    start.offset ≤ token.position.offset ∧
      token.position.offset < (start.pass consumed).offset := by
  obtain ⟨front, covered, later, rfl, hPosition, hCovers⟩ := hRow.exists_covered hToken
  have hSome : covered ++ later ≠ [] := List.append_ne_nil_of_left_ne_nil hCovers.ne_nil _
  rw [hPosition, Position.pass_append]
  exact ⟨Position.offset_le_pass _ _, Position.offset_lt_pass _ hSome fun glyph hGlyph =>
    hRead glyph (List.mem_append_right _ hGlyph)⟩

private theorem Row.pairwise (hRow : Row start consumed rest tokens)
    (hRead : ∀ glyph ∈ consumed, glyph.IsRead) :
    tokens.Pairwise fun left right => left.position.offset < right.position.offset := by
  induction hRow with
  | nil => exact .nil
  | cons hGap hPosition hCovers hRow inductionHypothesis =>
      rename_i start gap covered later rest token tokens
      obtain ⟨-, hBehind⟩ := List.forall_mem_append.mp hRead
      obtain ⟨hCovered, hLater⟩ := List.forall_mem_append.mp hBehind
      refine .cons (fun other hOther => ?_) (inductionHypothesis hLater)
      have hFirst := (hRow.offset_bounds hLater hOther).1
      rw [Position.pass_append, ← hPosition] at hFirst
      exact Nat.lt_of_lt_of_le (Position.offset_lt_pass _ hCovers.ne_nil hCovered) hFirst

/-- Tokens that spell something end before the next one starts. -/
theorem Row.stop_le (hRow : Row start consumed rest tokens)
    (hRead : ∀ glyph ∈ consumed, glyph.IsRead) (hErrors : ∀ token ∈ tokens, token.kind ≠ .error) :
    (∀ token ∈ tokens, token.stop.offset ≤ (start.pass consumed).offset) ∧
      tokens.Pairwise fun left right => left.stop.offset ≤ right.position.offset := by
  induction hRow with
  | nil => exact ⟨List.forall_mem_nil _, .nil⟩
  | cons hGap hPosition hCovers hRow inductionHypothesis =>
      rename_i start gap covered later rest token tokens
      obtain ⟨-, hBehind⟩ := List.forall_mem_append.mp hRead
      obtain ⟨hCovered, hLater⟩ := List.forall_mem_append.mp hBehind
      obtain ⟨hError, hOthers⟩ := List.forall_mem_cons.mp hErrors
      obtain ⟨hInside, hPairs⟩ := inductionHypothesis hLater hOthers
      have hStop : token.stop = start.pass (gap ++ covered) := by
        rw [hCovers.stop_eq hError hCovered, hPosition, Position.pass_append]
      rw [← List.append_assoc, Position.pass_append]
      refine ⟨List.forall_mem_cons.mpr ⟨?_, hInside⟩, .cons (fun other hOther => ?_) hPairs⟩
      · rw [hStop]
        exact Position.offset_le_pass _ _
      · rw [hStop]
        exact (hRow.offset_bounds hLater hOther).1

/-! ### Stretches of a row -/

theorem Covers.of_append {token : Token} {covered later : List Glyph}
    (hCovers : token.Covers covered (later ++ rest)) : token.Covers covered later := by
  have hHead : ∀ glyph ∈ later.head?, glyph ∈ (later ++ rest).head? := by
    cases later with
    | nil => exact nofun
    | cons => exact fun _ => id
  cases hCovers with
  | text hEnd hError hCovered hText hRest =>
      exact .text hEnd hError hCovered hText fun glyph hGlyph => hRest glyph (hHead glyph hGlyph)
  | fault fault hKind hLiteral hCovers =>
      refine .fault fault hKind hLiteral ?_
      cases fault with
      | unterminatedComment =>
          obtain ⟨opening, inner, hCovered, hOpening, hInner, hRest⟩ := hCovers
          exact ⟨opening, inner, hCovered, hOpening, hInner, fun glyph hGlyph =>
            hRest glyph (hHead glyph hGlyph)⟩
      | loneColon => exact ⟨hCovers.1, fun glyph hGlyph => hCovers.2 glyph (hHead glyph hGlyph)⟩
      | strayCharacter char => exact hCovers
      | unknownKeyword word =>
          obtain ⟨hCovered, hSome, hRun, hRest, hUnknown⟩ := hCovers
          exact ⟨hCovered, hSome, hRun, fun glyph hGlyph => hRest glyph (hHead glyph hGlyph),
            hUnknown⟩

private theorem Covers.move {token : Token} {covered : List Glyph}
    (hCovers : token.Covers covered rest) (position : Position) :
    Covers ⟨token.kind, token.literal, position⟩ covered rest := by
  cases hCovers with
  | text hEnd hError hCovered hText hRest => exact .text hEnd hError hCovered hText hRest
  | fault fault hKind hLiteral hCovers => exact .fault fault hKind hLiteral hCovers

/-- A row can be cut behind any of its tokens. -/
theorem Row.exists_split {front back : List Token}
    (hRow : Row start consumed rest (front ++ back)) :
    ∃ before after, consumed = before ++ after ∧ Row start before (after ++ rest) front ∧
      Row (start.pass before) after rest back ∧
      match front.getLast? with
      | none => before = []
      | some last => ∃ lead covered, before = lead ++ covered ∧ last.position = start.pass lead ∧
          last.Covers covered (after ++ rest) := by
  induction front generalizing start consumed with
  | nil => exact ⟨[], consumed, rfl, .nil .nil, hRow, rfl⟩
  | cons first front inductionHypothesis =>
      cases hRow with
      | cons hGap hPosition hCovers hRow =>
          rename_i gap covered later
          obtain ⟨before, after, rfl, hFront, hBack, hLast⟩ := inductionHypothesis hRow
          refine ⟨gap ++ (covered ++ before), after, by simp, .cons hGap hPosition ?_ hFront, ?_, ?_⟩
          · rwa [List.append_assoc] at hCovers
          · rwa [← List.append_assoc, Position.pass_append]
          · rw [List.getLast?_cons]
            cases hEnd : front.getLast? with
            | none =>
                rw [hEnd] at hLast
                subst hLast
                exact ⟨gap, covered, by simp, hPosition, hCovers⟩
            | some last =>
                rw [hEnd] at hLast
                obtain ⟨lead, other, rfl, hPlace, hOther⟩ := hLast
                refine ⟨gap ++ (covered ++ lead), other, by simp, ?_, hOther⟩
                rw [← List.append_assoc, Position.pass_append, ← hPlace]
                rfl

private theorem Row.exists_strip {first : Token} (hRow : Row start consumed rest tokens)
    (hFirst : tokens.head? = some first) : ∃ gap stretch, consumed = gap ++ stretch ∧
      first.position = start.pass gap ∧ Row first.position stretch rest tokens := by
  cases hRow with
  | nil => cases hFirst
  | @cons _ gap covered later _ token tokens hGap hPosition hCovers hRow =>
      obtain rfl := Option.some.inj hFirst
      refine ⟨gap, covered ++ later, rfl, hPosition, ?_⟩
      change Row token.position ([] ++ (covered ++ later)) rest (token :: tokens)
      refine .cons .nil rfl hCovers ?_
      rwa [List.nil_append, hPosition, ← Position.pass_append]

theorem Row.append_trivia {gap : List Glyph} (hRow : Row start consumed (gap ++ rest) tokens)
    (hGap : Trivia gap) : Row start (consumed ++ gap) rest tokens := by
  generalize hBehind : gap ++ rest = behind at hRow
  induction hRow with
  | nil hFirst => exact .nil (hFirst.append hGap)
  | cons hFirst hPosition hCovers _ inductionHypothesis =>
      subst hBehind
      rw [List.append_assoc, List.append_assoc]
      refine .cons hFirst hPosition ?_ (inductionHypothesis rfl)
      rwa [List.append_assoc]

section Stretches

variable {front middle back : List Token} {first : Token}

/-- The tokens of a stretch of a row, from the first character of the first to the last
character of the last. -/
theorem Row.exists_stretch {last : Token}
    (hRow : Row start consumed rest (front ++ (middle ++ back)))
    (hRead : ∀ glyph ∈ consumed, glyph.IsRead) (hFirst : middle.head? = some first)
    (hLast : middle.getLast? = some last) (hError : last.kind ≠ .error) :
    ∃ before stretch after, consumed = before ++ (stretch ++ after) ∧
      first.position = start.pass before ∧ last.stop = first.position.pass stretch ∧
      Row first.position stretch (after ++ rest) middle := by
  obtain ⟨before, behind, rfl, -, hBehind, -⟩ := hRow.exists_split
  obtain ⟨part, after, rfl, hPart, -, hEnd⟩ := hBehind.exists_split
  rw [hLast] at hEnd
  obtain ⟨lead, closing, hClosing, hPlace, hCloses⟩ := hEnd
  have hClosingRead : ∀ glyph ∈ closing, glyph.IsRead := fun glyph hGlyph =>
    hRead glyph (List.mem_append_right _ (List.mem_append_left _
      (hClosing ▸ List.mem_append_right _ hGlyph)))
  have hStop : last.stop = (start.pass before).pass part := by
    rw [hCloses.stop_eq hError hClosingRead, hPlace, hClosing, Position.pass_append]
  obtain ⟨gap, stretch, rfl, hPosition, hStretch⟩ := hPart.exists_strip hFirst
  refine ⟨before ++ gap, stretch, after, by simp, ?_, ?_, hStretch⟩
  · rw [hPosition, Position.pass_append]
  · rw [hStop, hPosition, Position.pass_append]

/-- The tokens of a stretch of a row, from the first character of the first up to the token
after them. -/
theorem Row.exists_reach {next : Token}
    (hRow : Row start consumed rest (front ++ (middle ++ next :: back)))
    (hFirst : middle.head? = some first) :
    ∃ before stretch after, consumed = before ++ (stretch ++ after) ∧
      first.position = start.pass before ∧ next.position = first.position.pass stretch ∧
      Row first.position stretch (after ++ rest) middle := by
  obtain ⟨before, behind, rfl, -, hBehind, -⟩ := hRow.exists_split
  obtain ⟨part, after, rfl, hPart, hAfter, -⟩ := hBehind.exists_split
  cases hAfter with
  | @cons _ gap covered later _ _ _ hGap hNext hCovers hRow =>
      rw [List.append_assoc] at hPart
      obtain ⟨lead, stretch, hSplit, hPosition, hStretch⟩ :=
        (hPart.append_trivia hGap).exists_strip hFirst
      refine ⟨before ++ lead, stretch, covered ++ later, ?_, ?_, ?_, hStretch⟩
      · rw [List.append_assoc, ← List.append_assoc lead, ← hSplit]
        simp only [List.append_assoc]
      · rw [hPosition, Position.pass_append]
      · rw [hNext, hPosition, ← Position.pass_append, hSplit, Position.pass_append]

end Stretches

def spelling (token : Token) : TokenKind × String :=
  (token.kind, token.literal)

private theorem Row.exists_moved (hRow : Row start consumed rest tokens) (place : Position) :
    ∃ moved, Row place consumed rest moved ∧ moved.map spelling = tokens.map spelling := by
  induction hRow generalizing place with
  | nil hGap => exact ⟨[], .nil hGap, rfl⟩
  | @cons _ gap covered later rest token tokens hGap _ hCovers _ inductionHypothesis =>
      obtain ⟨moved, hRow, hSame⟩ := inductionHypothesis (place.pass (gap ++ covered))
      exact ⟨⟨token.kind, token.literal, place.pass gap⟩ :: moved,
        .cons hGap rfl (hCovers.move _) hRow, congrArg (_ :: ·) hSame⟩

private theorem Row.of_append {later : List Glyph}
    (hRow : Row start consumed (later ++ rest) tokens) :
    Row start consumed later tokens := by
  generalize hBehind : later ++ rest = behind at hRow
  induction hRow with
  | nil hGap => exact .nil hGap
  | cons hGap hPosition hCovers _ inductionHypothesis =>
      subst hBehind
      rw [← List.append_assoc] at hCovers
      exact .cons hGap hPosition hCovers.of_append (inductionHypothesis rfl)

/-- Splitting a stretch of a text by itself gives the tokens it had in the text. -/
theorem scan_stretch {text : Bytes} {front back : List Glyph}
    (hGlyphs : glyphs text = front ++ (consumed ++ back)) (hRow : Row start consumed back tokens) :
    ∃ moved last, scan (consumed.flatMap Glyph.bytes) = moved ++ [last] ∧
      last.kind = .endOfInput ∧ moved.map spelling = tokens.map spelling := by
  have hAlone : Row start consumed ([] ++ back) tokens := hRow
  obtain ⟨moved, hMoved, hSame⟩ := hAlone.of_append.exists_moved .start
  have hStretch : glyphs (consumed.flatMap Glyph.bytes) = consumed ++ [] := by
    rw [Text.glyphs_of_append_middle hGlyphs, List.append_nil]
  exact ⟨moved, _, scan_of_row hStretch hMoved nofun, rfl, hSame⟩

/-! ### The tokens of a text -/

section Scan

variable {text : Bytes}

theorem isRead_of_glyphs (hGlyphs : glyphs text = consumed ++ rest) :
    ∀ glyph ∈ consumed, glyph.IsRead :=
  fun _ hGlyph => Text.isRead_of_mem (hGlyphs ▸ List.mem_append_left rest hGlyph)

theorem Row.position_eq (hGlyphs : glyphs text = consumed ++ rest)
    (hRow : Row .start consumed rest tokens) {token : Token} (hToken : token ∈ tokens) :
    token.position = placeAt text token.position.offset := by
  obtain ⟨front, covered, later, rfl, hPosition, -⟩ := hRow.exists_covered hToken
  rw [hPosition, Position.start_pass_eq_placeAt (hGlyphs.trans (List.append_assoc _ _ _))]
  rfl

/-- The text of a token stands at its place. -/
theorem Row.literal_prefix (hGlyphs : glyphs text = consumed ++ rest)
    (hRow : Row .start consumed rest tokens) {token : Token} (hToken : token ∈ tokens)
    (hError : token.kind ≠ .error) :
    Text.encode token.literal <+: text.drop token.position.offset := by
  obtain ⟨front, covered, later, rfl, hPosition, hCovers⟩ := hRow.exists_covered hToken
  have hRead : ∀ glyph ∈ covered, glyph.IsRead := fun glyph hGlyph =>
    isRead_of_glyphs hGlyphs glyph (List.mem_append_right _ (List.mem_append_left _ hGlyph))
  rw [← hCovers.bytes_eq hError hRead, hPosition,
    (Position.split_at_pass (hGlyphs.trans (List.append_assoc _ _ _))).2, List.append_assoc,
    List.flatMap_append]
  exact List.prefix_append _ _

/-- The end of input is the end of the text or a NUL. -/
theorem stops_at_end (hGlyphs : glyphs text = consumed ++ rest) (hStops : Stops rest) :
    (consumed.flatMap Glyph.bytes).length = text.length ∨
      text[(consumed.flatMap Glyph.bytes).length]? = some 0 := by
  have hText : text = consumed.flatMap Glyph.bytes ++ rest.flatMap Glyph.bytes := by
    rw [← List.flatMap_append, ← hGlyphs, Text.flatMap_bytes_glyphs]
  cases rest with
  | nil =>
      left
      rw [hText]
      simp
  | cons glyph rest =>
      right
      have hRead : glyph.IsRead :=
        Text.isRead_of_mem (hGlyphs ▸ List.mem_append_right _ List.mem_cons_self)
      have hNul : glyph.char = Char.ofNat 0 := hStops glyph rfl
      have hBytes : glyph.bytes = [0] := by
        rw [hRead.bytes_eq (by rw [hNul]; decide), hNul]
        rfl
      rw [hText, List.flatMap_cons, hBytes, List.getElem?_append_right (Nat.le_refl _), Nat.sub_self]
      rfl

end Scan

/-- A text is its tokens with blanks and closed comments between them, up to its end or a NUL.
The places of the tokens grow, and they are the ones that their offsets give. -/
theorem scan_tiles (text : Bytes) :
    ∃ tokens last consumed rest,
      scan text = tokens ++ [last] ∧
      (last.kind = .endOfInput ∧ ∀ token ∈ tokens, token.kind ≠ .endOfInput) ∧
      (scan text).Pairwise (fun left right => left.position.offset < right.position.offset) ∧
      (∀ token ∈ tokens, token.kind ≠ .error →
        Text.encode token.literal <+: text.drop token.position.offset) ∧
      (glyphs text = consumed ++ rest ∧ Row .start consumed rest tokens) ∧
      (last.position.offset = (consumed.flatMap Glyph.bytes).length ∧
        (last.position.offset = text.length ∨ text[last.position.offset]? = some 0)) ∧
      ∀ token ∈ scan text, token.position = placeAt text token.position.offset := by
  obtain ⟨consumed, rest, tokens, hGlyphs, hRow, hStops⟩ := exists_row (glyphs text) .start
  have hScan := scan_of_row hGlyphs hRow hStops
  have hRead := isRead_of_glyphs hGlyphs
  have hOffset : (Position.start.pass consumed).offset = (consumed.flatMap Glyph.bytes).length := by
    rw [Position.offset_pass]
    exact Nat.zero_add _
  refine ⟨tokens, _, consumed, rest, hScan, ⟨rfl, fun token hToken => ?_⟩, ?_,
    fun token => hRow.literal_prefix hGlyphs, ⟨hGlyphs, hRow⟩, ⟨hOffset, ?_⟩, ?_⟩
  · obtain ⟨_, _, _, _, _, hCovers⟩ := hRow.exists_covered hToken
    exact hCovers.kind_ne
  · rw [hScan, List.pairwise_append]
    refine ⟨hRow.pairwise hRead, List.pairwise_singleton _ _, fun token hToken last hLast => ?_⟩
    rw [List.mem_singleton.mp hLast]
    exact (hRow.offset_bounds hRead hToken).2
  · rw [hOffset]
    exact stops_at_end hGlyphs hStops
  · rw [hScan]
    refine List.forall_mem_append.mpr ⟨fun token => hRow.position_eq hGlyphs,
      List.forall_mem_singleton.mpr ?_⟩
    exact (Position.start_pass_eq_placeAt hGlyphs).trans (by rw [hOffset])

end Token

end RegisterCompiler
