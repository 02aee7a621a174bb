/-
The wording of messages.

What the compiler has to say about a text is one line: names and words of the text have no
line breaks, and whatever else a message holds is fixed or a number.  The places it names are
those of tokens, which count from one.
-/

import RegisterCompiler.Proofs.Editor.Messages
import RegisterCompiler.Proofs.Program.Complaints
import RegisterCompiler.Proofs.Program.Reports
import RegisterCompiler.Proofs.Program.Spans

set_option autoImplicit false

namespace RegisterCompiler

open Source (Position)
open Text (Bytes glyphs)

/-! ### One line -/

namespace OneLine

variable {text : String}

private theorem of_forall (hText : ∀ char ∈ text.toList, char ≠ '\n') : OneLine text :=
  fun hNewline => hText _ hNewline rfl

private theorem kindName (kind : TokenKind) : OneLine kind.name := by
  cases kind <;> decide

private theorem between {opening closing : String} (hOpening : OneLine opening)
    (hText : OneLine text) (hClosing : OneLine closing) : OneLine (opening ++ text ++ closing) :=
  (hOpening.append hText).append hClosing

end OneLine

private theorem ne_newline_of_startsTrivia {char : Char} (hChar : startsTrivia char = false) :
    char ≠ '\n' := by
  rintro rfl
  cases hChar

private theorem LexicalFault.Covers.oneLine {fault : LexicalFault} {covered rest : List Text.Glyph}
    (hCovers : fault.Covers covered rest) : OneLine fault.message := by
  cases fault with
  | unterminatedComment => exact of_decide_eq_true (by rfl)
  | loneColon => exact of_decide_eq_true (by rfl)
  | strayCharacter char =>
      obtain ⟨-, -, hTrivia, -⟩ := hCovers
      have hOpening : OneLine "unexpected character: " := by decide
      have hSingle : (toString char).toList = [char] :=
        String.toList_singleton char
      refine hOpening.append (.of_forall ?_)
      rw [hSingle, List.forall_mem_singleton]
      exact ne_newline_of_startsTrivia hTrivia
  | unknownKeyword word =>
      obtain ⟨-, -, hUpper, -⟩ := hCovers
      have hOpening : OneLine "unknown keyword: " := by decide
      exact hOpening.append (.of_forall fun char hChar =>
        ne_newline_of_startsTrivia (plain_of_run (.inr (.inr (hUpper char hChar)))).2)

private theorem SyntaxFault.NamesKinds.oneLine {fault : SyntaxFault} (hFault : fault.NamesKinds) :
    OneLine fault.message := by
  have hBehind : ∀ {opening : String} (kind : TokenKind), OneLine opening →
      OneLine (opening ++ kind.name) := fun kind hOpening => hOpening.append (.kindName kind)
  cases fault with
  | lexical message => exact absurd rfl (hFault message)
  | expected wanted found =>
      exact hBehind found (.between (by decide) (.kindName wanted) (by decide))
  | unexpectedStart found => exact .between (by decide) (.kindName found) (by decide)
  | unexpectedAfterEnd found => exact .between (by decide) (.kindName found) (by decide)
  | _ => exact hBehind _ (by decide)

theorem Misuse.oneLine {misuse : Misuse} (hName : OneLine misuse.name) : OneLine misuse.message := by
  cases misuse with
  | indexOutOfRange index name length =>
      have hLength := OneLine.int length
      have hIndex := OneLine.nat index
      exact .between (.between (.between (by decide) hIndex (by decide)) hName (by decide)) hLength
        (by decide)
  | _ => exact .between (by decide) hName (by decide)

/-! ### Tokens -/

/-- A place that counts lines and columns from one. -/
structure Source.Position.Counted (position : Position) : Prop where
  line : 0 < position.line
  column : 0 < position.column

namespace Token

variable {text : Bytes} {token : Token}

private theorem counted_pass (passed : List Text.Glyph) : (Position.start.pass passed).Counted := by
  rw [Position.start_pass_eq]
  exact ⟨Nat.add_pos_left Nat.one_pos _, Nat.add_pos_left Nat.one_pos _⟩

private theorem Covers.oneLine {covered rest : List Text.Glyph}
    (hCovers : token.Covers covered rest) :
    OneLine token.literal := by
  cases hCovers with
  | text _ _ _ hText =>
      exact .of_forall fun char hChar => ne_newline_of_startsTrivia (hText.plain.2 char hChar).2
  | fault fault _ hLiteral hCovers =>
      rw [hLiteral]
      exact hCovers.oneLine

private theorem counted_of_mem_scan (hToken : token ∈ scan text) :
    token.position.Counted ∧ OneLine token.literal := by
  obtain ⟨consumed, rest, tokens, hGlyphs, hRow, hStops⟩ := exists_row (glyphs text) .start
  rw [scan_of_row hGlyphs hRow hStops, List.mem_append, List.mem_singleton] at hToken
  rcases hToken with hInside | rfl
  · obtain ⟨front, _, _, -, hPosition, hCovers⟩ := hRow.exists_covered hInside
    exact ⟨hPosition ▸ counted_pass front, hCovers.oneLine⟩
  · exact ⟨counted_pass consumed, of_decide_eq_true (by rfl)⟩

end Token

/-! ### Errors and complaints -/

theorem legible_of_mem_errors {text : Bytes} {error : SyntaxError}
    (hError : error ∈ (readProgram text).errors) :
    0 < error.line ∧ OneLine error.fault.message := by
  obtain ⟨token, hToken, hLine, hFault⟩ := concerns_readProgram hError
  obtain ⟨hCounted, hLiteral⟩ := Token.counted_of_mem_scan hToken
  refine ⟨hLine ▸ hCounted.line, ?_⟩
  rcases hFault with ⟨-, hLexical⟩ | hNames
  · rw [hLexical]
    exact hLiteral
  · exact hNames.oneLine

/-- A complaint that can be shown: it is at a place, and it is one line. -/
structure Complaint.Legible (complaint : Complaint) : Prop where
  counted : complaint.position.Counted
  oneLine : OneLine complaint.misuse.message

section Parsed

variable {text : Bytes} {program : Program}

private theorem exists_tokens_of_occurs (hParse : parse text = .ok program) {node : Node}
    (hNode : Node.Occurs (.program program) node) : ∃ part later,
      (∀ token ∈ part, token ∈ Token.scan text) ∧ Node.Laid part later node := by
  obtain ⟨last, hScan, hProgram⟩ := laid_of_parse hParse
  obtain ⟨front, part, back, hBody, hLaid, -⟩ := hProgram.exists_of_occurs rfl hNode
  refine ⟨part, back ++ [last], fun token hToken => ?_, hLaid⟩
  rw [hScan, hBody]
  exact List.mem_append_left _ (List.mem_append_right _ (List.mem_append_left _ hToken))

theorem counted_of_occurs (hParse : parse text = .ok program) {node : Node}
    (hNode : Node.Occurs (.program program) node) : node.span.first.Counted := by
  obtain ⟨part, later, hTokens, ⟨-, ⟨first, hFirst, hStart⟩, -⟩⟩ :=
    exists_tokens_of_occurs hParse hNode
  rw [hStart]
  exact (Token.counted_of_mem_scan (hTokens first (List.mem_of_mem_head? hFirst))).1

theorem oneLine_of_mem_symbols (hParse : parse text = .ok program) {node : Node}
    (hNode : Node.Occurs (.program program) node) {name : String}
    (hName : Symbol.name name ∈ node.symbols) : OneLine name := by
  obtain ⟨part, later, hTokens, ⟨hSymbols, -, -⟩⟩ := exists_tokens_of_occurs hParse hNode
  rw [hSymbols] at hName
  obtain ⟨token, hToken, hSymbol⟩ := List.mem_map.mp hName
  obtain ⟨-, rfl⟩ := Token.of_symbol_name hSymbol
  exact (Token.counted_of_mem_scan (hTokens token hToken)).2

theorem legible_of_mem_complaints (hParse : parse text = .ok program) {complaint : Complaint}
    (hComplaint : complaint ∈ (analyze program).complaints) : complaint.Legible := by
  obtain ⟨node, hNode, hPosition, hName⟩ := about_of_mem_complaints hComplaint
  exact ⟨hPosition ▸ counted_of_occurs hParse hNode,
    Misuse.oneLine (oneLine_of_mem_symbols hParse hNode hName)⟩

end Parsed

end RegisterCompiler
