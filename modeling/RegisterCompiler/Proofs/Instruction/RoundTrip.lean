/-
Instructions are read back from their text.

An instruction is printed with the operands its opcode takes.  Its text is read back as the
instruction without the others, wherever it stands among blank lines.  What is read from any
line, however that is spaced and its numbers are written, is read again from its own text.
-/

import RegisterCompiler.Proofs.Image.Builds
import RegisterCompiler.Proofs.Machine.Refinement

set_option autoImplicit false

namespace RegisterCompiler

def Shape.hasTarget : Shape → Bool
  | .target | .registerTarget => true
  | .none | .register => false

namespace Text

/-! ### Blank lines -/

theorem words_eq_nil {line : String} (hBlank : line.toList.all isBlank = true) :
    words line = [] := by
  have hLeading : ∀ chars : List Char, chars.all isBlank = true →
      leadingRun isBlank chars = (([], chars.head?), []) := by
    intro chars hChars
    induction chars with
    | nil => rfl
    | cons char rest inductionHypothesis =>
        rw [List.all_cons, Bool.and_eq_true] at hChars
        simp [leadingRun, inductionHypothesis hChars.2, hChars.1, pushRun]
  simp [words, runs, closedRuns, hLeading _ hBlank, pushRun]

private theorem lines_intercalate {texts : List String} (hSome : texts ≠ [])
    (hTexts : ∀ text ∈ texts, '\n' ∉ text.toList) :
    lines (String.intercalate "\n" texts) = texts := by
  have hPiece : ∀ text ∈ texts, ∀ char ∈ text.toList, (char == '\n') = false := by
    intro text hText char hChar
    apply beq_eq_false_iff_ne.mpr
    intro hSame
    exact hTexts text hText (hSame ▸ hChar)
  have hSplit : splitAt (· == '\n') (String.intercalate "\n" texts).toList =
      texts.map String.toList := by
    induction texts with
    | nil => contradiction
    | cons text rest inductionHypothesis =>
        have hFirst := splitAt_of_none (· == '\n') (hPiece text List.mem_cons_self)
        by_cases hLast : rest = []
        · rw [hLast]
          simpa using hFirst
        · have hRest := inductionHypothesis hLast
            (fun other hOther => hTexts other (List.mem_cons_of_mem text hOther))
            fun other hOther => hPiece other (List.mem_cons_of_mem text hOther)
          have hNewline : "\n".toList = ['\n'] := rfl
          rw [String.intercalate_cons_of_ne_nil hLast, String.toList_append, String.toList_append,
            hNewline, List.append_assoc, List.singleton_append,
            splitAt_append_separator _ _ (by decide), hFirst, hRest]
          rfl
  rw [lines, hSplit, List.map_map]
  simp

end Text

namespace Instruction

/-- An instruction with zero for each operand its opcode does not take. -/
def plain (instruction : Instruction) : Instruction where
  opcode := instruction.opcode
  register := if instruction.opcode.shape.hasRegister then instruction.register else 0
  target := if instruction.opcode.shape.hasTarget then instruction.target else 0

/-- An instruction with a meaning and operands that are naturals of a signed 64-bit word. -/
structure Legible (instruction : Instruction) : Prop where
  isDefined : instruction.opcode.isDefined = true
  operands : ∀ operand ∈ instruction.operands, 0 ≤ operand ∧ Text.fitsSigned64 operand = true

variable {instruction : Instruction}

private theorem ofOperands_operands (instruction : Instruction) :
    ofOperands instruction.opcode instruction.operands = instruction.plain := by
  unfold ofOperands operands plain
  cases instruction.opcode.shape <;> rfl

private theorem length_operands (instruction : Instruction) :
    instruction.operands.length = instruction.opcode.shape.arity := by
  unfold operands
  cases instruction.opcode.shape <;> rfl

private theorem Legible.accepts (hLegible : instruction.Legible) :
    instruction.opcode.Accepts instruction.operands where
  isDefined := hLegible.isDefined
  arity := instruction.length_operands
  nonnegative := fun operand hOperand => (hLegible.operands operand hOperand).1

private theorem Legible.decode_text (hLegible : instruction.Legible) :
    decode instruction.text = .ok instruction.plain := by
  have hFits : instruction.operands.all Text.fitsSigned64 = true :=
    List.all_eq_true.mpr fun operand hOperand => (hLegible.operands operand hOperand).2
  rw [text, decode_words hLegible.accepts hFits, ofOperands_operands]

/-! ### Lines that are read -/

theorem nonnegative_of_operandValues {line : String} {words : List String} {values : List Int}
    (hValues : operandValues line words = .ok values) : ∀ value ∈ values, 0 ≤ value := by
  intro value hValue
  rcases (words_of_operandValues hValues).2 value hValue with ⟨word, -, hWord⟩
  exact of_decide_eq_true (Option.filter_eq_some_iff.mp hWord).2

private theorem legible_of_decode {line : String} (hDecode : decode line = .ok instruction) :
    instruction.Legible ∧ instruction.plain = instruction := by
  unfold decode at hDecode
  split at hDecode
  · contradiction
  rename_i words hWords
  split at hDecode
  · contradiction
  rename_i opcode hName
  split at hDecode
  · rename_i hArity
    cases hValues : operandValues line words with
    | error fault =>
        rw [hValues] at hDecode
        contradiction
    | ok values =>
        rw [hValues] at hDecode
        obtain rfl := Except.ok.inj hDecode
        have hNonnegative := nonnegative_of_operandValues hValues
        have hAccepts : opcode.Accepts values :=
          ⟨Opcode.isDefined_of_ofName? hName, (words_of_operandValues hValues).1.trans hArity,
            hNonnegative⟩
        have hOperands := operands_ofOperands hAccepts
        constructor
        · constructor
          · rw [opcode_ofOperands]
            exact hAccepts.isDefined
          · rw [hOperands]
            exact fun value hValue => ⟨hNonnegative value hValue,
              fitsSigned64_of_operandValues hValues value hValue⟩
        · rw [← ofOperands_operands, opcode_ofOperands, hOperands]
  · split at hDecode <;> contradiction

/-- A jump whose last operand is missing is told apart. -/
theorem decode_unresolved {line name : String} {opcode : Opcode} {operands : List String}
    (hWords : Text.words line = name :: operands) (hName : Opcode.ofName? name = some opcode)
    (hJump : opcode.isJump = true) (hMissing : operands.length + 1 = opcode.shape.arity) :
    decode line = .error (.unresolved line) := by
  have hOther : operands.length ≠ opcode.shape.arity := by omega
  simp only [decode, hWords, hName, if_neg hOther, hMissing, hJump, decide_true, Bool.and_self,
    if_true]

end Instruction

/-! ### Programs -/

/-- The lines that are not blank are read in order. -/
theorem assembleLines_of_filter {code : List Instruction} {lines : List String}
    (hLegible : ∀ instruction ∈ code, instruction.Legible)
    (hLines : lines.filter (fun line => !line.toList.all Text.isBlank) =
      code.map Instruction.text) (first : Nat) :
    assembleLines first lines = .ok (code.map Instruction.plain) := by
  induction lines generalizing code first with
  | nil =>
      rw [List.filter_nil, eq_comm, List.map_eq_nil_iff] at hLines
      rw [hLines]
      rfl
  | cons line rest inductionHypothesis =>
      cases hBlank : line.toList.all Text.isBlank with
      | true =>
          rw [List.filter_cons_of_neg (by simp [hBlank])] at hLines
          simp only [assembleLines, Text.words_eq_nil hBlank, List.isEmpty_nil, if_true]
          exact inductionHypothesis hLegible hLines (first + 1)
      | false =>
          rw [List.filter_cons_of_pos (by simp [hBlank])] at hLines
          cases code with
          | nil => contradiction
          | cons instruction code =>
              rcases List.cons.inj hLines with ⟨rfl, hRest⟩
              have hHere := hLegible instruction List.mem_cons_self
              have hLater := inductionHypothesis
                (fun other hOther => hLegible other (List.mem_cons_of_mem _ hOther)) hRest
                (first + 1)
              have hWords := Instruction.words_words hHere.accepts
              simp only [assembleLines, Instruction.text, hWords, List.isEmpty_cons,
                Bool.false_eq_true, if_false]
              rw [← Instruction.text, hHere.decode_text, hLater]
              rfl

private theorem assemble_intercalate {code : List Instruction} {lines : List String}
    (hLegible : ∀ instruction ∈ code, instruction.Legible)
    (hOneLine : ∀ line ∈ lines, '\n' ∉ line.toList)
    (hLines : lines.filter (fun line => !line.toList.all Text.isBlank) =
      code.map Instruction.text) :
    assemble (String.intercalate "\n" lines) = .ok (code.map Instruction.plain) := by
  by_cases hSome : lines = []
  · rw [hSome, List.filter_nil, eq_comm, List.map_eq_nil_iff] at hLines
    rw [hSome, hLines]
    rfl
  · rw [assemble, Text.lines_intercalate hSome hOneLine]
    exact assembleLines_of_filter hLegible hLines 1

open Instruction (decode)

/-- The text of an instruction, and of a program with blank lines, is read back.  What is read
from any line is read again from its own text, and a jump without its last operand is reported
as unresolved. -/
theorem instruction_text_round_trips :
    (∀ instruction : Instruction, instruction.Legible →
      decode instruction.text = .ok instruction.plain) ∧
    (∀ (line : String) (instruction : Instruction), decode line = .ok instruction →
      decode instruction.text = .ok instruction) ∧
    (∀ (code : List Instruction) (lines : List String),
      (∀ instruction ∈ code, instruction.Legible) → (∀ line ∈ lines, '\n' ∉ line.toList) →
      lines.filter (fun line => !line.toList.all Text.isBlank) = code.map Instruction.text →
        assemble (String.intercalate "\n" lines) = .ok (code.map Instruction.plain)) ∧
    ∀ (line name : String) (opcode : Opcode) (operands : List String),
      Text.words line = name :: operands → Opcode.ofName? name = some opcode →
      opcode.isJump = true → operands.length + 1 = opcode.shape.arity →
        decode line = .error (.unresolved line) := by
  refine ⟨fun instruction hLegible => hLegible.decode_text, ?_, ?_, ?_⟩
  · intro line instruction hDecode
    have hRead := Instruction.legible_of_decode hDecode
    rw [hRead.1.decode_text, hRead.2]
  · intro code lines hLegible hOneLine hLines
    exact assemble_intercalate hLegible hOneLine hLines
  · intro line name opcode operands hWords hName hJump hMissing
    exact Instruction.decode_unresolved hWords hName hJump hMissing

theorem jump_text_round_trips :
    decode (Instruction.text ⟨.jump, 5, 9223372036854775807⟩) =
        .ok ⟨.jump, 0, 9223372036854775807⟩ ∧
      decode "\tJZERO  +03 007 " = .ok ⟨.jzero, 3, 7⟩ ∧
      decode (Instruction.text ⟨.jzero, 3, 7⟩) = .ok ⟨.jzero, 3, 7⟩ ∧
      assemble (String.intercalate "\n" ["", "INC 1", " \t", "HALT", ""]) =
        .ok [⟨.inc, 1, 0⟩, ⟨.halt, 0, 0⟩] ∧
      decode " JZERO 3" = .error (.unresolved " JZERO 3") := by
  have hLegible : ∀ instruction ∈ [(⟨.inc, 1, 0⟩ : Instruction), ⟨.halt, 0, 0⟩],
      instruction.Legible := by
    simp only [List.forall_mem_cons]
    exact ⟨⟨rfl, by decide⟩, ⟨rfl, by decide⟩, nofun⟩
  have hRead : decode "\tJZERO  +03 007 " = .ok ⟨.jzero, 3, 7⟩ := by decide
  refine ⟨instruction_text_round_trips.1 _ ⟨rfl, by decide⟩, hRead,
    instruction_text_round_trips.2.1 _ _ hRead, ?_, ?_⟩
  · exact instruction_text_round_trips.2.2.1 [⟨.inc, 1, 0⟩, ⟨.halt, 0, 0⟩] _ hLegible (by decide)
      (by decide)
  · exact instruction_text_round_trips.2.2.2 " JZERO 3" "JZERO" .jzero ["3"] (by decide)
      (by decide) rfl rfl

end RegisterCompiler
