/-
Instructions as text.

A line that spells an opcode and as many nonnegative operands as the opcode takes is
read back as that instruction, provided the operands fit a signed 64-bit word.  A
program text is read back line by line.
-/

import Mathlib.Data.List.Basic
import RegisterCompiler.Listing
import RegisterCompiler.Proofs.Text.Pieces

set_option autoImplicit false

namespace RegisterCompiler
namespace Text

/-! ### Numbers -/

theorem digitValue_digitChar {digit : Nat} (hDigit : digit < 10) :
    isDigit digit.digitChar = true ∧ digitValue digit.digitChar = digit := by
  have hAll : ∀ found : Fin 10, isDigit found.val.digitChar = true ∧
      digitValue found.val.digitChar = found.val := by
    decide
  exact hAll ⟨digit, hDigit⟩

private theorem toDigits_ne_nil (number : Nat) : Nat.toDigits 10 number ≠ [] := by
  rw [Nat.toDigits_eq_if (by omega)]
  split <;> simp

theorem natural?_toDigits (number : Nat) : natural? (Nat.toDigits 10 number) = some number := by
  have hSpelled : (Nat.toDigits 10 number).all isDigit = true ∧
      digitsValue (Nat.toDigits 10 number) = number := by
    induction number using Nat.strongRecOn with
    | ind number inductionHypothesis =>
        rw [Nat.toDigits_eq_if (by omega)]
        split
        · rename_i hSmall
          obtain ⟨hDigit, hValue⟩ := digitValue_digitChar hSmall
          simp [digitsValue, hDigit, hValue]
        · obtain ⟨hDigit, hValue⟩ := digitValue_digitChar (Nat.mod_lt number (by omega : 0 < 10))
          obtain ⟨hFront, hFrontValue⟩ := inductionHypothesis (number / 10) (by omega)
          refine ⟨by simp only [List.all_append, hFront, List.all_cons, hDigit, List.all_nil,
            Bool.and_self], ?_⟩
          unfold digitsValue at hFrontValue ⊢
          rw [List.foldl_append, hFrontValue, List.foldl_cons, hValue, List.foldl_nil]
          omega
  simp only [natural?, hSpelled.1, hSpelled.2, Bool.and_true, Bool.not_eq_true',
    List.isEmpty_eq_false_iff]
  exact if_pos (toDigits_ne_nil number)

theorem isDigit_of_mem_toDigits {number : Nat} {char : Char}
    (hChar : char ∈ Nat.toDigits 10 number) : isDigit char = true := by
  have hSpelled := natural?_toDigits number
  unfold natural? at hSpelled
  split at hSpelled
  · rename_i hDigits
    simp only [Bool.and_eq_true] at hDigits
    exact List.all_eq_true.mp hDigits.2 char hChar
  · contradiction

private theorem integer?_of_digit {char : Char} {rest : List Char} (hDigit : isDigit char = true) :
    integer? (char :: rest) = (natural? (char :: rest)).map Int.ofNat := by
  unfold integer?
  split
  · rename_i hPlus
    obtain ⟨rfl, -⟩ := List.cons.inj hPlus
    exact absurd hDigit (by decide)
  · rename_i hMinus
    obtain ⟨rfl, -⟩ := List.cons.inj hMinus
    exact absurd hDigit (by decide)
  · rfl

private theorem toList_toString (number : Nat) :
    (toString (number : Int)).toList = Nat.toDigits 10 number := by
  have hRepr : toString (number : Int) = number.repr := rfl
  rw [hRepr, Nat.toList_repr]

private theorem signed64?_toString (number : Nat) :
    signed64? (toString (number : Int)).toList =
      if fitsSigned64 number then some (number : Int) else none := by
  obtain ⟨char, rest, hDigits⟩ : ∃ char rest, Nat.toDigits 10 number = char :: rest :=
    List.exists_cons_of_ne_nil (toDigits_ne_nil number)
  have hDigit : isDigit char = true :=
    isDigit_of_mem_toDigits (by rw [hDigits]; exact List.mem_cons_self)
  rw [signed64?, toList_toString, hDigits, integer?_of_digit hDigit, ← hDigits,
    natural?_toDigits]
  rfl

/-! ### Words and lines -/

theorem leadingRun_append {α : Type} {isGap : α → Bool} {run : List α}
    (hRun : ∀ item ∈ run, isGap item = false) (rest : List α) :
    leadingRun isGap (run ++ rest) =
      ((run ++ (leadingRun isGap rest).1.1, (leadingRun isGap rest).1.2),
        (leadingRun isGap rest).2) := by
  induction run with
  | nil => rfl
  | cons item run inductionHypothesis =>
      have hItem : isGap item = false := hRun item List.mem_cons_self
      have hLater := inductionHypothesis fun other hOther => hRun other (List.mem_cons_of_mem _ hOther)
      simp only [List.cons_append, leadingRun, hLater, hItem, Bool.false_eq_true, if_false]

private theorem runs_singleton {α : Type} {isGap : α → Bool} {run : List α} (hNonempty : run ≠ [])
    (hRun : ∀ item ∈ run, isGap item = false) : runs isGap run = [run] := by
  have hLeading := leadingRun_append hRun []
  simp only [List.append_nil, leadingRun] at hLeading
  simp only [runs, closedRuns, hLeading, pushRun, List.isEmpty_iff, hNonempty, if_false,
    List.map_cons, List.map_nil]

private theorem runs_append_gap {α : Type} {isGap : α → Bool} {run : List α} (hNonempty : run ≠ [])
    (hRun : ∀ item ∈ run, isGap item = false) {gap : α} (hGap : isGap gap = true)
    (rest : List α) : runs isGap (run ++ gap :: rest) = run :: runs isGap rest := by
  simp only [runs, closedRuns, leadingRun_append hRun, leadingRun, hGap, if_true, List.append_nil]
  simp only [pushRun, List.isEmpty_iff, hNonempty, if_false, List.map_cons]

private theorem runs_intercalate {first : List Char} {later : List (List Char)}
    (hWords : ∀ word ∈ first :: later, word ≠ [] ∧ ∀ char ∈ word, isBlank char = false) :
    runs isBlank (first ++ later.flatMap (' ' :: ·)) = first :: later := by
  induction later generalizing first with
  | nil =>
      obtain ⟨hNonempty, hSolid⟩ := hWords first List.mem_cons_self
      simpa using runs_singleton hNonempty hSolid
  | cons next later inductionHypothesis =>
      obtain ⟨hNonempty, hSolid⟩ := hWords first List.mem_cons_self
      rw [List.flatMap_cons, List.cons_append, runs_append_gap hNonempty hSolid (by decide),
        inductionHypothesis fun word hWord => hWords word (List.mem_cons_of_mem _ hWord)]

theorem lines_join {texts : List String} (hTexts : ∀ text ∈ texts, '\n' ∉ text.toList) :
    lines (String.join (texts.map (· ++ "\n"))) = texts ++ [""] := by
  have hSplit : splitAt (· == '\n') (texts.flatMap fun text => text.toList ++ ['\n']) =
      texts.map String.toList ++ [[]] := by
    induction texts with
    | nil => rfl
    | cons text texts inductionHypothesis =>
        have hText : ∀ char ∈ text.toList, (char == '\n') = false := by
          intro char hChar
          have hNot := hTexts text List.mem_cons_self
          simp only [beq_eq_false_iff_ne]
          exact fun hSame => hNot (hSame ▸ hChar)
        rw [List.flatMap_cons, List.append_assoc, List.cons_append, List.nil_append,
          splitAt_append_separator _ _ (by decide), splitAt_of_none _ hText,
          inductionHypothesis fun other hOther => hTexts other (List.mem_cons_of_mem _ hOther)]
        rfl
  have hList : (String.join (texts.map (· ++ "\n"))).toList =
      texts.flatMap fun text => text.toList ++ ['\n'] := by
    simp [String.toList_join, List.flatMap_map]
  rw [lines, hList, hSplit, List.map_append, List.map_map]
  simp

end Text

/-! ### Instructions -/

/-- An opcode with a meaning and as many operands as it takes, none negative. -/
structure Opcode.Accepts (opcode : Opcode) (operands : List Int) : Prop where
  isDefined : opcode.isDefined = true
  arity : operands.length = opcode.shape.arity
  nonnegative : ∀ operand ∈ operands, 0 ≤ operand

namespace Instruction

theorem toList_words (opcode : Opcode) (operands : List Int) :
    (words opcode operands).toList =
      opcode.name.toList ++ (operands.map fun operand => (toString operand).toList).flatMap
        (' ' :: ·) := by
  have hFold : ∀ text : String,
      (operands.foldl (fun text operand => text ++ " " ++ toString operand) text).toList =
        text.toList ++ (operands.map fun operand => (toString operand).toList).flatMap
          (' ' :: ·) := by
    induction operands with
    | nil => simp
    | cons operand operands inductionHypothesis =>
        intro text
        rw [List.foldl_cons, inductionHypothesis]
        simp
  exact hFold opcode.name

private theorem solid_toString {operand : Int} (hNonnegative : 0 ≤ operand) :
    (toString operand).toList ≠ [] ∧
      ∀ char ∈ (toString operand).toList, Text.isBlank char = false := by
  obtain ⟨number, rfl⟩ := Int.eq_ofNat_of_zero_le hNonnegative
  rw [Text.toList_toString]
  refine ⟨Text.toDigits_ne_nil number, ?_⟩
  intro char hChar
  have hDigit := Text.isDigit_of_mem_toDigits hChar
  simp only [Text.isDigit, Bool.and_eq_true, decide_eq_true_eq, Char.le_def,
    UInt32.le_iff_toNat_le] at hDigit
  have hLow : 48 ≤ char.toNat := hDigit.1
  have hHigh : char.toNat ≤ 57 := hDigit.2
  simp only [Text.isBlank, Bool.or_eq_false_iff, Bool.and_eq_false_iff, decide_eq_false_iff_not,
    beq_eq_false_iff_ne]
  omega

theorem solid_name {opcode : Opcode} (hDefined : opcode.isDefined = true) :
    opcode.name.toList ≠ [] ∧ ∀ char ∈ opcode.name.toList, Text.isBlank char = false := by
  have hSolid : opcode.name.toList ≠ [] ∧
      opcode.name.toList.all (fun char => !Text.isBlank char) = true := by
    cases opcode with
    | undefined byte => contradiction
    | _ => decide
  refine ⟨hSolid.1, fun char hChar => ?_⟩
  simpa using List.all_eq_true.mp hSolid.2 char hChar

theorem ofName?_name {opcode : Opcode} (hDefined : opcode.isDefined = true) :
    Opcode.ofName? opcode.name = some opcode := by
  cases opcode with
  | undefined byte => contradiction
  | _ => decide

theorem words_words {opcode : Opcode} {operands : List Int} (hAccepts : opcode.Accepts operands) :
    Text.words (words opcode operands) = opcode.name :: operands.map toString := by
  have hSolid : ∀ word ∈ opcode.name.toList :: operands.map fun operand => (toString operand).toList,
      word ≠ [] ∧ ∀ char ∈ word, Text.isBlank char = false := by
    intro word hWord
    rcases List.mem_cons.mp hWord with rfl | hWord
    · exact solid_name hAccepts.isDefined
    · obtain ⟨operand, hOperand, rfl⟩ := List.mem_map.mp hWord
      exact solid_toString (hAccepts.nonnegative operand hOperand)
  rw [Text.words, toList_words, Text.runs_intercalate hSolid]
  simp

/-- Operands that fit are read back; one that does not fit is refused. -/
theorem operandValues_toString (line : String) {operands : List Int}
    (hNonnegative : ∀ operand ∈ operands, 0 ≤ operand) :
    (operands.all Text.fitsSigned64 = true →
        operandValues line (operands.map toString) = .ok operands) ∧
      (operands.all Text.fitsSigned64 = false →
        ∃ fault, operandValues line (operands.map toString) = .error fault) := by
  induction operands with
  | nil => exact ⟨fun _ => rfl, fun hFalse => absurd hFalse (by decide)⟩
  | cons operand operands inductionHypothesis =>
      obtain ⟨hFit, hUnfit⟩ := inductionHypothesis fun other hOther =>
        hNonnegative other (List.mem_cons_of_mem _ hOther)
      obtain ⟨number, rfl⟩ :=
        Int.eq_ofNat_of_zero_le (hNonnegative operand List.mem_cons_self)
      have hOperand : operand? (toString (number : Int)) =
          if Text.fitsSigned64 number then some (number : Int) else none := by
        rw [operand?, Text.signed64?_toString]
        split
        · simp
        · rfl
      simp only [List.map_cons, operandValues, hOperand, List.all_cons]
      cases hFits : Text.fitsSigned64 number with
      | false => exact ⟨fun hTrue => absurd hTrue (by simp), fun _ => ⟨_, rfl⟩⟩
      | true =>
          simp only [if_true, Bool.true_and]
          refine ⟨fun hRest => by rw [hFit hRest]; rfl, fun hRest => ?_⟩
          obtain ⟨fault, hFault⟩ := hUnfit hRest
          exact ⟨fault, by rw [hFault]; rfl⟩

theorem words_of_operandValues {line : String} {words : List String} {values : List Int}
    (hValues : operandValues line words = .ok values) :
    values.length = words.length ∧
      ∀ value ∈ values, ∃ word ∈ words, operand? word = some value := by
  induction words generalizing values with
  | nil =>
      rw [← Except.ok.inj hValues]
      exact ⟨rfl, List.forall_mem_nil _⟩
  | cons word words inductionHypothesis =>
      unfold operandValues at hValues
      cases hWord : operand? word with
      | none =>
          rw [hWord] at hValues
          contradiction
      | some value =>
          simp only [hWord] at hValues
          cases hRest : operandValues line words with
          | error fault =>
              rw [hRest] at hValues
              contradiction
          | ok rest =>
              rw [hRest] at hValues
              rw [← Except.ok.inj hValues, List.forall_mem_cons]
              have hLater := inductionHypothesis hRest
              refine ⟨congrArg Nat.succ hLater.1, ⟨word, List.mem_cons_self, hWord⟩, ?_⟩
              intro other hOther
              rcases hLater.2 other hOther with ⟨found, hFound, hValue⟩
              exact ⟨found, List.mem_cons_of_mem word hFound, hValue⟩

theorem decode_words {opcode : Opcode} {operands : List Int} (hAccepts : opcode.Accepts operands)
    (hFits : operands.all Text.fitsSigned64 = true) :
    decode (words opcode operands) = .ok (ofOperands opcode operands) := by
  simp only [decode, words_words hAccepts, ofName?_name hAccepts.isDefined, List.length_map,
    hAccepts.arity, if_true, (operandValues_toString _ hAccepts.nonnegative).1 hFits]
  rfl

private theorem eq_ofOperands_of_decode {opcode : Opcode} {operands : List Int}
    (hAccepts : opcode.Accepts operands) {instruction : Instruction}
    (hDecode : decode (words opcode operands) = .ok instruction) :
    instruction = ofOperands opcode operands := by
  cases hFits : operands.all Text.fitsSigned64 with
  | true =>
      rw [decode_words hAccepts hFits] at hDecode
      exact (Except.ok.inj hDecode).symm
  | false =>
      obtain ⟨fault, hFault⟩ :=
        (operandValues_toString (words opcode operands) hAccepts.nonnegative).2 hFits
      simp only [decode, words_words hAccepts, ofName?_name hAccepts.isDefined, List.length_map,
        hAccepts.arity, if_true, hFault] at hDecode
      contradiction

theorem newline_not_mem_words {opcode : Opcode} {operands : List Int}
    (hAccepts : opcode.Accepts operands) : '\n' ∉ (words opcode operands).toList := by
  rw [toList_words]
  intro hMem
  rcases List.mem_append.mp hMem with hName | hOperand
  · exact absurd ((solid_name hAccepts.isDefined).2 _ hName) (by decide)
  · obtain ⟨word, hWord, hChar⟩ := List.mem_flatMap.mp hOperand
    obtain ⟨operand, hOperand, rfl⟩ := List.mem_map.mp hWord
    rcases List.mem_cons.mp hChar with hBlank | hDigit
    · exact absurd hBlank (by decide)
    · exact absurd ((solid_toString (hAccepts.nonnegative operand hOperand)).2 _ hDigit)
        (by decide)

end Instruction

/-! ### Listings -/

namespace Line

def IsComplete (line : Line) : Prop :=
  ∃ opcode operands, line = complete opcode operands ∧ opcode.Accepts operands

def instruction : Line → Instruction
  | complete opcode operands | pending opcode operands => Instruction.ofOperands opcode operands
  | edited _ => .stop

def fits : Line → Bool
  | complete _ operands | pending _ operands => operands.all Text.fitsSigned64
  | edited _ => true

end Line

theorem decodeLines_texts {lines : List Line} (hComplete : ∀ line ∈ lines, line.IsComplete)
    (hFits : ∀ line ∈ lines, line.fits = true) (first : Nat) :
    decodeLines first (lines.map Line.text) = .ok (lines.map Line.instruction) := by
  induction lines generalizing first with
  | nil => rfl
  | cons line lines inductionHypothesis =>
      obtain ⟨opcode, operands, rfl, hAccepts⟩ := hComplete line List.mem_cons_self
      have hLater := inductionHypothesis
        (fun other hOther => hComplete other (List.mem_cons_of_mem _ hOther))
        (fun other hOther => hFits other (List.mem_cons_of_mem _ hOther)) (first + 1)
      have hHere := Instruction.decode_words hAccepts (hFits _ List.mem_cons_self)
      simp only [List.map_cons, decodeLines, Line.text, hHere, hLater]
      rfl

theorem eq_of_decodeLines {lines : List Line} (hComplete : ∀ line ∈ lines, line.IsComplete)
    {first : Nat} {code : List Instruction}
    (hDecode : decodeLines first (lines.map Line.text) = .ok code) :
    code = lines.map Line.instruction := by
  induction lines generalizing first code with
  | nil => exact (Except.ok.inj hDecode).symm
  | cons line lines inductionHypothesis =>
      obtain ⟨opcode, operands, rfl, hAccepts⟩ := hComplete line List.mem_cons_self
      simp only [List.map_cons, decodeLines, Line.text] at hDecode
      cases hHere : Instruction.decode (Instruction.words opcode operands) with
      | error fault => rw [hHere] at hDecode; contradiction
      | ok instruction =>
          rw [hHere] at hDecode
          cases hRest : decodeLines (first + 1) (lines.map Line.text) with
          | error fault => rw [hRest] at hDecode; contradiction
          | ok rest =>
              rw [hRest] at hDecode
              obtain rfl := Except.ok.inj hDecode
              rw [Instruction.eq_ofOperands_of_decode hAccepts hHere,
                inductionHypothesis
                  (fun other hOther => hComplete other (List.mem_cons_of_mem _ hOther)) hRest]
              rfl

theorem assembleLines_texts {lines : List Line} (hComplete : ∀ line ∈ lines, line.IsComplete)
    (hFits : ∀ line ∈ lines, line.fits = true) (first : Nat) :
    assembleLines first (lines.map Line.text ++ [""]) = .ok (lines.map Line.instruction) := by
  induction lines generalizing first with
  | nil => rfl
  | cons line lines inductionHypothesis =>
      obtain ⟨opcode, operands, rfl, hAccepts⟩ := hComplete line List.mem_cons_self
      have hLater := inductionHypothesis
        (fun other hOther => hComplete other (List.mem_cons_of_mem _ hOther))
        (fun other hOther => hFits other (List.mem_cons_of_mem _ hOther)) (first + 1)
      have hHere := Instruction.decode_words hAccepts (hFits _ List.mem_cons_self)
      simp only [List.map_cons, List.cons_append, assembleLines, Line.text,
        Instruction.words_words hAccepts, List.isEmpty_cons, Bool.false_eq_true, if_false, hHere,
        hLater]
      rfl

end RegisterCompiler
