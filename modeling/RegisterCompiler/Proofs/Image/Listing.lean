/-
The image of a listing.

A listing whose lines are instructions with all their operands, each within a signed
64-bit word, says the same in every form: its image prints the text of the listing, the
text is read back as the code of the image, and the costs found by the mnemonics are the
costs of the opcodes.  Generated listings are of that kind, so that a run of the text and
a run of the image cannot be told apart.
-/

import RegisterCompiler.Build
import RegisterCompiler.Proofs.Generator.Closure

set_option autoImplicit false

namespace RegisterCompiler
namespace Instruction

/-! ### One line -/

@[simp]
theorem opcode_ofOperands (opcode : Opcode) (operands : List Int) :
    (ofOperands opcode operands).opcode = opcode := by
  unfold ofOperands
  split <;> rfl

theorem operands_ofOperands {opcode : Opcode} {operands : List Int}
    (hAccepts : opcode.Accepts operands) : (ofOperands opcode operands).operands = operands := by
  have hArity := hAccepts.arity
  unfold Instruction.operands
  rw [opcode_ofOperands]
  cases hShape : opcode.shape with
  | none =>
      rw [hShape, Shape.arity, List.length_eq_zero_iff] at hArity
      exact hArity.symm
  | register =>
      rw [hShape, Shape.arity, List.length_eq_one_iff] at hArity
      obtain ⟨register, rfl⟩ := hArity
      simp only [ofOperands, hShape]
  | target =>
      rw [hShape, Shape.arity, List.length_eq_one_iff] at hArity
      obtain ⟨target, rfl⟩ := hArity
      simp only [ofOperands, hShape]
  | registerTarget =>
      rw [hShape, Shape.arity, List.length_eq_two] at hArity
      obtain ⟨register, target, rfl⟩ := hArity
      simp only [ofOperands, hShape]

private theorem takeWhile_flatMap_blank (words : List (List Char)) :
    (words.flatMap (' ' :: ·)).takeWhile (· != ' ') = [] := by
  cases words with
  | nil => rfl
  | cons word words => rfl

private theorem takeWhile_words {opcode : Opcode} (hDefined : opcode.isDefined = true)
    (operands : List Int) :
    (words opcode operands).toList.takeWhile (· != ' ') = opcode.name.toList := by
  have hName : ∀ char ∈ opcode.name.toList, (char != ' ') = true := by
    intro char hChar
    rw [bne_iff_ne]
    rintro rfl
    exact absurd ((solid_name hDefined).2 ' ' hChar) (by decide)
  rw [toList_words, List.takeWhile_append_of_pos hName, takeWhile_flatMap_blank, List.append_nil]

private theorem lineCost_words {opcode : Opcode} (hDefined : opcode.isDefined = true)
    (operands : List Int) : Listing.lineCost (words opcode operands) = opcode.cost := by
  rw [Listing.lineCost, takeWhile_words hDefined, String.ofList_toList, ofName?_name hDefined]

end Instruction

namespace Line

private theorem IsComplete.text_instruction {line : Line} (hComplete : line.IsComplete) :
    line.instruction.text = line.text := by
  obtain ⟨opcode, operands, rfl, hAccepts⟩ := hComplete
  rw [instruction, Instruction.text, Instruction.opcode_ofOperands,
    Instruction.operands_ofOperands hAccepts, text]

private theorem IsComplete.lineCost_text {line : Line} (hComplete : line.IsComplete) :
    Listing.lineCost line.text = line.instruction.opcode.cost := by
  obtain ⟨opcode, operands, rfl, hAccepts⟩ := hComplete
  rw [instruction, Instruction.opcode_ofOperands, text,
    Instruction.lineCost_words hAccepts.isDefined]

private theorem IsComplete.newline_not_mem {line : Line} (hComplete : line.IsComplete) :
    '\n' ∉ line.text.toList := by
  obtain ⟨opcode, operands, rfl, hAccepts⟩ := hComplete
  exact Instruction.newline_not_mem_words hAccepts

end Line

/-! ### Whole listings -/

namespace Listing

private theorem texts_ofCode (code : List Instruction) :
    (ofCode code).texts = code.map Instruction.text := by
  simp [texts, ofCode, Function.comp_def, Line.text, Instruction.text]

variable {listing : Listing} (hComplete : ∀ line ∈ listing.lines.toList, line.IsComplete)

include hComplete

private theorem text_ofCode :
    (ofCode (listing.lines.toList.map Line.instruction)).text = listing.text := by
  have hTexts : (ofCode (listing.lines.toList.map Line.instruction)).texts = listing.texts := by
    rw [texts_ofCode, List.map_map]
    exact List.map_congr_left fun line hLine => (hComplete line hLine).text_instruction
  rw [text, hTexts, text]

private theorem staticCost_eq :
    listing.staticCost = RegisterCompiler.staticCost (listing.lines.toList.map Line.instruction) := by
  unfold staticCost RegisterCompiler.staticCost texts
  generalize listing.lines.toList = lines at hComplete
  induction lines with
  | nil => rfl
  | cons line lines inductionHypothesis =>
      rw [List.map_cons, List.foldr_cons, List.map_cons, List.foldr_cons,
        inductionHypothesis fun other hOther => hComplete other (List.mem_cons_of_mem _ hOther),
        (hComplete line List.mem_cons_self).lineCost_text]

variable (hFits : ∀ line ∈ listing.lines.toList, line.fits = true)

include hFits

private theorem decode_eq : listing.decode = .ok (listing.lines.toList.map Line.instruction) :=
  decodeLines_texts hComplete hFits 0

private theorem assemble_text :
    assemble listing.text = .ok (listing.lines.toList.map Line.instruction) := by
  have hLines : Text.lines listing.text = listing.texts ++ [""] := by
    refine Text.lines_join fun text hText => ?_
    obtain ⟨line, hLine, rfl⟩ := List.mem_map.mp hText
    exact (hComplete line hLine).newline_not_mem
  rw [assemble, hLines]
  exact assembleLines_texts hComplete hFits 1

end Listing

/-! ### Running -/

/-- A text and an image with the same code run alike on a machine with the registers of the
image. -/
theorem run_eq_runText {text : String} {image : Image}
    (hCode : assemble text = .ok image.instructions) (hSome : 1 ≤ image.registers)
    {config : MachineConfig} (hEnough : image.registers ≤ config.registers) :
    ∃ outcome, runText text config = .ok outcome ∧ image.run config = .ok outcome := by
  have hConfig : { config with
      registers := if config.registers = 0 then image.registers else config.registers } =
      config := by
    rw [if_neg (by omega)]
  obtain ⟨machine, hMachine⟩ :
      ∃ machine, Machine.create image.instructions config = .ok machine := by
    unfold Machine.create
    rw [if_neg (by omega)]
    exact ⟨_, rfl⟩
  refine ⟨machine.run, ?_, ?_⟩
  · rw [runText, hCode]
    simp only [Except.mapError, Except.bind, bind, hMachine]
    rfl
  · rw [Image.run, Image.machine, hConfig, if_neg (by rw [if_neg] <;> omega), hMachine]
    rfl

namespace Context

/-- A generated listing and its image are one program: the image prints the text of the
listing, the text is read back as the code of the image, both charge the same, and a run
of the text and a run of the image end in the same way with the same machine. -/
theorem generate_text_and_image {options : GeneratorOptions} {context : Context}
    (hCreate : Context.create options = .ok context) {program : Program}
    (hGenerate : (context.generate program).1 = .ok ())
    (hRegisters : Text.fitsSigned64 options.registers = true)
    (hLines : Text.fitsSigned64 (context.generate program).2.listing.size = true) (id : String) :
    let listing := (context.generate program).2.listing
    ∃ image code, Image.ofListing id options.registers listing = .ok image ∧
      image.registers = options.registers ∧ image.code = some code ∧
      image.text = listing.text ∧ assemble listing.text = .ok code ∧
      listing.staticCost = staticCost code ∧
      ∀ config : MachineConfig, image.registers ≤ config.registers →
        ∃ outcome, runText listing.text config = .ok outcome ∧ image.run config = .ok outcome := by
  obtain ⟨hLeast, -, -⟩ := eq_empty_of_create hCreate
  obtain ⟨opened, compiled, hGenerates⟩ :=
    generates_of_generate hCreate (Prod.ext hGenerate rfl)
  have hComplete : ∀ line ∈ (context.generate program).2.listing.lines.toList, line.IsComplete :=
    fun _ hLine => hGenerates.isComplete hLine
  have hFits : ∀ line ∈ (context.generate program).2.listing.lines.toList, line.fits = true :=
    fun _ hLine => hGenerates.fits hRegisters hLines hLine
  have hAssemble := Listing.assemble_text hComplete hFits
  refine ⟨⟨Image.currentVersion, id, options.registers, some _, []⟩, _, ?_, rfl, rfl,
    Listing.text_ofCode hComplete, hAssemble, Listing.staticCost_eq hComplete,
    fun config hEnough => ?_⟩
  · rw [Image.ofListing, Listing.decode_eq hComplete hFits]
    rfl
  · exact run_eq_runText hAssemble (Int.le_trans (by decide) hLeast) hEnough

theorem echo_text_and_image :
    ∃ image code, Image.ofListing "echo" 8 ((empty .standard).generate .echo).2.listing =
        .ok image ∧
      image.registers = 8 ∧ image.code = some code ∧
      image.text = ((empty .standard).generate .echo).2.listing.text ∧
      assemble ((empty .standard).generate .echo).2.listing.text = .ok code ∧
      ((empty .standard).generate .echo).2.listing.staticCost = staticCost code ∧
      ∀ config : MachineConfig, image.registers ≤ config.registers →
        ∃ outcome, runText ((empty .standard).generate .echo).2.listing.text config = .ok outcome ∧
          image.run config = .ok outcome := by
  have hGenerate : ((empty .standard).generate .echo).1 = .ok () := by decide +kernel
  have hSize : Text.fitsSigned64 ((empty .standard).generate .echo).2.listing.size = true := by
    decide +kernel
  exact generate_text_and_image (rfl : create .standard = .ok (empty .standard)) hGenerate rfl
    hSize "echo"

end Context

end RegisterCompiler
