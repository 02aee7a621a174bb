/-
What code generation ends with.

A program that was read is compiled, unless it misuses a name or a segment of the memory
is full.  Every jump was given its target exactly once, so that every line of a generated
listing is an instruction with all its operands; it is read back, has its registers, jumps
inside the code and ends with HALT.  A machine never leaves such code, and no instruction
of it is beyond the machine.
-/

import RegisterCompiler.Proofs.Generator.Compilation
import RegisterCompiler.Proofs.Machine.Moments
import RegisterCompiler.Proofs.Program.Parsing
import RegisterCompiler.Proofs.Simplification

set_option autoImplicit false

namespace RegisterCompiler

open Generating (Ensures)

/-! ### Faults -/

theorem exists_of_isSome_toOption {fault value : Type} {result : Except fault value}
    (hSome : result.toOption.isSome = true) : ∃ found, result = .ok found := by
  cases result with
  | error => contradiction
  | ok found => exact ⟨found, rfl⟩

theorem exists_of_any_toOption {fault value : Type} {result : Except fault value}
    {test : value → Bool} (hAny : result.toOption.any test = true) :
    ∃ found, result = .ok found ∧ test found = true := by
  cases result with
  | error => contradiction
  | ok found => exact ⟨found, rfl, hAny⟩

namespace Context

/-- From a fresh context, a program that was read, simplified or not, is compiled without a
fault, or refused for a misuse of a name or for want of memory. -/
theorem generate_or_usual_fault {text : Text.Bytes} {program prepared : Program}
    (hParse : parse text = .ok program)
    (hPrepared : prepared = program ∨ prepared = program.simplify) {options : GeneratorOptions}
    (hRegisters : 5 ≤ options.registers) (hLayout : options.layout.fault? = none) :
    ∃ context, Context.create options = .ok context ∧
      ((context.generate prepared).1 = .ok () ∨
        (∃ complaint, (context.generate prepared).1 = .error (.misuse complaint)) ∨
        ∃ fault : StoreFault, fault.isExhaustion = true ∧
          ((context.generate prepared).1 = .error (.store fault) ∨
            ∃ name, (context.generate prepared).1 = .error (.placing name fault))) := by
  have hNamed : prepared.Named := by
    rcases hPrepared with rfl | rfl
    · exact named_of_parse hParse
    · exact (named_of_parse hParse).simplify
  have hLeast : GeneratorOptions.leastRegisters ≤ options.registers := hRegisters
  refine ⟨empty options, ?_, ?_⟩
  · rw [create, if_neg (Int.not_lt.mpr hLeast), hLayout]
  · have hEnsures := compileProgram_ensures hLeast hLayout hNamed
    unfold Ensures at hEnsures
    unfold generate
    cases hRun : (Generating.compileProgram prepared).run.run (empty options) with
    | mk result after =>
        cases result with
        | ok => exact .inl rfl
        | error fault =>
            simp only [hRun] at hEnsures
            right
            cases fault with
            | misuse complaint => exact .inl ⟨complaint, rfl⟩
            | store fault => exact .inr ⟨fault, hEnsures, .inl rfl⟩
            | placing name fault => exact .inr ⟨fault, hEnsures, .inr ⟨name, rfl⟩⟩
            | _ => exact absurd hEnsures Bool.false_ne_true

theorem generate_or_usual_fault_echo :
    ∃ program, parse (Text.encode "VAR n BEGIN READ n; WRITE n; END") = .ok program ∧
      ∃ context, Context.create .standard = .ok context ∧
        (context.generate program).1 = .ok () := by
  obtain ⟨program, hParse, hDone⟩ : ∃ program,
      parse (Text.encode "VAR n BEGIN READ n; WRITE n; END") = .ok program ∧
        ((empty .standard).generate program).1.toOption.isSome = true :=
    exists_of_any_toOption (by decide +kernel)
  obtain ⟨context, hCreate, hOutcome⟩ :=
    @generate_or_usual_fault _ _ _ hParse (.inl rfl) .standard (by decide) (by decide)
  cases hCreate
  refine ⟨program, hParse, _, rfl, ?_⟩
  rcases hOutcome with hEnd | ⟨complaint, hEnd⟩ | ⟨fault, -, hEnd | ⟨name, hEnd⟩⟩
  · exact hEnd
  all_goals
    rw [hEnd] at hDone
    contradiction

/-- The standard options with room for one scalar. -/
def crowded : GeneratorOptions :=
  { GeneratorOptions.standard with layout := { Layout.standard with scalars := ⟨4096, 4096⟩ } }

theorem generate_misuses_undeclared :
    ∃ program, parse (Text.encode "VAR n BEGIN READ n; WRITE m; END") = .ok program ∧
      ∃ context, Context.create .standard = .ok context ∧
        (context.generate program).1 = .error (.misuse ⟨⟨26, 1, 27⟩, .undeclared "m"⟩) := by
  obtain ⟨program, hParse, hEnd⟩ : ∃ program,
      parse (Text.encode "VAR n BEGIN READ n; WRITE m; END") = .ok program ∧
        decide (((empty .standard).generate program).1 =
          .error (.misuse ⟨⟨26, 1, 27⟩, .undeclared "m"⟩)) = true :=
    exists_of_any_toOption (by decide +kernel)
  exact ⟨program, hParse, _, rfl, of_decide_eq_true hEnd⟩

theorem generate_exhausts_scalars :
    ∃ program, parse (Text.encode "VAR a b BEGIN READ a; WRITE a; END") = .ok program ∧
      ∃ context, Context.create crowded = .ok context ∧
        (context.generate program).1 =
          .error (.placing "b" (.segmentFull .scalars ⟨4096, 4096⟩)) := by
  obtain ⟨program, hParse, hEnd⟩ : ∃ program,
      parse (Text.encode "VAR a b BEGIN READ a; WRITE a; END") = .ok program ∧
        decide (((empty crowded).generate program).1 =
          .error (.placing "b" (.segmentFull .scalars ⟨4096, 4096⟩))) = true :=
    exists_of_any_toOption (by decide +kernel)
  exact ⟨program, hParse, _, rfl, of_decide_eq_true hEnd⟩

end Context

/-! ### Closed code -/

theorem fitsSigned64_of_le {value high : Int} (hLow : 0 ≤ value) (hHigh : value ≤ high)
    (hFits : Text.fitsSigned64 high = true) : Text.fitsSigned64 value = true := by
  simp only [Text.fitsSigned64, Bool.and_eq_true, decide_eq_true_eq] at hFits ⊢
  omega

private theorem Line.Ready.fits {registers : Int} {lines : Nat} {line : Line}
    (hReady : line.Ready registers lines) (hRegisters : Text.fitsSigned64 registers = true)
    (hLines : Text.fitsSigned64 lines = true) : line.fits = true := by
  obtain ⟨opcode, operands, rfl, hAccepts, hWithin⟩ := hReady
  have hRegister : ∀ {register : Int}, 0 ≤ register ∧ register < registers →
      Text.fitsSigned64 register = true :=
    fun hBounds => fitsSigned64_of_le hBounds.1 (Int.le_of_lt hBounds.2) hRegisters
  have hTarget : ∀ {target : Int}, 0 ≤ target ∧ target ≤ lines →
      Text.fitsSigned64 target = true :=
    fun hBounds => fitsSigned64_of_le hBounds.1 hBounds.2 hLines
  have hArity := hAccepts.arity
  rw [Line.fits, List.all_eq_true]
  intro operand hOperand
  cases hShape : opcode.shape with
  | none =>
      rw [hShape, Shape.arity, List.length_eq_zero_iff] at hArity
      rw [hArity] at hOperand
      contradiction
  | register =>
      rw [hShape, Shape.arity, List.length_eq_one_iff] at hArity
      obtain ⟨register, rfl⟩ := hArity
      obtain rfl := List.mem_singleton.mp hOperand
      simp only [Instruction.ofOperands, hShape] at hWithin
      exact hRegister (hWithin.register (by rw [hShape]; rfl))
  | target =>
      rw [hShape, Shape.arity, List.length_eq_one_iff] at hArity
      obtain ⟨target, rfl⟩ := hArity
      obtain rfl := List.mem_singleton.mp hOperand
      simp only [Instruction.ofOperands, hShape] at hWithin
      exact hTarget (hWithin.target (by cases opcode <;> first | rfl | contradiction))
  | registerTarget =>
      rw [hShape, Shape.arity, List.length_eq_two] at hArity
      obtain ⟨register, target, rfl⟩ := hArity
      simp only [Instruction.ofOperands, hShape] at hWithin
      simp only [List.mem_cons, List.not_mem_nil, or_false] at hOperand
      rcases hOperand with rfl | rfl
      · exact hRegister (hWithin.register (by rw [hShape]; rfl))
      · exact hTarget (hWithin.target (by cases opcode <;> first | rfl | contradiction))

private theorem ClosedCode.mono {registers more : Int} {code : List Instruction}
    (hClosed : ClosedCode registers code) (hMore : registers ≤ more) : ClosedCode more code where
  within := by
    intro instruction hInstruction
    obtain ⟨hOpcode, hRegister, hTarget⟩ := hClosed.within instruction hInstruction
    refine ⟨hOpcode, fun hShape => ?_, hTarget⟩
    obtain ⟨hLow, hHigh⟩ := hRegister hShape
    exact ⟨hLow, Int.lt_of_lt_of_le hHigh hMore⟩
  last := hClosed.last
  nonempty := hClosed.nonempty

/-- A machine with enough registers can be made for closed code, and houses it. -/
theorem ClosedCode.create {registers : Int} {code : List Instruction}
    (hClosed : ClosedCode registers code) (hSome : 1 ≤ registers) {config : MachineConfig}
    (hEnough : registers ≤ config.registers) :
    ∃ machine, Machine.create code config = .ok machine ∧ machine.Houses code := by
  unfold Machine.create
  rw [if_neg (by omega)]
  refine ⟨_, rfl, rfl, ?_⟩
  rw [Array.size_replicate, Int.toNat_of_nonneg (by omega)]
  exact hClosed.mono hEnough

namespace Context

namespace Generates

variable {options : GeneratorOptions} {program : Program} {opened compiled after : Context}
  (hGenerates : Generates options program opened compiled after)

include hGenerates

private theorem size_eq : after.listing.size = compiled.listing.size + 1 := by
  rw [hGenerates.result]
  exact Listing.size_addAll _ _

theorem fits (hRegisters : Text.fitsSigned64 options.registers = true)
    (hLines : Text.fitsSigned64 after.listing.size = true) {line : Line}
    (hLine : line ∈ after.listing.lines.toList) : line.fits = true := by
  have hFewer : Text.fitsSigned64 (compiled.listing.size : Int) = true := by
    refine fitsSigned64_of_le (by omega) ?_ hLines
    rw [hGenerates.size_eq]
    omega
  exact (hGenerates.ready hLine).fits hRegisters hFewer

theorem decodes (hRegisters : Text.fitsSigned64 options.registers = true)
    (hLines : Text.fitsSigned64 after.listing.size = true) :
    ∃ code, after.listing.decode = .ok code :=
  ⟨_, decodeLines_texts (fun _ hLine => hGenerates.isComplete hLine)
    (fun _ hLine => hGenerates.fits hRegisters hLines hLine) 0⟩

theorem closedCode {code : List Instruction} (hDecode : after.listing.decode = .ok code) :
    ClosedCode options.registers code where
  within := by
    intro instruction hInstruction
    rw [hGenerates.length_code hDecode]
    exact hGenerates.within hDecode hInstruction
  last := by
    intro line instruction hAt hLast
    rw [hGenerates.length_code hDecode] at hLast
    obtain rfl : line = compiled.listing.size := by omega
    rw [hGenerates.stop_at hDecode] at hAt
    cases hAt
    rfl
  nonempty := by
    intro hNone
    have hLength := hGenerates.length_code hDecode
    rw [hNone] at hLength
    contradiction

end Generates

/-- Every line of a generated listing is an instruction with all its operands, its registers
are among those the generator was given and its jumps stay inside; the last line is HALT.
The listing is read back, and no machine with these registers ever leaves the code, finds
itself without a register or meets an opcode without a meaning. -/
theorem generate_closed {options : GeneratorOptions} {context : Context}
    (hCreate : Context.create options = .ok context) {program : Program}
    (hGenerate : (context.generate program).1 = .ok ()) :
    let listing := (context.generate program).2.listing
    (∀ line ∈ listing.lines.toList, ∃ opcode operands, line = .complete opcode operands ∧
      opcode.Accepts operands ∧
      (Instruction.ofOperands opcode operands).Within options.registers (listing.size - 1)) ∧
    listing.lines.toList.getLast? = some (.complete .halt []) ∧
    (Text.fitsSigned64 options.registers = true → Text.fitsSigned64 listing.size = true →
      ∃ code, listing.decode = .ok code) ∧
    ∀ code, listing.decode = .ok code →
      code.length = listing.size ∧ ClosedCode options.registers code ∧
      ∀ config : MachineConfig, options.registers ≤ config.registers →
        ∃ machine, Machine.create code config = .ok machine ∧
          ∀ fault, machine.run.1 = .error fault → Machine.IsStray fault = false := by
  obtain ⟨hLeast, -, -⟩ := eq_empty_of_create hCreate
  have hResult : context.generate program = (.ok (), (context.generate program).2) :=
    Prod.ext hGenerate rfl
  obtain ⟨opened, compiled, hGenerates⟩ := generates_of_generate hCreate hResult
  refine ⟨fun line hLine => ?_, ?_, hGenerates.decodes, fun code hDecode => ⟨?_, ?_, ?_⟩⟩
  · rw [hGenerates.size_eq]
    exact hGenerates.ready hLine
  · rw [hGenerates.last, List.getLast?_append]
    rfl
  · rw [hGenerates.length_code hDecode, hGenerates.size_eq]
  · exact hGenerates.closedCode hDecode
  · intro config hEnough
    obtain ⟨machine, hMachine, hHouses⟩ := (hGenerates.closedCode hDecode).create
      (Int.le_trans (by decide) hLeast) hEnough
    exact ⟨machine, hMachine, fun fault hRun => hHouses.isStray hRun⟩

theorem generate_closed_echo :
    ((empty .standard).generate .echo).1 = .ok () ∧
      ∃ code, ((empty .standard).generate .echo).2.listing.decode = .ok code ∧
        ClosedCode 8 code := by
  have hCreate : create .standard = .ok (empty .standard) := rfl
  have hGenerate : ((empty .standard).generate .echo).1 = .ok () := by decide +kernel
  have hSize : Text.fitsSigned64 ((empty .standard).generate .echo).2.listing.size = true := by
    decide +kernel
  obtain ⟨-, -, hDecodes, hClosed⟩ := generate_closed hCreate hGenerate
  obtain ⟨code, hDecode⟩ := hDecodes rfl hSize
  exact ⟨hGenerate, code, hDecode, (hClosed code hDecode).2.1⟩

end Context

end RegisterCompiler
