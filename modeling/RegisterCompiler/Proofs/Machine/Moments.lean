/-
The moments of a run.

A machine goes from one line to the next until it halts, fails or runs out of steps.  On
code whose registers exist and whose jumps stay inside, it never leaves the code.  A
snapshot whose memory is filled wherever the machine has not written follows every step
of the machine, whatever becomes of its output.
-/

import RegisterCompiler.Proofs.Machine.Refinement

set_option autoImplicit false

namespace RegisterCompiler
namespace Machine

inductive Steps : Nat → Machine → Int → Machine → Int → Prop where
  | refl (machine : Machine) (line : Int) : Steps 0 machine line machine line
  | step {count : Nat} {machine middle last : Machine} {line next lastLine : Int}
      {instruction : Instruction} (hAt : machine.instruction? line = some instruction)
      (hActive : machine.stopsCancelled = false) (hGoes : instruction.opcode ≠ .halt)
      (hExecute : (machine.charge line instruction).execute line instruction = (.ok next, middle))
      (hRest : Steps count middle next last lastLine) :
      Steps (count + 1) machine line last lastLine

def StopsWith (machine : Machine) (line : Int) : RunFault → Prop
  | .noHalt => machine.instruction? line = none
  | .badJump _ => machine.instruction? line = none
  | .stepLimit _ => True
  | .cancelled => True
  | .execution _ instruction cause => machine.instruction? line = some instruction ∧
      instruction.opcode ≠ .halt ∧
      ((machine.charge line instruction).execute line instruction).1 = .error cause

/-- The run of a machine goes through its moments. -/
theorem runFrom_of_steps {count : Nat} {machine last : Machine} {line lastLine : Int}
    (hSteps : Steps count machine line last lastLine) (budget : Nat) :
    runFrom (count + budget) machine line = runFrom budget last lastLine := by
  induction hSteps with
  | refl => rw [Nat.zero_add]
  | step hAt hActive hGoes hExecute _ inductionHypothesis =>
      rw [Nat.add_right_comm, runFrom, hAt]
      simp only [hActive, Bool.false_eq_true, if_false, hGoes, hExecute]
      exact inductionHypothesis

/-- Outside its code a machine stops at once. -/
theorem stopsWith_of_none {machine : Machine} {line : Int}
    (hAt : machine.instruction? line = none) {fault : RunFault}
    (hFault : (if line = machine.code.size then RunFault.noHalt else .badJump line) = fault) :
    machine.StopsWith line fault ∧ ∀ limit, fault ≠ .stepLimit limit := by
  by_cases hEnd : line = machine.code.size
  · rw [if_pos hEnd] at hFault
    subst hFault
    exact ⟨hAt, fun _ => RunFault.noConfusion⟩
  · rw [if_neg hEnd] at hFault
    subst hFault
    exact ⟨hAt, fun _ => RunFault.noConfusion⟩

/-- A run that fails comes to a moment where the machine stops, and uses up its budget if it
runs out of steps. -/
theorem steps_of_runFrom {budget : Nat} {machine : Machine} {line : Int} {fault : RunFault}
    (hRun : (runFrom budget machine line).1 = .error fault) :
    ∃ count last lastLine, Steps count machine line last lastLine ∧
      last.StopsWith lastLine fault ∧ ∀ limit, fault = .stepLimit limit → count = budget := by
  induction budget generalizing machine line with
  | zero =>
      refine ⟨0, machine, line, .refl machine line, ?_, fun _ _ => rfl⟩
      rw [runFrom] at hRun
      cases hAt : machine.instruction? line with
      | none =>
          rw [hAt] at hRun
          exact (stopsWith_of_none hAt (Except.error.inj hRun)).1
      | some instruction =>
          rw [hAt] at hRun
          rw [← Except.error.inj hRun]
          trivial
  | succ budget inductionHypothesis =>
      rw [runFrom] at hRun
      cases hAt : machine.instruction? line with
      | none =>
          rw [hAt] at hRun
          obtain ⟨hStops, hOther⟩ := stopsWith_of_none hAt (Except.error.inj hRun)
          exact ⟨0, machine, line, .refl machine line, hStops,
            fun limit hLimit => absurd hLimit (hOther limit)⟩
      | some instruction =>
          simp only [hAt] at hRun
          cases hActive : machine.stopsCancelled with
          | true =>
              simp only [hActive, if_true] at hRun
              rw [← Except.error.inj hRun]
              exact ⟨0, machine, line, .refl machine line, trivial,
                fun _ => RunFault.noConfusion⟩
          | false =>
              simp only [hActive, Bool.false_eq_true, if_false] at hRun
              by_cases hHalt : instruction.opcode = .halt
              · simp only [hHalt, if_true] at hRun
                cases hRun
              · simp only [hHalt, if_false] at hRun
                cases hExecute : (machine.charge line instruction).execute line instruction with
                | mk result after =>
                    cases result with
                    | error cause =>
                        simp only [hExecute] at hRun
                        rw [← Except.error.inj hRun]
                        refine ⟨0, machine, line, .refl machine line, ⟨hAt, hHalt, ?_⟩,
                          fun _ => RunFault.noConfusion⟩
                        rw [hExecute]
                    | ok next =>
                        simp only [hExecute] at hRun
                        obtain ⟨count, last, lastLine, hSteps, hStops, hCount⟩ :=
                          inductionHypothesis hRun
                        exact ⟨count + 1, last, lastLine,
                          .step hAt hActive hHalt hExecute hSteps, hStops,
                          fun limit hLimit => congrArg (· + 1) (hCount limit hLimit)⟩

theorem budget_of_create {code : List Instruction} {config : MachineConfig} {machine : Machine}
    (hCreate : Machine.create code config = .ok machine) (hLimit : config.stepLimit ≠ 0) :
    machine.limit - machine.steps = config.stepLimit := by
  unfold Machine.create at hCreate
  by_cases hFew : config.registers < 1
  · rw [if_pos hFew] at hCreate
    contradiction
  · rw [if_neg hFew, if_neg hLimit] at hCreate
    rw [← Except.ok.inj hCreate]
    exact Nat.sub_zero _

/-! ### Code that is never left -/

theorem sameSetup_combine (machine : Machine) (line register : Int) (value : Nat)
    (operation : Nat → Nat → Nat) :
    SameSetup machine (machine.combine line register value operation).2 := by
  unfold Machine.combine
  cases machine.cell? with
  | none => exact ⟨rfl, rfl, rfl⟩
  | some cell => exact sameSetup_setRegister machine register _

private theorem sameSetup_executeOn (machine : Machine) (line : Int) (instruction : Instruction)
    (value : Nat) : SameSetup machine (machine.executeOn line instruction value).2 := by
  cases hOpcode : instruction.opcode <;> simp only [executeOn, hOpcode]
  case get =>
    rw [take_eq]
    cases (takeNumber machine.input).1 with
    | error cause => exact ⟨rfl, rfl, rfl⟩
    | ok taken => exact ⟨rfl, by simp [Machine.setRegister], rfl⟩
  case put =>
    split
    · exact ⟨rfl, rfl, rfl⟩
    · exact sameSetup_give machine value
  case load => exact sameSetup_combine machine line _ value _
  case add => exact sameSetup_combine machine line _ value _
  case sub => exact sameSetup_combine machine line _ value _
  case copy => exact sameSetup_setRegister machine 0 value
  case shr => exact sameSetup_setRegister machine _ _
  case shl => exact sameSetup_setRegister machine _ _
  case inc => exact sameSetup_setRegister machine _ _
  case dec => exact sameSetup_setRegister machine _ _
  case zero => exact sameSetup_setRegister machine _ _
  all_goals exact ⟨rfl, rfl, rfl⟩

private theorem sameSetup_execute (machine : Machine) (line : Int) (instruction : Instruction) :
    SameSetup machine (machine.execute line instruction).2 := by
  unfold Machine.execute
  split
  · exact ⟨rfl, rfl, rfl⟩
  · cases machine.register? instruction.register with
    | none => exact ⟨rfl, rfl, rfl⟩
    | some value => exact sameSetup_executeOn machine line instruction value

theorem sameSetup_step {machine middle : Machine} {line : Int} {instruction : Instruction}
    {result : Except ExecutionFault Int}
    (hExecute : (machine.charge line instruction).execute line instruction = (result, middle)) :
    SameSetup machine middle := by
  have hCharged : SameSetup machine (machine.charge line instruction) := ⟨rfl, rfl, rfl⟩
  have hExecuted := sameSetup_execute (machine.charge line instruction) line instruction
  rw [hExecute] at hExecuted
  exact hCharged.trans hExecuted

theorem Steps.sameSetup {count : Nat} {machine last : Machine} {line lastLine : Int}
    (hSteps : Steps count machine line last lastLine) : SameSetup machine last := by
  induction hSteps with
  | refl => exact ⟨rfl, rfl, rfl⟩
  | step _ _ _ hExecute _ inductionHypothesis =>
      exact (sameSetup_step hExecute).trans inductionHypothesis

end Machine

private theorem Instruction.Within.hasRegister {registers : Int} {lines : Nat}
    {instruction : Instruction} (hWithin : instruction.Within registers lines)
    (hGoes : instruction.opcode ≠ .halt) (hJump : instruction.opcode ≠ .jump) :
    instruction.opcode.shape.hasRegister = true := by
  have hDefined := hWithin.opcode
  cases hOpcode : instruction.opcode <;> first
    | rfl
    | exact absurd hOpcode hJump
    | exact absurd hOpcode hGoes
    | (rw [hOpcode] at hDefined; contradiction)

/-- Code that uses the first registers only, whose jumps stay inside and whose last line is
HALT. -/
structure ClosedCode (registers : Int) (code : List Instruction) : Prop where
  within : ∀ instruction ∈ code, instruction.Within registers (code.length - 1)
  last : ∀ line instruction, instructionAt code line = some instruction →
    line + 1 = code.length → instruction.opcode = .halt
  nonempty : code ≠ []

namespace Machine

structure Houses (machine : Machine) (code : List Instruction) : Prop where
  loaded : machine.code = code.toArray
  closed : ClosedCode machine.registers.size code

variable {machine : Machine} {code : List Instruction}

private theorem Houses.sameSetup {after : Machine} (hHouses : machine.Houses code)
    (hSame : SameSetup machine after) : after.Houses code := by
  refine ⟨hSame.code.trans hHouses.loaded, ?_⟩
  rw [hSame.size]
  exact hHouses.closed

private theorem Houses.instruction? (hHouses : machine.Houses code) (line : Int) :
    machine.instruction? line = instructionAt code line := by
  simp [Machine.instruction?, instructionAt, hHouses.loaded]

end Machine

private theorem exists_instructionAt {code : List Instruction} {line : Int} (hLow : 0 ≤ line)
    (hHigh : line < code.length) : ∃ instruction, instructionAt code line = some instruction := by
  have hNat : line.toNat < code.length := by omega
  exact ⟨_, by rw [instructionAt, if_neg (by omega), List.getElem?_eq_getElem hNat]⟩

namespace Machine

variable {machine : Machine} {code : List Instruction}

private theorem execute_line {line next : Int} {instruction : Instruction} {after : Machine}
    (hExecute : machine.execute line instruction = (.ok next, after)) :
    next = line + 1 ∨ instruction.opcode.isJump = true ∧ next = instruction.target := by
  unfold Machine.execute at hExecute
  by_cases hJump : instruction.opcode = .jump
  · rw [if_pos hJump] at hExecute
    cases hExecute
    exact .inr ⟨by rw [hJump]; rfl, rfl⟩
  · rw [if_neg hJump] at hExecute
    cases hValue : machine.register? instruction.register with
    | none =>
        rw [hValue] at hExecute
        cases hExecute
    | some value =>
        rw [hValue] at hExecute
        have hCombine : ∀ operation, machine.combine line instruction.register value operation =
            (.ok next, after) → next = line + 1 := by
          intro operation hCombined
          unfold Machine.combine at hCombined
          cases hCell : machine.cell? with
          | none =>
              rw [hCell] at hCombined
              cases hCombined
          | some cell =>
              rw [hCell] at hCombined
              cases hCombined
              rfl
        cases hOpcode : instruction.opcode <;> simp only [executeOn, hOpcode] at hExecute
        case get =>
          cases hTaken : machine.take with
          | mk result used =>
              rw [hTaken] at hExecute
              cases result with
              | error cause => cases hExecute
              | ok taken =>
                  cases hExecute
                  exact .inl rfl
        case put =>
          split at hExecute
          · cases hExecute
          · cases hExecute
            exact .inl rfl
        case load => exact .inl (hCombine _ hExecute)
        case add => exact .inl (hCombine _ hExecute)
        case sub => exact .inl (hCombine _ hExecute)
        case jump => exact absurd hOpcode hJump
        case jzero =>
          cases hExecute
          split
          · exact .inr ⟨rfl, rfl⟩
          · exact .inl rfl
        case jodd =>
          cases hExecute
          split
          · exact .inr ⟨rfl, rfl⟩
          · exact .inl rfl
        all_goals
          cases hExecute
          try exact .inl rfl

/-- Control stays in closed code. -/
theorem Houses.steps (hHouses : machine.Houses code) {count : Nat} {last : Machine}
    {line lastLine : Int} (hSteps : Steps count machine line last lastLine) (hLow : 0 ≤ line)
    (hHigh : line < code.length) :
    last.Houses code ∧ 0 ≤ lastLine ∧ lastLine < code.length := by
  induction hSteps with
  | refl => exact ⟨hHouses, hLow, hHigh⟩
  | @step _ machine _ _ line next _ instruction hAt _ hGoes hExecute _ inductionHypothesis =>
      rw [hHouses.instruction?] at hAt
      have hWithin := hHouses.closed.within _ (mem_of_instructionAt hAt)
      refine inductionHypothesis (hHouses.sameSetup (sameSetup_step hExecute)) ?_ ?_
      all_goals rcases execute_line hExecute with rfl | ⟨hJump, rfl⟩
      · omega
      · exact (hWithin.target hJump).1
      · have hLast : line + 1 ≠ code.length := fun hEnd =>
          hGoes (hHouses.closed.last line instruction hAt hEnd)
        omega
      · have hTarget := (hWithin.target hJump).2
        omega

/-- A fault that closed code never causes. -/
def IsStray : RunFault → Bool
  | .noHalt | .badJump _ => true
  | .execution _ _ (.badRegister _) | .execution _ _ (.unknownOpcode _) => true
  | _ => false

private theorem takeNumber_error {input : Option Feed} {cause : ExecutionFault}
    (hError : (takeNumber input).1 = .error cause) :
    (∀ register, cause ≠ .badRegister register) ∧ ∀ byte, cause ≠ .unknownOpcode byte := by
  unfold takeNumber at hError
  split at hError
  · rw [← Except.error.inj hError]
    exact ⟨fun _ => ExecutionFault.noConfusion, fun _ => ExecutionFault.noConfusion⟩
  · split at hError
    · rw [← Except.error.inj hError]
      constructor
      all_goals
        intro _
        split <;> exact ExecutionFault.noConfusion
    · rw [← Except.error.inj hError]
      exact ⟨fun _ => ExecutionFault.noConfusion, fun _ => ExecutionFault.noConfusion⟩
    · split at hError
      · cases hError
      · rw [← Except.error.inj hError]
        exact ⟨fun _ => ExecutionFault.noConfusion, fun _ => ExecutionFault.noConfusion⟩

private theorem executeOn_error {line : Int} {instruction : Instruction} {value : Nat}
    {cause : ExecutionFault} (hDefined : instruction.opcode.isDefined = true)
    (hGoes : instruction.opcode ≠ .halt) (hJump : instruction.opcode ≠ .jump)
    (hError : (machine.executeOn line instruction value).1 = .error cause) :
    (∀ register, cause ≠ .badRegister register) ∧ ∀ byte, cause ≠ .unknownOpcode byte := by
  have hCombine : ∀ operation, (machine.combine line instruction.register value operation).1 =
      .error cause → ∃ address, cause = .uninitialized address := by
    intro operation hCombined
    unfold Machine.combine at hCombined
    cases hCell : machine.cell? with
    | none =>
        rw [hCell] at hCombined
        exact ⟨_, (Except.error.inj hCombined).symm⟩
    | some cell =>
        rw [hCell] at hCombined
        cases hCombined
  cases hOpcode : instruction.opcode <;> simp only [executeOn, hOpcode] at hError
  case get =>
    rw [take_eq] at hError
    cases hTaken : (takeNumber machine.input).1 with
    | error found =>
        rw [hTaken] at hError
        rw [← Except.error.inj hError]
        exact takeNumber_error hTaken
    | ok taken =>
        rw [hTaken] at hError
        cases hError
  case put =>
    split at hError
    · rw [← Except.error.inj hError]
      exact ⟨fun _ => ExecutionFault.noConfusion, fun _ => ExecutionFault.noConfusion⟩
    · cases hError
  case load =>
    obtain ⟨address, rfl⟩ := hCombine _ hError
    exact ⟨fun _ => ExecutionFault.noConfusion, fun _ => ExecutionFault.noConfusion⟩
  case add =>
    obtain ⟨address, rfl⟩ := hCombine _ hError
    exact ⟨fun _ => ExecutionFault.noConfusion, fun _ => ExecutionFault.noConfusion⟩
  case sub =>
    obtain ⟨address, rfl⟩ := hCombine _ hError
    exact ⟨fun _ => ExecutionFault.noConfusion, fun _ => ExecutionFault.noConfusion⟩
  case halt => exact absurd hOpcode hGoes
  case jump => exact absurd hOpcode hJump
  case undefined =>
    rw [hOpcode] at hDefined
    contradiction
  all_goals cases hError

/-- Whatever stops a machine on closed code, it is not the code. -/
theorem Houses.isStray (hHouses : machine.Houses code) {budget : Nat} {fault : RunFault}
    (hRun : (runFrom budget machine 0).1 = .error fault) : IsStray fault = false := by
  have hSome : (0 : Int) < code.length := by
    have hLength := List.length_pos_iff.mpr hHouses.closed.nonempty
    omega
  obtain ⟨count, last, line, hSteps, hStops, -⟩ := steps_of_runFrom hRun
  obtain ⟨hThere, hLow, hHigh⟩ := hHouses.steps hSteps (Int.le_refl 0) hSome
  obtain ⟨instruction, hAt⟩ := exists_instructionAt hLow hHigh
  rw [← hThere.instruction?] at hAt
  cases fault with
  | noHalt =>
      rw [StopsWith, hAt] at hStops
      contradiction
  | badJump =>
      rw [StopsWith, hAt] at hStops
      contradiction
  | stepLimit => rfl
  | cancelled => rfl
  | execution found other cause =>
      obtain ⟨hOther, hGoes, hError⟩ := hStops
      have hWithin := hThere.closed.within _
        (mem_of_instructionAt ((hThere.instruction? line).symm.trans hOther))
      unfold Machine.execute at hError
      by_cases hJump : other.opcode = .jump
      · rw [if_pos hJump] at hError
        cases hError
      · obtain ⟨hFirst, hLast⟩ := hWithin.register (hWithin.hasRegister hGoes hJump)
        have hNat : other.register.toNat < last.registers.size := by omega
        have hValue : (last.charge line other).register? other.register =
            some (last.registers[other.register.toNat]) := by
          simp only [Machine.register?, Machine.charge]
          rw [if_neg (by omega), Array.getElem?_eq_getElem hNat]
        rw [if_neg hJump, hValue] at hError
        obtain ⟨hKnown, hMeaning⟩ := executeOn_error hWithin.opcode hGoes hJump hError
        cases cause with
        | badRegister register => exact absurd rfl (hKnown register)
        | unknownOpcode byte => exact absurd rfl (hMeaning byte)
        | _ => rfl

/-! ### Filled memory -/

/-- A snapshot that has the registers and the input of a machine, and a given number in every
cell that the machine has not written. -/
structure Filled (value : Nat) (machine : Machine) (snapshot : Snapshot) : Prop where
  registers : ∀ register : Int, 0 ≤ register → register < machine.registers.size →
    machine.registers[register.toNat]? = some (snapshot.registers register)
  nonempty : 0 < machine.registers.size
  memory : ∀ address, snapshot.memory address = some (machine.memory[address]?.getD value)
  input : machine.input = snapshot.input

namespace Filled

variable {filler : Nat} {snapshot : Snapshot}

private theorem pointer (hFilled : Filled filler machine snapshot) :
    machine.pointer = snapshot.pointer := by
  have hZero := hFilled.registers 0 (Int.le_refl 0) (by have := hFilled.nonempty; omega)
  simp only [Int.toNat_zero] at hZero
  simp only [Machine.pointer, Snapshot.pointer, hZero, Option.getD_some]

private theorem setRegister (hFilled : Filled filler machine snapshot) {register : Int}
    (hLow : 0 ≤ register) (value : Nat) :
    Filled filler (machine.setRegister register value)
      (snapshot.setRegister register value) where
  registers := by
    intro other hOther hSize
    simp only [Machine.setRegister, Array.set!_eq_setIfInBounds, Array.size_setIfInBounds]
      at hSize
    simp only [Machine.setRegister, Snapshot.setRegister, Array.set!_eq_setIfInBounds,
      Array.getElem?_setIfInBounds]
    by_cases hSame : other = register
    · subst hSame
      rw [if_pos rfl, if_pos (by omega), Function.update_self]
    · rw [if_neg (by omega), Function.update_of_ne hSame]
      exact hFilled.registers other hOther hSize
  nonempty := by
    simp only [Machine.setRegister, Array.set!_eq_setIfInBounds, Array.size_setIfInBounds]
    exact hFilled.nonempty
  memory := hFilled.memory
  input := hFilled.input

private theorem store (hFilled : Filled filler machine snapshot) (value : Nat) :
    Filled filler { machine with memory := machine.memory.insert machine.pointer value }
      (snapshot.setCell snapshot.pointer value) where
  registers := hFilled.registers
  nonempty := hFilled.nonempty
  memory := by
    intro address
    simp only [Std.HashMap.getElem?_insert, Snapshot.setCell, hFilled.pointer]
    by_cases hSame : address = snapshot.pointer
    · subst hSame
      simp
    · rw [Function.update_of_ne hSame]
      simp only [beq_iff_eq, Ne.symm hSame, if_false]
      exact hFilled.memory address
  input := hFilled.input

private theorem give (hFilled : Filled filler machine snapshot) (value : Nat) :
    Filled filler (machine.give value) { snapshot with output := snapshot.output ++ [value] } := by
  unfold Machine.give
  split
  all_goals exact ⟨hFilled.registers, hFilled.nonempty, hFilled.memory, hFilled.input⟩

private theorem combine (hFilled : Filled filler machine snapshot) {register : Int}
    (hLow : 0 ≤ register) {line next : Int} {value : Nat} {operation : Nat → Nat → Nat}
    {after : Machine}
    (hCombine : machine.combine line register value operation = (.ok next, after)) :
    ∃ later, (snapshot.memory snapshot.pointer).map (fun cell =>
      snapshot.setRegister register (operation value cell)) = some later ∧ next = line + 1 ∧
        Filled filler after later := by
  unfold Machine.combine at hCombine
  cases hCell : machine.cell? with
  | none =>
      rw [hCell] at hCombine
      cases hCombine
  | some cell =>
      rw [hCell] at hCombine
      cases hCombine
      have hFound : snapshot.memory snapshot.pointer = some cell := by
        have hThere : machine.memory[machine.pointer]? = some cell := hCell
        rw [hFilled.memory, ← hFilled.pointer, hThere]
        rfl
      exact ⟨_, by rw [hFound]; rfl, rfl, hFilled.setRegister hLow _⟩

private theorem register? (hFilled : Filled filler machine snapshot) {register : Int}
    (hLow : 0 ≤ register) {value : Nat} (hValue : machine.register? register = some value) :
    snapshot.registers register = value := by
  simp only [Machine.register?, if_neg (Int.not_lt.mpr hLow)] at hValue
  have hSize := (Array.getElem?_eq_some_iff.mp hValue).1
  have hHeld := hFilled.registers register hLow (by omega)
  exact Option.some.inj (hHeld.symm.trans hValue)

private theorem effect (hFilled : Filled filler machine snapshot) {instruction : Instruction}
    (hLow : 0 ≤ instruction.register) (hJumps : instruction.opcode.isJump = false)
    (hDefined : instruction.opcode.isDefined = true) (hGoes : instruction.opcode ≠ .halt)
    {line next : Int} {after : Machine}
    (hExecute : machine.executeOn line instruction (snapshot.registers instruction.register) =
      (.ok next, after)) :
    ∃ later, snapshot.effect? instruction = some later ∧ next = line + 1 ∧
      Filled filler after later := by
  cases hOpcode : instruction.opcode <;>
    simp only [executeOn, hOpcode] at hExecute <;>
    simp only [Snapshot.effect?, hOpcode]
  case get =>
    rw [take_eq, hFilled.input] at hExecute
    cases hTaken : takeNumber snapshot.input with
    | mk result rest =>
        simp only [hTaken] at hExecute
        cases result with
        | error cause => cases hExecute
        | ok taken =>
            cases hExecute
            have hRest : Filled filler { machine with input := rest }
                { snapshot with input := rest } :=
              ⟨hFilled.registers, hFilled.nonempty, hFilled.memory, rfl⟩
            exact ⟨_, rfl, rfl, hRest.setRegister hLow taken⟩
  case put =>
    split at hExecute
    · cases hExecute
    · cases hExecute
      exact ⟨_, rfl, rfl, hFilled.give _⟩
  case load => exact hFilled.combine hLow hExecute
  case add => exact hFilled.combine hLow hExecute
  case sub => exact hFilled.combine hLow hExecute
  case store =>
    cases hExecute
    exact ⟨_, rfl, rfl, hFilled.store _⟩
  case copy =>
    cases hExecute
    exact ⟨_, rfl, rfl, hFilled.setRegister (Int.le_refl 0) _⟩
  case jump | jzero | jodd => simp [hOpcode, Opcode.isJump] at hJumps
  case halt => exact absurd hOpcode hGoes
  case undefined =>
    rw [hOpcode] at hDefined
    contradiction
  all_goals
    cases hExecute
    exact ⟨_, rfl, rfl, hFilled.setRegister hLow _⟩

private theorem step (hFilled : Filled filler machine snapshot) {lines : Nat}
    {instruction : Instruction} (hWithin : instruction.Within machine.registers.size lines)
    (hGoes : instruction.opcode ≠ .halt) {line next : Int} {after : Machine}
    (hExecute : machine.execute line instruction = (.ok next, after)) :
    ∃ later, snapshot.step? line instruction = some (next, later) ∧ Filled filler after later := by
  unfold Machine.execute at hExecute
  by_cases hJump : instruction.opcode = .jump
  · rw [if_pos hJump] at hExecute
    cases hExecute
    exact ⟨snapshot, by simp only [Snapshot.step?, hJump], hFilled⟩
  · rw [if_neg hJump] at hExecute
    have hLow := (hWithin.register (hWithin.hasRegister hGoes hJump)).1
    cases hValue : machine.register? instruction.register with
    | none =>
        rw [hValue] at hExecute
        cases hExecute
    | some value =>
        rw [hValue] at hExecute
        obtain rfl := hFilled.register? hLow hValue
        by_cases hZero : instruction.opcode = .jzero
        · simp only [executeOn, hZero] at hExecute
          cases hExecute
          exact ⟨snapshot, by simp only [Snapshot.step?, hZero], hFilled⟩
        · by_cases hOdd : instruction.opcode = .jodd
          · simp only [executeOn, hOdd] at hExecute
            cases hExecute
            exact ⟨snapshot, by simp only [Snapshot.step?, hOdd], hFilled⟩
          · have hJumps : instruction.opcode.isJump = false := by
              cases hOpcode : instruction.opcode <;> first
                | rfl
                | exact absurd hOpcode hJump
                | exact absurd hOpcode hZero
                | exact absurd hOpcode hOdd
            obtain ⟨later, hEffect, rfl, hLater⟩ :=
              hFilled.effect hLow hJumps hWithin.opcode hGoes hExecute
            exact ⟨later, Snapshot.step?_of_effect? hEffect line, hLater⟩

end Filled

/-- A filled snapshot follows all steps of a machine on closed code. -/
theorem Houses.runs (hHouses : machine.Houses code) {count : Nat} {last : Machine}
    {line lastLine : Int} (hSteps : Steps count machine line last lastLine) {filler : Nat}
    {snapshot : Snapshot} (hFilled : Filled filler machine snapshot) :
    ∃ later, Runs code count line snapshot lastLine later ∧ Filled filler last later := by
  induction hSteps generalizing snapshot with
  | refl => exact ⟨snapshot, .refl _ snapshot, hFilled⟩
  | @step _ machine _ _ line next _ instruction hAt _ hGoes hExecute _ inductionHypothesis =>
      have hCode := (hHouses.instruction? line).symm.trans hAt
      have hCharged : Filled filler (machine.charge line instruction) snapshot :=
        ⟨hFilled.registers, hFilled.nonempty, hFilled.memory, hFilled.input⟩
      obtain ⟨middle, hStep, hMiddle⟩ :=
        hCharged.step (hHouses.closed.within _ (mem_of_instructionAt hCode)) hGoes hExecute
      obtain ⟨later, hRuns, hLater⟩ :=
        inductionHypothesis (hHouses.sameSetup (sameSetup_step hExecute)) hMiddle
      exact ⟨later, .step hCode hStep hRuns, hLater⟩

end Machine

end RegisterCompiler
