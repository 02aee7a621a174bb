/-
Runs of machines.

A machine that holds what a snapshot says follows the runs of the snapshot step by
step, whatever its counters are.  So a run of snapshots that ends at HALT, at a GET
without a number, or nowhere within a budget, is the beginning of the run of the
machine.
-/

import RegisterCompiler.Proofs.Machine.Snapshot

set_option autoImplicit false

namespace RegisterCompiler

def Shape.hasRegister : Shape → Bool
  | .register | .registerTarget => true
  | .none | .target => false

/-- A defined instruction whose register is one of the first `registers` and whose
jump leads no further than to the line behind the first `lines`. -/
structure Instruction.Within (registers : Int) (lines : Nat) (instruction : Instruction) :
    Prop where
  opcode : instruction.opcode.isDefined = true
  register : instruction.opcode.shape.hasRegister = true →
    0 ≤ instruction.register ∧ instruction.register < registers
  target : instruction.opcode.isJump = true →
    0 ≤ instruction.target ∧ instruction.target ≤ lines

namespace Machine

/-- A machine that holds what a snapshot says, with an open output, and is not
cancelled. -/
structure Represents (machine : Machine) (snapshot : Snapshot) : Prop where
  registers : ∀ register : Int, 0 ≤ register → register < machine.registers.size →
    machine.registers[register.toNat]? = some (snapshot.registers register)
  nonempty : 0 < machine.registers.size
  memory : ∀ address, machine.memory[address]? = snapshot.memory address
  input : machine.input = snapshot.input
  output : machine.output.toList = snapshot.output
  sink : machine.sink = .unbounded
  cancelled : machine.cancelled = false

structure SameSetup (before after : Machine) : Prop where
  code : after.code = before.code
  size : after.registers.size = before.registers.size
  limit : after.limit = before.limit

theorem SameSetup.trans {before middle after : Machine} (hFirst : SameSetup before middle)
    (hSecond : SameSetup middle after) : SameSetup before after where
  code := hSecond.code.trans hFirst.code
  size := hSecond.size.trans hFirst.size
  limit := hSecond.limit.trans hFirst.limit

namespace Represents

variable {machine : Machine} {snapshot : Snapshot}

theorem register? (hRepresents : machine.Represents snapshot) {register : Int}
    (hLow : 0 ≤ register) (hHigh : register < machine.registers.size) :
    machine.register? register = some (snapshot.registers register) := by
  unfold Machine.register?
  rw [if_neg (by omega)]
  exact hRepresents.registers register hLow hHigh

private theorem pointer (hRepresents : machine.Represents snapshot) :
    machine.pointer = snapshot.pointer := by
  have hFirst := hRepresents.registers 0 (Int.le_refl 0)
    (Int.natCast_pos.mpr hRepresents.nonempty)
  simp only [Int.toNat_zero] at hFirst
  simp only [Machine.pointer, hFirst, Option.getD_some, Snapshot.pointer]

private theorem cell? (hRepresents : machine.Represents snapshot) :
    machine.cell? = snapshot.memory snapshot.pointer := by
  rw [Machine.cell?, hRepresents.memory, hRepresents.pointer]

theorem charge (hRepresents : machine.Represents snapshot) (line : Int)
    (instruction : Instruction) : (machine.charge line instruction).Represents snapshot where
  registers := hRepresents.registers
  nonempty := hRepresents.nonempty
  memory := hRepresents.memory
  input := hRepresents.input
  output := hRepresents.output
  sink := hRepresents.sink
  cancelled := hRepresents.cancelled

private theorem setRegister (hRepresents : machine.Represents snapshot) {register : Int}
    (hLow : 0 ≤ register) (value : Nat) :
    (machine.setRegister register value).Represents (snapshot.setRegister register value) where
  registers := by
    intro other hOther hSize
    simp only [Machine.setRegister, Array.set!_eq_setIfInBounds, Array.size_setIfInBounds]
      at hSize
    simp only [Machine.setRegister, Snapshot.setRegister, Array.set!_eq_setIfInBounds,
      Array.getElem?_setIfInBounds]
    by_cases hSame : other = register
    · subst hSame
      rw [if_pos rfl, if_pos (by omega), Function.update_self]
    · rw [if_neg (by omega), Function.update_of_ne hSame]
      exact hRepresents.registers other hOther hSize
  nonempty := by
    simp only [Machine.setRegister, Array.set!_eq_setIfInBounds, Array.size_setIfInBounds]
    exact hRepresents.nonempty
  memory := hRepresents.memory
  input := hRepresents.input
  output := hRepresents.output
  sink := hRepresents.sink
  cancelled := hRepresents.cancelled

private theorem store (hRepresents : machine.Represents snapshot) (value : Nat) :
    Represents { machine with memory := machine.memory.insert machine.pointer value }
      (snapshot.setCell snapshot.pointer value) where
  registers := hRepresents.registers
  nonempty := hRepresents.nonempty
  memory := by
    intro address
    simp only [Std.HashMap.getElem?_insert, Snapshot.setCell, hRepresents.pointer]
    by_cases hSame : address = snapshot.pointer
    · subst hSame
      simp
    · rw [Function.update_of_ne hSame]
      simp only [beq_iff_eq, Ne.symm hSame, if_false]
      exact hRepresents.memory address
  input := hRepresents.input
  output := hRepresents.output
  sink := hRepresents.sink
  cancelled := hRepresents.cancelled

private theorem give (hRepresents : machine.Represents snapshot) (value : Nat) :
    (machine.give value).Represents { snapshot with output := snapshot.output ++ [value] } := by
  unfold Machine.give
  rw [hRepresents.sink]
  exact {
    registers := hRepresents.registers
    nonempty := hRepresents.nonempty
    memory := hRepresents.memory
    input := hRepresents.input
    output := by simp [hRepresents.output]
    sink := rfl
    cancelled := hRepresents.cancelled }

private theorem setInput (hRepresents : machine.Represents snapshot) (input : Option Feed) :
    Represents { machine with input := input } { snapshot with input := input } where
  registers := hRepresents.registers
  nonempty := hRepresents.nonempty
  memory := hRepresents.memory
  input := rfl
  output := hRepresents.output
  sink := hRepresents.sink
  cancelled := hRepresents.cancelled

end Represents

theorem sameSetup_setRegister (machine : Machine) (register : Int) (value : Nat) :
    SameSetup machine (machine.setRegister register value) where
  code := rfl
  size := by simp [Machine.setRegister]
  limit := rfl

theorem sameSetup_give (machine : Machine) (value : Nat) :
    SameSetup machine (machine.give value) := by
  unfold Machine.give
  split <;> exact ⟨rfl, rfl, rfl⟩

/-- An instruction that reads the addressed cell. -/
theorem combine_of_represents {machine : Machine} {snapshot after : Snapshot}
    (hRepresents : machine.Represents snapshot) {register : Int} (hLow : 0 ≤ register)
    (line : Int) (value : Nat) (operation : Nat → Nat → Nat)
    (hEffect : (snapshot.memory snapshot.pointer).map
      (fun cell => snapshot.setRegister register (operation value cell)) = some after) :
    ∃ next, machine.combine line register value operation = (.ok (line + 1), next) ∧
      next.Represents after ∧ SameSetup machine next := by
  obtain ⟨cell, hCell, hAfter⟩ := Option.map_eq_some_iff.mp hEffect
  subst hAfter
  refine ⟨_, ?_, hRepresents.setRegister hLow (operation value cell),
    sameSetup_setRegister machine register _⟩
  simp only [Machine.combine, hRepresents.cell?, hCell]

private theorem executeOn_of_effect? {machine : Machine} {snapshot after : Snapshot}
    {instruction : Instruction} (hRepresents : machine.Represents snapshot)
    (hLow : 0 ≤ instruction.register) (line : Int)
    (hEffect : snapshot.effect? instruction = some after) :
    ∃ next,
      machine.executeOn line instruction (snapshot.registers instruction.register) =
        (.ok (line + 1), next) ∧
      next.Represents after ∧ SameSetup machine next := by
  have hUpdate : ∀ value,
      (machine.setRegister instruction.register value).Represents
          (snapshot.setRegister instruction.register value) ∧
        SameSetup machine (machine.setRegister instruction.register value) :=
    fun value => ⟨hRepresents.setRegister hLow value, sameSetup_setRegister machine _ value⟩
  cases hOpcode : instruction.opcode <;> simp only [Snapshot.effect?, hOpcode] at hEffect <;>
    simp only [Machine.executeOn, hOpcode]
  case get =>
    cases hTaken : takeNumber snapshot.input with
    | mk result rest =>
        rw [hTaken] at hEffect
        cases result with
        | error cause => contradiction
        | ok value =>
            cases hEffect
            rw [Machine.take_eq, hRepresents.input, hTaken]
            exact ⟨_, rfl, (hRepresents.setInput rest).setRegister hLow value,
              ⟨rfl, by simp [Machine.setRegister], rfl⟩⟩
  case put =>
    cases hEffect
    have hOpen : machine.isClosed = false := by
      simp [Machine.isClosed, hRepresents.sink]
    simp only [hOpen, Bool.false_eq_true, if_false]
    exact ⟨_, rfl, hRepresents.give _, sameSetup_give machine _⟩
  case load => exact combine_of_represents hRepresents hLow line _ (fun _ cell => cell) hEffect
  case store =>
    cases hEffect
    exact ⟨_, rfl, hRepresents.store _, ⟨rfl, rfl, rfl⟩⟩
  case add => exact combine_of_represents hRepresents hLow line _ (· + ·) hEffect
  case sub => exact combine_of_represents hRepresents hLow line _ (· - ·) hEffect
  case copy =>
    cases hEffect
    exact ⟨_, rfl, hRepresents.setRegister (Int.le_refl 0) _, sameSetup_setRegister machine 0 _⟩
  case shr =>
    cases hEffect
    exact ⟨_, rfl, hUpdate _⟩
  case shl =>
    cases hEffect
    exact ⟨_, rfl, hUpdate _⟩
  case inc =>
    cases hEffect
    exact ⟨_, rfl, hUpdate _⟩
  case dec =>
    cases hEffect
    exact ⟨_, rfl, hUpdate _⟩
  case zero =>
    cases hEffect
    exact ⟨_, rfl, hUpdate _⟩
  all_goals contradiction

theorem execute_of_step? {machine : Machine} {snapshot after : Snapshot}
    {instruction : Instruction} {lines : Nat} (hRepresents : machine.Represents snapshot)
    (hWithin : instruction.Within machine.registers.size lines) {line next : Int}
    (hStep : snapshot.step? line instruction = some (next, after)) :
    ∃ later, machine.execute line instruction = (.ok next, later) ∧
      later.Represents after ∧ SameSetup machine later := by
  unfold Machine.execute
  by_cases hJump : instruction.opcode = .jump
  · simp only [Snapshot.step?, hJump, Option.some.injEq, Prod.mk.injEq] at hStep
    obtain ⟨rfl, rfl⟩ := hStep
    rw [if_pos hJump]
    exact ⟨machine, rfl, hRepresents, ⟨rfl, rfl, rfl⟩⟩
  · have hRegister : instruction.opcode.shape.hasRegister = true := by
      cases hOpcode : instruction.opcode <;> first
        | rfl
        | exact absurd hOpcode hJump
        | simp [Snapshot.step?, Snapshot.effect?, hOpcode] at hStep
    obtain ⟨hLow, hHigh⟩ := hWithin.register hRegister
    rw [if_neg hJump, hRepresents.register? hLow hHigh]
    by_cases hZero : instruction.opcode = .jzero
    · simp only [Snapshot.step?, hZero, Option.some.injEq, Prod.mk.injEq] at hStep
      obtain ⟨rfl, rfl⟩ := hStep
      simp only [Machine.executeOn, hZero]
      exact ⟨machine, rfl, hRepresents, ⟨rfl, rfl, rfl⟩⟩
    · by_cases hOdd : instruction.opcode = .jodd
      · simp only [Snapshot.step?, hOdd, Option.some.injEq, Prod.mk.injEq] at hStep
        obtain ⟨rfl, rfl⟩ := hStep
        simp only [Machine.executeOn, hOdd]
        exact ⟨machine, rfl, hRepresents, ⟨rfl, rfl, rfl⟩⟩
      · have hEffect : (snapshot.effect? instruction).map (fun after => (line + 1, after)) =
            some (next, after) := by
          unfold Snapshot.step? at hStep
          split at hStep
          · contradiction
          · contradiction
          · contradiction
          · exact hStep
        obtain ⟨found, hFound, hPair⟩ := Option.map_eq_some_iff.mp hEffect
        cases hPair
        exact executeOn_of_effect? hRepresents hLow line hFound

/-! ### Runs -/

structure Carries (machine : Machine) (code : List Instruction) : Prop where
  loaded : machine.code = code.toArray
  within : ∀ instruction ∈ code, ∃ lines, instruction.Within machine.registers.size lines

theorem Carries.sameSetup {before after : Machine} {code : List Instruction}
    (hCarries : before.Carries code) (hSame : SameSetup before after) : after.Carries code where
  loaded := hSame.code.trans hCarries.loaded
  within := by
    rw [hSame.size]
    exact hCarries.within

theorem Carries.instruction? {machine : Machine} {code : List Instruction}
    (hCarries : machine.Carries code) (line : Int) :
    machine.instruction? line = instructionAt code line := by
  simp only [Machine.instruction?, instructionAt, hCarries.loaded, List.getElem?_toArray]

theorem mem_of_instructionAt {code : List Instruction} {line : Int} {instruction : Instruction}
    (hAt : instructionAt code line = some instruction) : instruction ∈ code := by
  unfold instructionAt at hAt
  split at hAt
  · contradiction
  · exact List.mem_of_getElem? hAt

theorem ne_halt_of_step? {snapshot : Snapshot} {line : Int} {instruction : Instruction}
    {next : Int × Snapshot} (hStep : snapshot.step? line instruction = some next) :
    instruction.opcode ≠ .halt := by
  intro hHalt
  simp [Snapshot.step?, Snapshot.effect?, hHalt] at hStep

/-- A machine that is not cancelled takes the next step of its run as long as its
budget lasts. -/
theorem runFrom_succ {machine : Machine} {snapshot : Snapshot} {code : List Instruction}
    (hRepresents : machine.Represents snapshot) (hCarries : machine.Carries code) {line : Int}
    {instruction : Instruction} (hAt : instructionAt code line = some instruction)
    (hHalt : instruction.opcode ≠ .halt) (budget : Nat) :
    runFrom (budget + 1) machine line =
      match (machine.charge line instruction).execute line instruction with
      | (.ok next, after) => runFrom budget after next
      | (.error cause, after) => (.error (.execution line instruction cause), after) := by
  have hGoesOn : machine.stopsCancelled = false := by
    simp [Machine.stopsCancelled, hRepresents.cancelled]
  have hLoaded : machine.instruction? line = some instruction :=
    (hCarries.instruction? line).trans hAt
  rw [runFrom.eq_def]
  rcases hExecute : (machine.charge line instruction).execute line instruction with
    ⟨result, after⟩
  cases result with
  | ok next => simp [hLoaded, hGoesOn, hHalt, hExecute]
  | error cause => simp [hLoaded, hGoesOn, hHalt, hExecute]

theorem runFrom_of_runs {code : List Instruction} {steps : Nat} {line last : Int}
    {before after : Snapshot} (hRuns : Runs code steps line before last after)
    {machine : Machine} (hRepresents : machine.Represents before)
    (hCarries : machine.Carries code) :
    ∃ later, later.Represents after ∧ SameSetup machine later ∧
      ∀ budget, runFrom (steps + budget) machine line = runFrom budget later last := by
  induction hRuns generalizing machine with
  | refl line snapshot =>
      refine ⟨machine, hRepresents, ⟨rfl, rfl, rfl⟩, ?_⟩
      intro budget
      rw [Nat.zero_add]
  | @step steps line next last before middle after instruction hAt hStep hRest
      inductionHypothesis =>
      obtain ⟨lines, hWithin⟩ := hCarries.within instruction (mem_of_instructionAt hAt)
      have hCharged : SameSetup machine (machine.charge line instruction) := ⟨rfl, rfl, rfl⟩
      obtain ⟨moved, hExecute, hMoved, hSame⟩ :=
        execute_of_step? (hRepresents.charge line instruction) hWithin hStep
      have hReached := hCharged.trans hSame
      obtain ⟨later, hLater, hSetup, hRun⟩ :=
        inductionHypothesis hMoved (hCarries.sameSetup hReached)
      refine ⟨later, hLater, hReached.trans hSetup, ?_⟩
      intro budget
      have hBudget : steps + 1 + budget = steps + budget + 1 := by omega
      rw [hBudget, runFrom_succ hRepresents hCarries hAt (ne_halt_of_step? hStep), hExecute]
      exact hRun budget

theorem runFrom_halt {machine : Machine} {snapshot : Snapshot} {code : List Instruction}
    (hRepresents : machine.Represents snapshot) (hCarries : machine.Carries code) {line : Int}
    {instruction : Instruction} (hAt : instructionAt code line = some instruction)
    (hHalt : instruction.opcode = .halt) (budget : Nat) :
    (runFrom (budget + 1) machine line).1 = .ok () ∧
      (runFrom (budget + 1) machine line).2.output.toList = snapshot.output := by
  have hGoesOn : machine.stopsCancelled = false := by
    simp [Machine.stopsCancelled, hRepresents.cancelled]
  rw [runFrom.eq_def]
  simp only [hCarries.instruction?, hAt, hGoesOn, Bool.false_eq_true, if_false, hHalt, if_true]
  exact ⟨trivial, hRepresents.output⟩

/-- A GET that finds no number ends the run with its cause. -/
theorem runFrom_get {machine : Machine} {snapshot : Snapshot} {code : List Instruction}
    (hRepresents : machine.Represents snapshot) (hCarries : machine.Carries code) {line : Int}
    {instruction : Instruction} (hAt : instructionAt code line = some instruction)
    (hGet : instruction.opcode = .get) {cause : ExecutionFault} {rest : Option Feed}
    (hTaken : takeNumber snapshot.input = (.error cause, rest)) (budget : Nat) :
    (runFrom (budget + 1) machine line).1 = .error (.execution line instruction cause) ∧
      (runFrom (budget + 1) machine line).2.output.toList = snapshot.output := by
  obtain ⟨lines, hWithin⟩ := hCarries.within instruction (mem_of_instructionAt hAt)
  obtain ⟨hLow, hHigh⟩ := hWithin.register (by rw [hGet]; rfl)
  have hCharged := hRepresents.charge line instruction
  have hRegister := hCharged.register? hLow hHigh
  have hExecute : (machine.charge line instruction).execute line instruction =
      (.error cause, { machine.charge line instruction with input := rest }) := by
    simp only [Machine.execute, hRegister, Machine.executeOn, hGet, Machine.take_eq,
      hCharged.input, hTaken]
    rfl
  rw [runFrom_succ hRepresents hCarries hAt (by simp [hGet]), hExecute]
  exact ⟨rfl, hRepresents.output⟩

/-- A machine on a line of its code has its step limit for its only fault when the
budget is used up. -/
theorem runFrom_zero {machine : Machine} {snapshot : Snapshot} {code : List Instruction}
    (hRepresents : machine.Represents snapshot) (hCarries : machine.Carries code) {line : Int}
    {instruction : Instruction} (hAt : instructionAt code line = some instruction) :
    (runFrom 0 machine line).1 = .error (.stepLimit machine.limit) ∧
      (runFrom 0 machine line).2.output.toList = snapshot.output := by
  rw [runFrom.eq_def]
  simp only [hCarries.instruction?, hAt]
  exact ⟨trivial, hRepresents.output⟩

end Machine

end RegisterCompiler
