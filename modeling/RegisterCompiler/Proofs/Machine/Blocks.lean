/-
Blocks of code on a machine.

A block may stand anywhere in the code of a machine.  Inside a confined block the pointer
moves up and down in a fixed way: how far it stands above the place where the block found
it depends on the line only.  So a machine that runs the block writes a few known cells,
at whatever moment it is stopped.
-/

import RegisterCompiler.Proofs.Generator.Passage
import RegisterCompiler.Proofs.Machine.Silence

set_option autoImplicit false

namespace RegisterCompiler

namespace Instruction

/-- An instruction that moves the pointer as a level for each line says, neither reads input
nor puts anything, and does not set the pointer. -/
def KeepsLevel (level : Int → Nat) (line : Int) (instruction : Instruction) : Prop :=
  match instruction.opcode with
  | .jump => level instruction.target = level line
  | .jzero | .jodd => level instruction.target = level line ∧ level (line + 1) = level line
  | .store => level (line + 1) = level line
  | .inc => level (line + 1) = level line + if instruction.register = 0 then 1 else 0
  | .dec => (level (line + 1) + if instruction.register = 0 then 1 else 0) = level line
  | .load | .add | .sub | .shr | .shl | .zero =>
      instruction.register ≠ 0 ∧ level (line + 1) = level line
  | .halt => True
  | .get | .put | .copy | .undefined _ => False

variable {level : Int → Nat} {line : Int} {instruction : Instruction}

private theorem KeepsLevel.isDefined (hKeeps : instruction.KeepsLevel level line) :
    instruction.opcode.isDefined = true := by
  unfold KeepsLevel at hKeeps
  cases hOpcode : instruction.opcode with
  | undefined byte =>
      rw [hOpcode] at hKeeps
      contradiction
  | _ => rfl

private theorem KeepsLevel.step (hKeeps : instruction.KeepsLevel level line) {registers : List Int}
    (hUses : instruction.opcode.shape.hasRegister = true → instruction.register ∈ registers)
    {before after : Snapshot} {next : Int} {place : Nat}
    (hPlace : before.pointer = place + level line)
    (hStep : before.step? line instruction = some (next, after)) :
    after.pointer = place + level next ∧ before.AgreeExcept registers [before.pointer] after := by
  have hSame : before.AgreeExcept registers [before.pointer] before := .refl _ _ _
  have hOther : ∀ value, instruction.register ≠ 0 →
      (before.setRegister instruction.register value).pointer = before.pointer :=
    fun value hRegister => Snapshot.registers_setRegister_of_ne _ (Ne.symm hRegister) _
  unfold KeepsLevel at hKeeps
  unfold Snapshot.step? at hStep
  cases hOpcode : instruction.opcode <;>
    simp only [hOpcode, Snapshot.effect?, Option.map_some, Option.map_none, Option.some.injEq,
      Prod.mk.injEq, Option.map_map, Option.map_eq_some_iff] at hKeeps hStep <;>
    simp only [hOpcode, Opcode.shape, Shape.hasRegister, forall_const] at hUses
  case jump =>
    rcases hStep with ⟨rfl, rfl⟩
    exact ⟨hPlace.trans (by rw [hKeeps]), hSame⟩
  case jzero | jodd =>
    rcases hStep with ⟨rfl, rfl⟩
    constructor
    · split
      · rw [hPlace, hKeeps.1]
      · rw [hPlace, hKeeps.2]
    · exact hSame
  case store =>
    rcases hStep with ⟨rfl, rfl⟩
    exact ⟨hPlace.trans (by rw [hKeeps]), hSame.setCell List.mem_cons_self _⟩
  case inc =>
    rcases hStep with ⟨rfl, rfl⟩
    constructor
    · by_cases hZero : instruction.register = 0
      · rw [if_pos hZero] at hKeeps
        rw [hZero]
        change before.pointer + 1 = _
        omega
      · rw [if_neg hZero] at hKeeps
        rw [hOther _ hZero, hPlace, hKeeps, Nat.add_zero]
    · exact hSame.setRegister hUses _
  case dec =>
    rcases hStep with ⟨rfl, rfl⟩
    constructor
    · by_cases hZero : instruction.register = 0
      · rw [if_pos hZero] at hKeeps
        rw [hZero]
        change before.pointer - 1 = _
        omega
      · rw [if_neg hZero, Nat.add_zero] at hKeeps
        rw [hOther _ hZero, hPlace, hKeeps]
    · exact hSame.setRegister hUses _
  case load | add | sub =>
    rcases hStep with ⟨cell, -, rfl, rfl⟩
    exact ⟨by rw [hOther _ hKeeps.1, hPlace, hKeeps.2], hSame.setRegister hUses _⟩
  case shr | shl | zero =>
    rcases hStep with ⟨rfl, rfl⟩
    exact ⟨by rw [hOther _ hKeeps.1, hPlace, hKeeps.2], hSame.setRegister hUses _⟩
  case halt => simp at hStep

end Instruction

/-! ### Confined blocks -/

theorem endsWith_replicate (start : Nat) (block : List Instruction) :
    EndsWith (List.replicate start .stop ++ block) start block where
  embedded := by
    intro index instruction hFound
    rw [instructionAt, if_neg (by omega), show ((start : Int) + index).toNat = start + index by
      omega, List.getElem?_append_right (by simp), List.length_replicate, Nat.add_sub_cancel_left]
    exact hFound
  ends := by
    intro line instruction hAt
    unfold instructionAt at hAt
    split at hAt
    · contradiction
    · have hLine := (List.getElem?_eq_some_iff.mp hAt).1
      rw [List.length_append, List.length_replicate] at hLine
      omega

/-- A block that keeps to some registers, to its own lines and those behind it, and to a level
of the pointer for each line. -/
structure Confined (level : Int → Nat) (registers : List Int) (start : Nat)
    (block : List Instruction) : Prop where
  levels : ∀ (index : Nat) instruction, block[index]? = some instruction →
    instruction.KeepsLevel level (start + index)
  uses : ∀ instruction ∈ block, instruction.opcode.shape.hasRegister = true →
    instruction.register ∈ registers
  forward : ∀ instruction ∈ block, instruction.opcode.isJump = true →
    (start : Int) ≤ instruction.target

namespace Confined

variable {level : Int → Nat} {registers : List Int} {start : Nat} {block : List Instruction}

private theorem within (hConfined : Confined level registers start block) {size : Int}
    (hRegisters : ∀ register ∈ registers, 0 ≤ register ∧ register < size)
    {instruction : Instruction} (hMem : instruction ∈ block) :
    ∃ lines, instruction.Within size lines := by
  rcases List.mem_iff_getElem?.mp hMem with ⟨index, hIndex⟩
  exact ⟨instruction.target.toNat,
    { opcode := (hConfined.levels index instruction hIndex).isDefined
      register := fun hRegister => hRegisters _ (hConfined.uses _ hMem hRegister)
      target := by
        intro hJump
        have hForward := hConfined.forward _ hMem hJump
        omega }⟩

/-- Wherever a run of a confined block stops, the pointer is on the level of the line, and only
cells that the pointer comes to have changed. -/
theorem runs (hConfined : Confined level registers start block) {code : List Instruction}
    (hEnds : EndsWith code start block) {addresses : List Nat} {place : Nat}
    (hWindow : ∀ line, place + level line ∈ addresses) {steps : Nat} {first last : Int}
    {before after : Snapshot} (hFirst : start ≤ first)
    (hPlace : before.pointer = place + level first)
    (hRuns : Runs code steps first before last after) :
    after.pointer = place + level last ∧ before.AgreeExcept registers addresses after := by
  induction hRuns with
  | refl => exact ⟨hPlace, .refl _ _ _⟩
  | @step _ line next _ before middle _ instruction hAt hStep _ inductionHypothesis =>
      rcases hEnds.exists_index hFirst hAt with ⟨index, rfl, hIndex⟩
      have hMem := List.mem_of_getElem? hIndex
      have hNext := hEnds.runs_inside hConfined.forward hFirst (.single hAt hStep)
      have hMoved := (hConfined.levels index instruction hIndex).step
        (hConfined.uses instruction hMem) hPlace hStep
      have hWrites : before.AgreeExcept registers addresses middle := by
        apply hMoved.2.mono (List.Subset.refl _)
        rw [hPlace]
        exact List.cons_subset.mpr ⟨hWindow _, List.nil_subset _⟩
      have hLater := inductionHypothesis hNext hMoved.1
      exact ⟨hLater.1, hWrites.trans hLater.2⟩

end Confined

namespace Machine

variable {machine : Machine}

/-! ### Machines that run a block -/

structure ChangesOnly (registers : List Int) (addresses : List Nat) (before after : Machine) : Prop
    extends SameSetup before after where
  registers : ∀ register, register ∉ registers →
    after.register? register = before.register? register
  memory : ∀ address, address ∉ addresses → after.memory[address]? = before.memory[address]?
  input : after.input = before.input
  output : after.output = before.output
  sink : after.sink = before.sink

private theorem ChangesOnly.of_cons {register : Int} {registers : List Int} {addresses : List Nat}
    {before after : Machine} (hChanges : ChangesOnly (register :: registers) addresses before after)
    (hSame : after.register? register = before.register? register) :
    ChangesOnly registers addresses before after where
  toSameSetup := hChanges.toSameSetup
  registers := by
    intro other hOther
    by_cases hHere : other = register
    · rw [hHere, hSame]
    · exact hChanges.registers other (by simp [hHere, hOther])
  memory := hChanges.memory
  input := hChanges.input
  output := hChanges.output
  sink := hChanges.sink

/-- A machine comes from one line to another in so many steps.  The pointer comes back to where
it was.  At each moment it is on one of some cells, and only these cells and some registers have
changed. -/
structure Traverses (registers : List Int) (addresses : List Nat) (machine : Machine) (first : Int)
    (steps : Nat) (after : Machine) (last : Int) : Prop where
  leads : Steps steps machine first after last
  run : ∀ budget, runFrom (steps + budget) machine first = runFrom budget after last
  pointer : after.register? 0 = machine.register? 0
  changes : ChangesOnly registers addresses machine after
  moments : ∀ fewer ≤ steps, ∀ middle line, Steps fewer machine first middle line →
    (∃ address ∈ addresses, middle.register? 0 = some address) ∧
      ChangesOnly (0 :: registers) addresses machine middle

private theorem Steps.unique {count : Nat} {first second : Machine}
    {line firstLine secondLine : Int} (hFirst : Steps count machine line first firstLine)
    (hSecond : Steps count machine line second secondLine) :
    first = second ∧ firstLine = secondLine := by
  induction hFirst with
  | refl =>
      cases hSecond
      exact ⟨rfl, rfl⟩
  | step hAt _ _ hExecute _ inductionHypothesis =>
      cases hSecond with
      | step hAtToo _ _ hExecuteToo hRest =>
          rw [hAt] at hAtToo
          cases hAtToo
          rw [hExecute] at hExecuteToo
          cases hExecuteToo
          exact inductionHypothesis hRest

theorem registers_snapshot {register : Int} {value : Nat}
    (hValue : machine.register? register = some value) :
    machine.snapshot.registers register = value :=
  congrArg (·.getD 0) hValue

theorem inside_of_register? {register : Int} {value : Nat}
    (hValue : machine.register? register = some value) :
    0 ≤ register ∧ register < machine.registers.size := by
  unfold Machine.register? at hValue
  split at hValue
  · contradiction
  · have hBound := (Array.getElem?_eq_some_iff.mp hValue).1
    omega

private theorem Matches.changesOnly {later : Machine} {after : Snapshot} {registers : List Int}
    {addresses : List Nat} (hNonempty : 0 < machine.registers.size)
    (hActive : machine.cancelled = false) (hLater : later.Matches after)
    (hSetup : SameSetup machine later) (hSink : later.sink = machine.sink)
    (hAgree : machine.snapshot.AgreeExcept registers addresses after) :
    ChangesOnly registers addresses machine later where
  toSameSetup := hSetup
  registers := by
    intro register hRegister
    have hHere := matches_snapshot hNonempty hActive
    by_cases hInside : 0 ≤ register ∧ register < machine.registers.size
    · rw [hLater.register? hInside.1 (by rw [hSetup.size]; exact hInside.2),
        hHere.register? hInside.1 hInside.2, hAgree.registers register hRegister]
    · have hNone : ∀ other : Machine, other.registers.size = machine.registers.size →
          other.register? register = none := by
        intro other hSize
        unfold Machine.register?
        split
        · rfl
        · exact Array.getElem?_eq_none (by omega)
      rw [hNone later hSetup.size, hNone machine rfl]
  memory := fun address hAddress =>
    (hLater.memory? address).trans (hAgree.memory address hAddress)
  input := hLater.input.trans hAgree.input
  output := by
    apply Array.toList_inj.mp
    exact hLater.output.trans hAgree.output
  sink := hSink

/-- A machine with a block in its code has the code that says HALT up to the block and ends with
it. -/
theorem includes_of_embedded {start : Nat} {block : List Instruction}
    (hLoaded : Embedded machine.code.toList start block)
    (hWithin : ∀ instruction ∈ block, ∃ lines,
      instruction.Within machine.registers.size lines) :
    machine.Includes (List.replicate start .stop ++ block) where
  loaded := by
    intro line instruction hAt hGoes
    have hBefore : ¬line < start := by
      intro hLine
      unfold instructionAt at hAt
      split at hAt
      · contradiction
      · rw [List.getElem?_append_left (by rw [List.length_replicate]; omega),
          List.getElem?_replicate_of_lt (by omega)] at hAt
        rw [← Option.some.inj hAt] at hGoes
        exact hGoes rfl
    rcases (endsWith_replicate start block).exists_index (Int.not_lt.mp hBefore) hAt with
      ⟨index, rfl, hIndex⟩
    have hHere := hLoaded index instruction hIndex
    simpa [instruction?, instructionAt] using hHere
  within := by
    intro instruction hMem
    rcases List.mem_append.mp hMem with hStop | hMem
    · rw [List.eq_of_mem_replicate hStop]
      exact ⟨0, ⟨rfl, fun hRegister => absurd hRegister (by decide),
        fun hJump => absurd hJump (by decide)⟩⟩
    · exact hWithin instruction hMem

/-- A machine runs a block without jumps line by line, if no instruction of the block fails. -/
theorem steps_of_runBlock {start : Nat} {block : List Instruction} {final : Snapshot}
    {registers : List Int} {addresses : List Nat}
    (hLoaded : Embedded machine.code.toList start block)
    (hWithin : ∀ instruction ∈ block, ∃ lines,
      instruction.Within machine.registers.size lines)
    (hNonempty : 0 < machine.registers.size) (hActive : machine.cancelled = false)
    (hBlock : machine.snapshot.runBlock block = some final)
    (hAgree : machine.snapshot.AgreeExcept registers addresses final) :
    ∃ after, Steps block.length machine start after (start + block.length) ∧
      after.Matches final ∧ ChangesOnly registers addresses machine after := by
  have hRuns := Runs.ofBlock (endsWith_replicate start block).embedded hBlock
  rcases steps_of_runs hRuns hAgree.output (matches_snapshot hNonempty hActive)
    (includes_of_embedded hLoaded hWithin) with ⟨after, hSteps, hAfter, hSink⟩
  exact ⟨after, hSteps, hAfter,
    hAfter.changesOnly hNonempty hActive hSteps.sameSetup hSink hAgree⟩

def holding (code : List Instruction) (registers : Array Nat) : Machine where
  code := code.toArray
  registers := registers
  memory := ∅
  limit := defaultStepLimit
  input := none
  sink := .unbounded
  output := #[]
  steps := 0
  cost := 0
  profile := none
  cancelled := false

theorem embedded_holding (code : List Instruction) (registers : Array Nat) :
    Embedded (holding code registers).code.toList (0 : Nat) code := by
  intro index instruction hAt
  simpa [instructionAt, holding] using hAt

/-- A machine with a confined block in its code, all registers of the block and the pointer on a
cell. -/
structure Hosts (machine : Machine) (level : Int → Nat) (registers : List Int) (start : Nat)
    (block : List Instruction) (place : Nat) : Prop where
  confined : Confined level (0 :: registers) start block
  loaded : Embedded machine.code.toList start block
  registers : ∀ register ∈ registers, ∃ value, machine.register? register = some value
  pointer : machine.register? 0 = some place
  entry : level start = 0
  active : machine.cancelled = false

namespace Hosts

variable {level : Int → Nat} {registers : List Int} {start : Nat} {block : List Instruction}
  {place : Nat}

private theorem inside (hHosts : machine.Hosts level registers start block place) :
    ∀ register ∈ 0 :: registers, 0 ≤ register ∧ register < machine.registers.size := by
  intro register hMem
  rcases List.mem_cons.mp hMem with rfl | hMem
  · exact inside_of_register? hHosts.pointer
  · rcases hHosts.registers register hMem with ⟨value, hValue⟩
    exact inside_of_register? hValue

private theorem includes (hHosts : machine.Hosts level registers start block place) :
    machine.Includes (List.replicate start .stop ++ block) :=
  includes_of_embedded hHosts.loaded fun _ hMem => hHosts.confined.within hHosts.inside hMem

private theorem steps (hHosts : machine.Hosts level registers start block place)
    {addresses : List Nat} (hWindow : ∀ line, place + level line ∈ addresses) {count : Nat}
    {line : Int} {there : Snapshot}
    (hRuns : Runs (List.replicate start .stop ++ block) count start machine.snapshot line there) :
    ∃ later, Steps count machine start later line ∧ later.Matches there ∧
      later.register? 0 = some (place + level line) ∧
      ChangesOnly (0 :: registers) addresses machine later := by
  have hSize := (hHosts.inside 0 List.mem_cons_self).2
  have hNonempty : 0 < machine.registers.size := by omega
  have hStart : machine.snapshot.pointer = place + level start := by
    rw [hHosts.entry]
    exact registers_snapshot hHosts.pointer
  have hKept := hHosts.confined.runs (endsWith_replicate start block) hWindow (Int.le_refl _)
    hStart hRuns
  rcases steps_of_runs hRuns hKept.2.output (matches_snapshot hNonempty hHosts.active)
    hHosts.includes with ⟨later, hSteps, hLater, hSink⟩
  have hSetup := hSteps.sameSetup
  have hPointer : later.register? 0 = some (there.registers 0) :=
    hLater.register? (Int.le_refl 0) (by rw [hSetup.size]; exact hSize)
  exact ⟨later, hSteps, hLater, hPointer.trans (congrArg some hKept.1),
    hLater.changesOnly hNonempty hHosts.active hSetup hSink hKept.2⟩

/-- The machine runs the block to its end, wherever the block stands. -/
theorem traverses (hHosts : machine.Hosts level registers start block place)
    {addresses : List Nat} (hWindow : ∀ line, place + level line ∈ addresses) {count : Nat}
    {last : Int} {final : Snapshot} (hLast : level last = 0)
    (hRuns : Runs (List.replicate start .stop ++ block) count start machine.snapshot last final) :
    ∃ after, Traverses registers addresses machine start count after last ∧
      ∀ register ∈ registers, after.register? register = some (final.registers register) := by
  rcases hHosts.steps hWindow hRuns with ⟨after, hSteps, hAfter, hBack, hChanges⟩
  have hPointer : after.register? 0 = machine.register? 0 := by
    rw [hBack, hHosts.pointer, hLast, Nat.add_zero]
  refine ⟨after, ⟨hSteps, runFrom_of_steps hSteps, hPointer, hChanges.of_cons hPointer, ?_⟩, ?_⟩
  · -- a moment of the run is where a shorter run of the block ends
    intro fewer hFewer middle line hMiddle
    rcases hRuns.stop hFewer with ⟨there, snapshot, hRun⟩
    rcases hHosts.steps hWindow hRun with ⟨later, hLater, -, hHere, hMoment⟩
    rcases hMiddle.unique hLater with ⟨rfl, rfl⟩
    exact ⟨⟨_, hWindow _, hHere⟩, hMoment⟩
  · intro register hMem
    have hBounds := hHosts.inside register (List.mem_cons_of_mem 0 hMem)
    rw [← hSteps.sameSetup.size] at hBounds
    exact hAfter.register? hBounds.1 hBounds.2

end Hosts

end Machine

end RegisterCompiler
