/-
The machine without its counters.

A snapshot has the contents of the registers and of the memory, the input and the
output of a machine.  A run from one snapshot to another counts its steps.  Every
run of snapshots is a run of each machine that a snapshot stands for, provided the
code uses no register the machine lacks.
-/

import RegisterCompiler.Proofs.Execution

set_option autoImplicit false

namespace RegisterCompiler

structure Snapshot where
  registers : Int → Nat
  memory : Nat → Option Nat
  input : Option Feed
  output : List Nat

namespace Snapshot

def setRegister (snapshot : Snapshot) (register : Int) (value : Nat) : Snapshot :=
  { snapshot with registers := Function.update snapshot.registers register value }

def setCell (snapshot : Snapshot) (address value : Nat) : Snapshot :=
  { snapshot with memory := Function.update snapshot.memory address (some value) }

def pointer (snapshot : Snapshot) : Nat :=
  snapshot.registers 0

/-- What an instruction that goes on with the next line does, if it succeeds. -/
def effect? (snapshot : Snapshot) (instruction : Instruction) : Option Snapshot :=
  let register := instruction.register
  let value := snapshot.registers register
  match instruction.opcode with
  | .get =>
      match takeNumber snapshot.input with
      | (.ok taken, rest) => some ({ snapshot with input := rest }.setRegister register taken)
      | (.error _, _) => none
  | .put => some { snapshot with output := snapshot.output ++ [value] }
  | .load => (snapshot.memory snapshot.pointer).map (snapshot.setRegister register)
  | .store => some (snapshot.setCell snapshot.pointer value)
  | .add =>
      (snapshot.memory snapshot.pointer).map fun cell =>
        snapshot.setRegister register (value + cell)
  | .sub =>
      (snapshot.memory snapshot.pointer).map fun cell =>
        snapshot.setRegister register (value - cell)
  | .copy => some (snapshot.setRegister 0 value)
  | .shr => some (snapshot.setRegister register (value / 2))
  | .shl => some (snapshot.setRegister register (value * 2))
  | .inc => some (snapshot.setRegister register (value + 1))
  | .dec => some (snapshot.setRegister register (value - 1))
  | .zero => some (snapshot.setRegister register 0)
  | .jump | .jzero | .jodd | .halt | .undefined _ => none

/-- One step, if the instruction succeeds and is not HALT. -/
def step? (snapshot : Snapshot) (line : Int) (instruction : Instruction) :
    Option (Int × Snapshot) :=
  let value := snapshot.registers instruction.register
  match instruction.opcode with
  | .jump => some (instruction.target, snapshot)
  | .jzero => some (if value = 0 then instruction.target else line + 1, snapshot)
  | .jodd => some (if value % 2 = 1 then instruction.target else line + 1, snapshot)
  | _ => (snapshot.effect? instruction).map fun after => (line + 1, after)

end Snapshot

def instructionAt (code : List Instruction) (line : Int) : Option Instruction :=
  if line < 0 then none else code[line.toNat]?

inductive Runs (code : List Instruction) : Nat → Int → Snapshot → Int → Snapshot → Prop where
  | refl (line : Int) (snapshot : Snapshot) : Runs code 0 line snapshot line snapshot
  | step {steps : Nat} {line next last : Int} {before middle after : Snapshot}
      {instruction : Instruction}
      (hAt : instructionAt code line = some instruction)
      (hStep : before.step? line instruction = some (next, middle))
      (hRest : Runs code steps next middle last after) :
      Runs code (steps + 1) line before last after

namespace Runs

theorem trans {code : List Instruction} {firstSteps secondSteps : Nat} {first middle last : Int}
    {before between after : Snapshot} (hFirst : Runs code firstSteps first before middle between)
    (hSecond : Runs code secondSteps middle between last after) :
    Runs code (firstSteps + secondSteps) first before last after := by
  induction hFirst with
  | refl line snapshot =>
      rw [Nat.zero_add]
      exact hSecond
  | step hAt hStep _ inductionHypothesis =>
      rw [Nat.add_right_comm]
      exact .step hAt hStep (inductionHypothesis hSecond)

theorem single {code : List Instruction} {line next : Int} {before after : Snapshot}
    {instruction : Instruction} (hAt : instructionAt code line = some instruction)
    (hStep : before.step? line instruction = some (next, after)) :
    Runs code 1 line before next after :=
  .step hAt hStep (.refl next after)

end Runs

/-! ### Blocks of code -/

def Embedded (code : List Instruction) (start : Int) (block : List Instruction) : Prop :=
  ∀ (index : Nat) instruction, block[index]? = some instruction →
    instructionAt code (start + index) = some instruction

namespace Embedded

theorem head {code : List Instruction} {start : Int} {instruction : Instruction}
    {rest : List Instruction} (hEmbedded : Embedded code start (instruction :: rest)) :
    instructionAt code start = some instruction := by
  have hHead := hEmbedded 0 instruction rfl
  simpa using hHead

theorem tail {code : List Instruction} {start : Int} {instruction : Instruction}
    {rest : List Instruction} (hEmbedded : Embedded code start (instruction :: rest)) :
    Embedded code (start + 1) rest := by
  intro index found hFound
  have hLater := hEmbedded (index + 1) found hFound
  have hPlace : start + 1 + (index : Int) = start + ((index + 1 : Nat) : Int) := by omega
  rw [hPlace]
  exact hLater

theorem append_right {code : List Instruction} {start : Int} {first second : List Instruction}
    (hEmbedded : Embedded code start (first ++ second)) :
    Embedded code (start + first.length) second := by
  intro index found hFound
  have hLater := hEmbedded (first.length + index) found (by
    rw [List.getElem?_append_right (Nat.le_add_right _ _), Nat.add_sub_cancel_left]
    exact hFound)
  have hPlace : start + (first.length : Int) + (index : Int) =
      start + ((first.length + index : Nat) : Int) := by omega
  rw [hPlace]
  exact hLater

theorem append_left {code : List Instruction} {start : Int} {first second : List Instruction}
    (hEmbedded : Embedded code start (first ++ second)) : Embedded code start first := by
  intro index found hFound
  have hBound : index < first.length := (List.getElem?_eq_some_iff.mp hFound).1
  exact hEmbedded index found (by rw [List.getElem?_append_left hBound]; exact hFound)

end Embedded

namespace Snapshot

def runBlock (snapshot : Snapshot) : List Instruction → Option Snapshot
  | [] => some snapshot
  | instruction :: rest =>
      (snapshot.effect? instruction).bind fun after => after.runBlock rest

theorem step?_of_effect? {snapshot after : Snapshot} {instruction : Instruction}
    (hEffect : snapshot.effect? instruction = some after) (line : Int) :
    snapshot.step? line instruction = some (line + 1, after) := by
  unfold step?
  cases hOpcode : instruction.opcode <;>
    simp [hEffect] <;> simp [effect?, hOpcode] at hEffect

end Snapshot

/-- A block without jumps runs from its first line to the line behind it. -/
theorem Runs.ofBlock {code : List Instruction} {start : Int} {block : List Instruction}
    {before after : Snapshot} (hEmbedded : Embedded code start block)
    (hBlock : before.runBlock block = some after) :
    Runs code block.length start before (start + block.length) after := by
  induction block generalizing start before with
  | nil =>
      obtain rfl : before = after := Option.some.inj hBlock
      simpa using Runs.refl start before
  | cons instruction rest inductionHypothesis =>
      simp only [Snapshot.runBlock, Option.bind_eq_some_iff] at hBlock
      obtain ⟨middle, hEffect, hRest⟩ := hBlock
      have hLast : start + ((instruction :: rest).length : Int) = start + 1 + rest.length := by
        simp only [List.length_cons]
        omega
      rw [hLast]
      exact .step hEmbedded.head (Snapshot.step?_of_effect? hEffect start)
        (inductionHypothesis hEmbedded.tail hRest)

end RegisterCompiler
