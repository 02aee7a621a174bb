/-
What it takes to have a number in a register.

Code that builds a number is as long as the number has bits, counting the bits that are set
twice.  The pointer is moved by whichever is shorter, counting from the number it is known to
hold or building the address.  Such code sets its register and does nothing else to a machine,
wherever it stands.
-/

import RegisterCompiler.Proofs.Generator.Work
import RegisterCompiler.Proofs.Machine.Blocks

set_option autoImplicit false

namespace RegisterCompiler

/-! ### Costs -/

theorem oneBits_of_pos {value : Nat} (hPositive : 0 < value) :
    oneBits value = value % 2 + oneBits (value / 2) := by
  rw [oneBits, if_neg hPositive.ne']

private theorem constantCost_one : constantCost 1 = 2 := by
  decide +kernel

/-- The lowest bit of a number costs a doubling, and an increment if it is set. -/
theorem constantCost_of_two_le {value : Nat} (hBits : 2 ≤ value) :
    constantCost value = constantCost (value / 2) + 1 + value % 2 := by
  have hHalf : value / 2 ≠ 0 := by omega
  have hLog : value.log2 = (value / 2).log2 + 1 := by
    rw [Nat.log2_def, if_pos hBits]
  rw [constantCost, constantCost, if_neg (by omega), if_neg hHalf, hLog,
    oneBits_of_pos (by omega)]
  omega

private theorem length_constantCodeBefore (register : Int) (value : Nat) (rest : List Instruction) :
    (constantCodeBefore register value rest).length = constantCost value + rest.length := by
  fun_induction constantCodeBefore register value rest with
  | case1 rest =>
      rw [List.length_cons, Nat.add_comm]
      rfl
  | case2 rest =>
      rw [List.length_cons, List.length_cons, constantCost_one]
      omega
  | case3 value rest hZero hOne inductionHypothesis =>
      simp only [dite_eq_ite] at inductionHypothesis
      have hCost : constantCost value = constantCost (value / 2) + 1 + value % 2 :=
        constantCost_of_two_le (by omega)
      rw [inductionHypothesis, hCost, List.length_cons]
      split
      · rw [List.length_cons]
        omega
      · omega

private theorem length_constantCode (register : Int) (value : Nat) :
    (constantCode register value).length = constantCost value :=
  length_constantCodeBefore register value []

/-- The code that moves the pointer takes the shorter one of two ways. -/
theorem length_pointerCode (place address : Nat) :
    (pointerCode (some place) address).length =
      min ((address : Int) - place).natAbs (constantCost address) := by
  simp only [pointerCode]
  by_cases hUp : place ≤ address
  · rw [if_pos hUp, show ((address : Int) - place).natAbs = address - place by omega]
    split
    · rw [List.length_replicate]
      omega
    · rw [length_constantCode]
      omega
  · rw [if_neg hUp, show ((address : Int) - place).natAbs = place - address by omega]
    split
    · rw [List.length_replicate]
      omega
    · rw [length_constantCode]
      omega

namespace Machine

variable {machine : Machine} {register : Int} {value : Nat}

/-- From a line on, a machine takes so many steps, one for each line.  They leave a number in a
register and change nothing else. -/
structure Sets (register : Int) (value : Nat) (machine : Machine) (start count : Nat)
    (after : Machine) : Prop where
  leads : Steps count machine start after (start + count)
  run : ∀ budget, runFrom (count + budget) machine start = runFrom budget after (start + count)
  value : after.register? register = some value
  changes : ChangesOnly [register] [] machine after

/-- Code that sets a register of a snapshot sets it on a machine that has the register. -/
theorem sets_of_runBlock {start : Nat} {block : List Instruction}
    (hLoaded : Embedded machine.code.toList start block)
    (hReady : ∀ instruction ∈ block, instruction.Ready machine.registers.size 0)
    (hActive : machine.cancelled = false) (hRegister : (machine.register? register).isSome = true)
    (hBlock : machine.snapshot.runBlock block = some (machine.snapshot.setRegister register value)) :
    ∃ after, machine.Sets register value start block.length after := by
  rcases Option.isSome_iff_exists.mp hRegister with ⟨old, hOld⟩
  rcases inside_of_register? hOld with ⟨hLow, hHigh⟩
  have hAgree : machine.snapshot.AgreeExcept [register] []
      (machine.snapshot.setRegister register value) :=
    (Snapshot.AgreeExcept.refl _ _ _).setRegister List.mem_cons_self value
  rcases steps_of_runBlock hLoaded (fun instruction hMem => ⟨0, (hReady instruction hMem).within⟩)
    (by omega) hActive hBlock hAgree with ⟨after, hSteps, hAfter, hChanges⟩
  have hValue := hAfter.register? hLow (by rw [hSteps.sameSetup.size]; exact hHigh)
  rw [Snapshot.registers_setRegister_self] at hValue
  exact ⟨after, hSteps, runFrom_of_steps hSteps, hValue, hChanges⟩

private theorem ready_of_register? (hRegister : (machine.register? register).isSome = true)
    {opcode : Opcode} (hShape : opcode.shape = .register) :
    (Instruction.unary opcode register).Ready machine.registers.size 0 := by
  rcases Option.isSome_iff_exists.mp hRegister with ⟨old, hOld⟩
  rcases inside_of_register? hOld with ⟨hLow, hHigh⟩
  exact Instruction.ready_unary hShape hLow hHigh 0

/-- Code that builds a number sets its register. -/
theorem constantCode_sets {start : Nat}
    (hLoaded : Embedded machine.code.toList start (constantCode register value))
    (hActive : machine.cancelled = false)
    (hRegister : (machine.register? register).isSome = true) :
    ∃ after, machine.Sets register value start (constantCode register value).length after := by
  have hReady := ready_constantCode
    (fun opcode hShape => ready_of_register? hRegister hShape) value
  exact sets_of_runBlock hLoaded hReady hActive hRegister
    (Snapshot.runBlock_constantCode register value machine.snapshot)

/-- Code that moves the pointer sets it, if what is known about it is true. -/
theorem pointerCode_sets {known : Option Nat} {start address : Nat}
    (hLoaded : Embedded machine.code.toList start (pointerCode known address))
    (hActive : machine.cancelled = false) (hPointer : (machine.register? 0).isSome = true)
    (hKnown : known = none ∨ known = machine.register? 0) :
    ∃ after, machine.Sets 0 address start (pointerCode known address).length after := by
  have hReady := ready_pointerCode
    (fun opcode hShape => ready_of_register? hPointer hShape) known address
  have hPlace : ∀ place, known = some place → machine.snapshot.pointer = place := by
    intro place hSome
    rcases hKnown with hNone | hSame
    · rw [hNone] at hSome
      contradiction
    · exact registers_snapshot (hSame.symm.trans hSome)
  exact sets_of_runBlock hLoaded hReady hActive hPointer
    (Snapshot.runBlock_pointerCode hPlace address)

end Machine

namespace Generating

private theorem run_buildConstant (register : Int) (value : Nat) (context : Context) :
    (buildConstant register value).run.run context =
      (.ok (), { context.add (constantCode register value) with
        pointer := if register = pointerRegister then some value else context.pointer }) := by
  by_cases hPointer : register = pointerRegister
  · unfold buildConstant
    rw [if_pos hPointer, if_pos hPointer]
    rfl
  · rw [buildConstant_of_ne hPointer, if_neg hPointer]
    rfl

private theorem run_pointTo (address : Nat) (context : Context) :
    (pointTo address).run.run context =
      (.ok (), { context.add (pointerCode context.pointer address) with
        pointer := some address }) :=
  rfl

end Generating

/-- Numbers are built, and the pointer is moved, as predicted.  The code for a number is as long as
its cost says.  A machine that runs it has the number in the register, which is noted if that is
the pointer, and nothing else has changed.  The code that moves the pointer counts from the number
the pointer is known to hold, if that is shorter than building the address.  A machine whose
pointer is as known, or of which nothing is known, has the pointer on the address after that, and
nothing else has changed; the address is noted. -/
theorem numbers_built_as_predicted :
    (∀ (register : Int) (value : Nat),
      (∀ context : Context, (Generating.buildConstant register value).run.run context =
        (.ok (), { context.add (constantCode register value) with
          pointer := if register = pointerRegister then some value else context.pointer })) ∧
      (constantCode register value).length = constantCost value ∧
      ∀ (machine : Machine) (start : Nat),
        Embedded machine.code.toList start (constantCode register value) →
        machine.cancelled = false → (machine.register? register).isSome = true →
          ∃ after, machine.Sets register value start (constantCost value) after) ∧
    ∀ (address : Nat) (context : Context),
      ∃ code, (Generating.pointTo address).run.run context =
          (.ok (), { context.add code with pointer := some address }) ∧
        (context.pointer = none → code.length = constantCost address) ∧
        (∀ place, context.pointer = some place →
          code.length = min ((address : Int) - place).natAbs (constantCost address)) ∧
        ∀ (machine : Machine) (start : Nat), Embedded machine.code.toList start code →
          machine.cancelled = false → (machine.register? 0).isSome = true →
          context.pointer = none ∨ context.pointer = machine.register? 0 →
            ∃ after, machine.Sets 0 address start code.length after := by
  constructor
  · intro register value
    refine ⟨Generating.run_buildConstant register value, length_constantCode register value, ?_⟩
    intro machine start hLoaded hActive hRegister
    have hSets := Machine.constantCode_sets hLoaded hActive hRegister
    rw [length_constantCode] at hSets
    exact hSets
  · intro address context
    refine ⟨pointerCode context.pointer address, Generating.run_pointTo address context, ?_, ?_, ?_⟩
    · intro hUnknown
      rw [hUnknown]
      exact length_constantCode _ address
    · intro place hKnown
      rw [hKnown]
      exact length_pointerCode place address
    · intro machine start hLoaded hActive hPointer hKnown
      exact Machine.pointerCode_sets hLoaded hActive hPointer hKnown

/-- Ten is built in six steps, and the pointer counts from 4096 down to 4094 in two. -/
theorem ten_built_as_predicted :
    (∃ after, Machine.Sets 1 10 (.holding (constantCode 1 10) #[0, 7]) 0 6 after) ∧
    ∃ code : List Instruction, code.length = 2 ∧
      (Generating.pointTo 4094).run.run { Context.empty .standard with pointer := some 4096 } =
        (.ok (), { Context.add { Context.empty .standard with pointer := some 4096 } code with
          pointer := some 4094 }) ∧
      ∃ after, Machine.Sets 0 4094 (.holding code #[4096, 7]) 0 2 after := by
  constructor
  · have hSets := (numbers_built_as_predicted.1 1 10).2.2
      (.holding (constantCode 1 10) #[0, 7]) 0 (Machine.embedded_holding _ _) rfl rfl
    rw [show constantCost 10 = 6 by decide +kernel] at hSets
    exact hSets
  · rcases numbers_built_as_predicted.2 4094
      { Context.empty .standard with pointer := some 4096 } with ⟨code, hRun, -, hLength, hSets⟩
    have hTwo : code.length = 2 := by
      rw [hLength 4096 rfl, show constantCost 4094 = 23 by decide +kernel]
      rfl
    have hMoved := hSets (.holding code #[4096, 7]) 0 (Machine.embedded_holding _ _) rfl rfl
      (.inr rfl)
    rw [hTwo] at hMoved
    exact ⟨code, hTwo, hRun, hMoved⟩

end RegisterCompiler
