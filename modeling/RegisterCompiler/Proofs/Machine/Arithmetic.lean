/-
What the arithmetic blocks compute.

Numbers are built in a register, the pointer is moved, and the loops for products
and quotients leave their results in a register.  Each statement also says what
else the code may change.
-/

import Mathlib.Algebra.Group.Nat.Even
import Mathlib.Tactic.Ring
import RegisterCompiler.Generator.Calculation
import RegisterCompiler.Proofs.Machine.Snapshot

set_option autoImplicit false

namespace RegisterCompiler

namespace Snapshot

/-! ### Reading back -/

@[simp]
theorem registers_setRegister_self (snapshot : Snapshot) (register : Int) (value : Nat) :
    (snapshot.setRegister register value).registers register = value :=
  Function.update_self ..

theorem registers_setRegister_of_ne (snapshot : Snapshot) {register other : Int}
    (hDifferent : other ≠ register) (value : Nat) :
    (snapshot.setRegister register value).registers other = snapshot.registers other :=
  Function.update_of_ne hDifferent ..

@[simp]
theorem memory_setRegister (snapshot : Snapshot) (register : Int) (value : Nat) :
    (snapshot.setRegister register value).memory = snapshot.memory :=
  rfl

@[simp]
theorem registers_setCell (snapshot : Snapshot) (address value : Nat) :
    (snapshot.setCell address value).registers = snapshot.registers :=
  rfl

@[simp]
theorem memory_setCell_self (snapshot : Snapshot) (address value : Nat) :
    (snapshot.setCell address value).memory address = some value :=
  Function.update_self ..

theorem memory_setCell_of_ne (snapshot : Snapshot) {address other : Nat}
    (hDifferent : other ≠ address) (value : Nat) :
    (snapshot.setCell address value).memory other = snapshot.memory other :=
  Function.update_of_ne hDifferent ..

@[simp]
theorem setRegister_setRegister (snapshot : Snapshot) (register : Int) (first second : Nat) :
    (snapshot.setRegister register first).setRegister register second =
      snapshot.setRegister register second := by
  simp only [setRegister, Function.update_idem]

private theorem setRegister_self (snapshot : Snapshot) (register : Int) :
    snapshot.setRegister register (snapshot.registers register) = snapshot := by
  simp only [setRegister, Function.update_eq_self]

/-! ### Differences -/

structure AgreeExcept (registers : List Int) (addresses : List Nat) (before after : Snapshot) :
    Prop where
  registers : ∀ register, register ∉ registers →
    after.registers register = before.registers register
  memory : ∀ address, address ∉ addresses → after.memory address = before.memory address
  input : after.input = before.input
  output : after.output = before.output

namespace AgreeExcept

theorem refl (registers : List Int) (addresses : List Nat) (snapshot : Snapshot) :
    AgreeExcept registers addresses snapshot snapshot :=
  ⟨fun _ _ => rfl, fun _ _ => rfl, rfl, rfl⟩

theorem trans {registers : List Int} {addresses : List Nat} {before middle after : Snapshot}
    (hFirst : AgreeExcept registers addresses before middle)
    (hSecond : AgreeExcept registers addresses middle after) :
    AgreeExcept registers addresses before after where
  registers := fun register hRegister =>
    (hSecond.registers register hRegister).trans (hFirst.registers register hRegister)
  memory := fun address hAddress =>
    (hSecond.memory address hAddress).trans (hFirst.memory address hAddress)
  input := hSecond.input.trans hFirst.input
  output := hSecond.output.trans hFirst.output

theorem mono {registers moreRegisters : List Int} {addresses moreAddresses : List Nat}
    {before after : Snapshot} (hAgree : AgreeExcept registers addresses before after)
    (hRegisters : registers ⊆ moreRegisters) (hAddresses : addresses ⊆ moreAddresses) :
    AgreeExcept moreRegisters moreAddresses before after where
  registers := fun register hRegister =>
    hAgree.registers register fun hFound => hRegister (hRegisters hFound)
  memory := fun address hAddress =>
    hAgree.memory address fun hFound => hAddress (hAddresses hFound)
  input := hAgree.input
  output := hAgree.output

theorem setRegister {registers : List Int} {addresses : List Nat} {before after : Snapshot}
    (hAgree : AgreeExcept registers addresses before after) {register : Int}
    (hRegister : register ∈ registers) (value : Nat) :
    AgreeExcept registers addresses before (after.setRegister register value) where
  registers := by
    intro other hOther
    have hDifferent : other ≠ register := fun hSame => hOther (hSame ▸ hRegister)
    rw [registers_setRegister_of_ne after hDifferent]
    exact hAgree.registers other hOther
  memory := hAgree.memory
  input := hAgree.input
  output := hAgree.output

theorem setCell {registers : List Int} {addresses : List Nat} {before after : Snapshot}
    (hAgree : AgreeExcept registers addresses before after) {address : Nat}
    (hAddress : address ∈ addresses) (value : Nat) :
    AgreeExcept registers addresses before (after.setCell address value) where
  registers := hAgree.registers
  memory := by
    intro other hOther
    have hDifferent : other ≠ address := fun hSame => hOther (hSame ▸ hAddress)
    rw [memory_setCell_of_ne after hDifferent]
    exact hAgree.memory other hOther
  input := hAgree.input
  output := hAgree.output

end AgreeExcept

/-! ### Numbers -/

theorem runBlock_constantCodeBefore (register : Int) (value : Nat) (rest : List Instruction)
    (snapshot : Snapshot) :
    snapshot.runBlock (constantCodeBefore register value rest) =
      (snapshot.setRegister register value).runBlock rest := by
  fun_induction constantCodeBefore register value rest generalizing snapshot with
  | case1 rest => rfl
  | case2 rest =>
      simp only [runBlock, effect?, Instruction.unary, Option.bind_some, setRegister_setRegister,
        registers_setRegister_self]
  | case3 value rest hZero hOne inductionHypothesis =>
      simp only [dite_eq_ite] at inductionHypothesis
      rw [inductionHypothesis]
      have hHalves : value / 2 * 2 + value % 2 = value := by omega
      by_cases hOdd : value % 2 = 1
      · rw [if_pos hOdd]
        simp only [runBlock, effect?, Instruction.unary, Option.bind_some,
          setRegister_setRegister, registers_setRegister_self]
        rw [← hOdd, hHalves]
      · rw [if_neg hOdd]
        have hEven : value / 2 * 2 = value := by omega
        simp only [runBlock, effect?, Instruction.unary, Option.bind_some,
          setRegister_setRegister, registers_setRegister_self, hEven]

theorem runBlock_constantCode (register : Int) (value : Nat) (snapshot : Snapshot) :
    snapshot.runBlock (constantCode register value) =
      some (snapshot.setRegister register value) :=
  runBlock_constantCodeBefore register value [] snapshot

/-- Repeating an instruction that applies a function to its register. -/
theorem runBlock_replicate {opcode : Opcode} {register : Int} (operation : Nat → Nat)
    (hOpcode : ∀ snapshot : Snapshot, snapshot.effect? (.unary opcode register) =
      some (snapshot.setRegister register (operation (snapshot.registers register))))
    (count : Nat) (snapshot : Snapshot) :
    snapshot.runBlock (List.replicate count (.unary opcode register)) =
      some (snapshot.setRegister register (operation^[count] (snapshot.registers register))) := by
  induction count generalizing snapshot with
  | zero =>
      simp only [List.replicate_zero, runBlock, Function.iterate_zero, id_eq]
      rw [setRegister_self]
  | succ count inductionHypothesis =>
      simp only [List.replicate_succ, runBlock, hOpcode, Option.bind_some, inductionHypothesis,
        setRegister_setRegister, registers_setRegister_self, Function.iterate_succ_apply]

theorem runBlock_replicate_inc (register : Int) (count : Nat) (snapshot : Snapshot) :
    snapshot.runBlock (List.replicate count (.unary .inc register)) =
      some (snapshot.setRegister register (snapshot.registers register + count)) := by
  have hIterate : ∀ value, (fun found => found + 1)^[count] value = value + count := by
    intro value
    induction count generalizing value with
    | zero => rfl
    | succ count inductionHypothesis =>
        rw [Function.iterate_succ_apply, inductionHypothesis]
        omega
  rw [runBlock_replicate (fun found => found + 1) (fun _ => rfl), hIterate]

theorem runBlock_replicate_dec (register : Int) (count : Nat) (snapshot : Snapshot) :
    snapshot.runBlock (List.replicate count (.unary .dec register)) =
      some (snapshot.setRegister register (snapshot.registers register - count)) := by
  have hIterate : ∀ value, (fun found => found - 1)^[count] value = value - count := by
    intro value
    induction count generalizing value with
    | zero => rfl
    | succ count inductionHypothesis =>
        rw [Function.iterate_succ_apply, inductionHypothesis]
        omega
  rw [runBlock_replicate (fun found => found - 1) (fun _ => rfl), hIterate]

theorem runBlock_replicate_shl (register : Int) (count : Nat) (snapshot : Snapshot) :
    snapshot.runBlock (List.replicate count (.unary .shl register)) =
      some (snapshot.setRegister register (snapshot.registers register * 2 ^ count)) := by
  rw [runBlock_replicate (fun found => found * 2) (fun _ => rfl), mul_right_iterate]

theorem runBlock_replicate_shr (register : Int) (count : Nat) (snapshot : Snapshot) :
    snapshot.runBlock (List.replicate count (.unary .shr register)) =
      some (snapshot.setRegister register (snapshot.registers register / 2 ^ count)) := by
  have hIterate : ∀ value, (fun found => found / 2)^[count] value = value / 2 ^ count := by
    intro value
    induction count generalizing value with
    | zero => simp
    | succ count inductionHypothesis =>
        rw [Function.iterate_succ_apply, inductionHypothesis, Nat.div_div_eq_div_mul, pow_succ']
  rw [runBlock_replicate (fun found => found / 2) (fun _ => rfl), hIterate]

theorem runBlock_pointerCode {known : Option Nat} {snapshot : Snapshot}
    (hKnown : ∀ place, known = some place → snapshot.pointer = place) (address : Nat) :
    snapshot.runBlock (pointerCode known address) = some (snapshot.setRegister 0 address) := by
  cases known with
  | none => exact runBlock_constantCode 0 address snapshot
  | some place =>
      have hPlace : snapshot.registers 0 = place := hKnown place rfl
      simp only [pointerCode]
      split
      · split
        · have hUp : place + (address - place) = address := by omega
          rw [show ((pointerRegister : Nat) : Int) = 0 from rfl, runBlock_replicate_inc, hPlace, hUp]
        · exact runBlock_constantCode 0 address snapshot
      · split
        · have hDown : place - (place - address) = address := by omega
          rw [show ((pointerRegister : Nat) : Int) = 0 from rfl, runBlock_replicate_dec, hPlace,
            hDown]
        · exact runBlock_constantCode 0 address snapshot

end Snapshot

namespace Embedded

private theorem drop {code : List Instruction} {start : Int} {block : List Instruction}
    (hEmbedded : Embedded code start block) (count : Nat) :
    Embedded code (start + count) (block.drop count) := by
  intro index instruction hFound
  rw [List.getElem?_drop] at hFound
  have hLater := hEmbedded (count + index) instruction hFound
  have hPlace : start + (count : Int) + (index : Int) = start + ((count + index : Nat) : Int) := by
    omega
  rw [hPlace]
  exact hLater

private theorem take {code : List Instruction} {start : Int} {block : List Instruction}
    (hEmbedded : Embedded code start block) (count : Nat) :
    Embedded code start (block.take count) := by
  intro index instruction hFound
  by_cases hBound : index < count
  · rw [List.getElem?_take_of_lt hBound] at hFound
    exact hEmbedded index instruction hFound
  · rw [List.getElem?_take_eq_none (by omega)] at hFound
    contradiction

end Embedded

namespace Runs

/-- Straight code up to a given line. -/
theorem ofBlockTo {code : List Instruction} {start last : Int} {block : List Instruction}
    {before after : Snapshot} (hEmbedded : Embedded code start block)
    (hBlock : before.runBlock block = some after) (hLast : start + block.length = last) :
    Runs code block.length start before last after :=
  hLast ▸ ofBlock hEmbedded hBlock

theorem jump {code : List Instruction} {line target : Int} (snapshot : Snapshot)
    (hAt : instructionAt code line = some (.jump target)) :
    Runs code 1 line snapshot target snapshot :=
  single hAt rfl

theorem jzero_taken {code : List Instruction} {line register target : Int} {snapshot : Snapshot}
    (hAt : instructionAt code line = some (.branch .jzero register target))
    (hZero : snapshot.registers register = 0) :
    Runs code 1 line snapshot target snapshot :=
  single hAt (by simp [Snapshot.step?, Instruction.branch, hZero])

theorem jzero_passed {code : List Instruction} {line register target : Int} {snapshot : Snapshot}
    (hAt : instructionAt code line = some (.branch .jzero register target))
    (hNonzero : snapshot.registers register ≠ 0) :
    Runs code 1 line snapshot (line + 1) snapshot :=
  single hAt (by simp [Snapshot.step?, Instruction.branch, hNonzero])

private theorem jodd_taken {code : List Instruction} {line register target : Int}
    {snapshot : Snapshot} (hAt : instructionAt code line = some (.branch .jodd register target))
    (hOdd : snapshot.registers register % 2 = 1) :
    Runs code 1 line snapshot target snapshot :=
  single hAt (by simp [Snapshot.step?, Instruction.branch, hOdd])

private theorem jodd_passed {code : List Instruction} {line register target : Int}
    {snapshot : Snapshot} (hAt : instructionAt code line = some (.branch .jodd register target))
    (hEven : snapshot.registers register % 2 ≠ 1) :
    Runs code 1 line snapshot (line + 1) snapshot :=
  single hAt (by simp [Snapshot.step?, Instruction.branch, hEven])

end Runs

/-! ### Products -/

section Products

variable {code : List Instruction} {start : Nat} {first second product : Int}

private theorem productLoop_round
    (hEmbedded : Embedded code start (productLoop start first second product))
    (hFirstSecond : first ≠ second) (hFirstProduct : first ≠ product)
    (hSecondProduct : second ≠ product) (snapshot : Snapshot)
    (hNonzero : snapshot.registers second ≠ 0) :
    ∃ steps after, Runs code steps start snapshot start after ∧
      after.registers first = snapshot.registers first * 2 ∧
      after.registers second = snapshot.registers second / 2 ∧
      after.registers product = snapshot.registers product +
        snapshot.registers first * (snapshot.registers second % 2) ∧
      snapshot.AgreeExcept [first, second, product] [snapshot.pointer] after := by
  have hTest : Runs code 1 start snapshot (start + 1) snapshot :=
    .jzero_passed hEmbedded.head hNonzero
  have hBranch : instructionAt code (start + 1) = some (.branch .jodd second (start + 3)) :=
    hEmbedded 1 _ rfl
  have hShift : ∀ middle : Snapshot, Runs code 3 (start + 5) middle start
      ((middle.setRegister first (middle.registers first * 2)).setRegister second
        (middle.registers second / 2)) := by
    intro middle
    have hBlock : Embedded code (start + 5) [.unary .shl first, .unary .shr second] :=
      (hEmbedded.drop 5).take 2
    have hJump : instructionAt code (start + 7) = some (.jump start) := hEmbedded 7 _ rfl
    have hRun : Runs code 2 (start + 5) middle (start + 7)
        ((middle.setRegister first (middle.registers first * 2)).setRegister second
          (middle.registers second / 2)) := by
      refine .ofBlockTo hBlock ?_ (by simp only [List.length_cons, List.length_nil]; omega)
      simp only [Snapshot.runBlock, Snapshot.effect?, Instruction.unary, Option.bind_some,
        Snapshot.registers_setRegister_of_ne _ hFirstSecond.symm]
    exact hRun.trans (.jump _ hJump)
  by_cases hOdd : snapshot.registers second % 2 = 1
  · have hTaken : Runs code 1 (start + 1) snapshot (start + 3) snapshot :=
      .jodd_taken hBranch hOdd
    have hBlock : Embedded code (start + 3) [.unary .store first, .unary .add product] :=
      (hEmbedded.drop 3).take 2
    let stored := snapshot.setCell snapshot.pointer (snapshot.registers first)
    let added := stored.setRegister product
      (snapshot.registers product + snapshot.registers first)
    have hAdd : Runs code 2 (start + 3) snapshot (start + 5) added := by
      refine .ofBlockTo hBlock ?_ (by simp only [List.length_cons, List.length_nil]; omega)
      have hPointer : (snapshot.setCell snapshot.pointer (snapshot.registers first)).pointer =
          snapshot.pointer := rfl
      simp only [Snapshot.runBlock, Snapshot.effect?, Instruction.unary, Option.bind_some,
        hPointer, Snapshot.memory_setCell_self, Snapshot.registers_setCell, Option.map_some]
      rfl
    have hAddedFirst : added.registers first = snapshot.registers first :=
      Snapshot.registers_setRegister_of_ne _ hFirstProduct _
    have hAddedSecond : added.registers second = snapshot.registers second :=
      Snapshot.registers_setRegister_of_ne _ hSecondProduct _
    refine ⟨_, _, hTest.trans (hTaken.trans (hAdd.trans (hShift added))), ?_, ?_, ?_, ?_⟩
    · rw [Snapshot.registers_setRegister_of_ne _ hFirstSecond,
        Snapshot.registers_setRegister_self, hAddedFirst]
    · rw [Snapshot.registers_setRegister_self, hAddedSecond]
    · rw [Snapshot.registers_setRegister_of_ne _ hSecondProduct.symm,
        Snapshot.registers_setRegister_of_ne _ hFirstProduct.symm,
        Snapshot.registers_setRegister_self, hOdd, Nat.mul_one]
    · exact ((((Snapshot.AgreeExcept.refl _ _ snapshot).setCell (by simp) _).setRegister
        (by simp) _).setRegister (by simp) _).setRegister (by simp) _
  · have hEven : snapshot.registers second % 2 = 0 := by omega
    have hPassed : Runs code 1 (start + 1) snapshot (start + 2) snapshot := by
      have hNext : ((start : Int) + 1) + 1 = start + 2 := by omega
      exact hNext ▸ .jodd_passed hBranch hOdd
    have hSkip : Runs code 1 (start + 2) snapshot (start + 5) snapshot :=
      .jump snapshot (hEmbedded 2 _ rfl)
    refine ⟨_, _, hTest.trans (hPassed.trans (hSkip.trans (hShift snapshot))), ?_, ?_, ?_, ?_⟩
    · rw [Snapshot.registers_setRegister_of_ne _ hFirstSecond,
        Snapshot.registers_setRegister_self]
    · rw [Snapshot.registers_setRegister_self]
    · rw [Snapshot.registers_setRegister_of_ne _ hSecondProduct.symm,
        Snapshot.registers_setRegister_of_ne _ hFirstProduct.symm, hEven, Nat.mul_zero,
        Nat.add_zero]
    · exact ((Snapshot.AgreeExcept.refl _ _ snapshot).setRegister (by simp) _).setRegister
        (by simp) _

/-- The product loop adds the product of two registers to a third.  It uses the
addressed cell and leaves the second register zero. -/
theorem productLoop_runs
    (hEmbedded : Embedded code start (productLoop start first second product))
    (hFirstSecond : first ≠ second) (hFirstProduct : first ≠ product)
    (hSecondProduct : second ≠ product) (hFirst : first ≠ 0) (hSecond : second ≠ 0)
    (hProduct : product ≠ 0) (snapshot : Snapshot) :
    ∃ steps after, Runs code steps start snapshot (start + 8) after ∧
      after.registers product = snapshot.registers product +
        snapshot.registers first * snapshot.registers second ∧
      after.registers second = 0 ∧
      snapshot.AgreeExcept [first, second, product] [snapshot.pointer] after := by
  -- the second factor is halved in each round
  induction hValue : snapshot.registers second using Nat.strong_induction_on
    generalizing snapshot with
  | _ value inductionHypothesis =>
      by_cases hZero : value = 0
      · subst hZero
        refine ⟨1, snapshot, .jzero_taken hEmbedded.head hValue, ?_, hValue, .refl _ _ _⟩
        rw [Nat.mul_zero, Nat.add_zero]
      · obtain ⟨firstSteps, middle, hRound, hFirstValue, hSecondValue, hProductValue, hAgree⟩ :=
          productLoop_round hEmbedded hFirstSecond hFirstProduct hSecondProduct snapshot (by omega)
        have hPointer : middle.pointer = snapshot.pointer :=
          hAgree.registers 0 (by simp [hFirst.symm, hSecond.symm, hProduct.symm])
        obtain ⟨restSteps, after, hRest, hResult, hEmpty, hLater⟩ :=
          inductionHypothesis (value / 2) (by omega) middle (by rw [hSecondValue, hValue])
        rw [hPointer] at hLater
        refine ⟨_, after, hRound.trans hRest, ?_, hEmpty, hAgree.trans hLater⟩
        have hHalves : value = 2 * (value / 2) + value % 2 := by omega
        rw [hResult, hProductValue, hFirstValue, hValue]
        conv_rhs => rw [hHalves]
        ring

end Products

/-! ### Quotients -/

section Quotients

variable {code : List Instruction} {start : Nat} {remainder divisor quotient count : Int}

/-- Compares the divisor with the remainder: both are kept in the scratch cells
and the divisor becomes zero exactly when it fits. -/
theorem runBlock_compare (remainder : Int) (hDivisor : divisor ≠ 0) (snapshot : Snapshot) :
    ∃ after,
      snapshot.runBlock
        [.unary .store remainder, .unary .inc pointerRegister, .unary .store divisor,
          .unary .dec pointerRegister, .unary .sub divisor] = some after ∧
      after.registers divisor =
        snapshot.registers divisor - snapshot.registers remainder ∧
      after.memory (snapshot.pointer + 1) = some (snapshot.registers divisor) ∧
      snapshot.AgreeExcept [divisor] [snapshot.pointer, snapshot.pointer + 1] after := by
  let place := snapshot.pointer
  let stored := (((snapshot.setCell place (snapshot.registers remainder)).setRegister 0
    (place + 1)).setCell (place + 1) (snapshot.registers divisor)).setRegister 0 place
  have hDivisorKept : stored.registers divisor = snapshot.registers divisor := by
    rw [Snapshot.registers_setRegister_of_ne _ hDivisor, Snapshot.registers_setCell,
      Snapshot.registers_setRegister_of_ne _ hDivisor, Snapshot.registers_setCell]
  have hFirstCell : stored.memory place = some (snapshot.registers remainder) := by
    rw [Snapshot.memory_setRegister, Snapshot.memory_setCell_of_ne _ (by omega),
      Snapshot.memory_setRegister, Snapshot.memory_setCell_self]
  have hSecondCell : stored.memory (place + 1) = some (snapshot.registers divisor) := by
    rw [Snapshot.memory_setRegister, Snapshot.memory_setCell_self]
  have hStored : snapshot.AgreeExcept [] [place, place + 1] stored := by
    constructor
    · intro register _
      by_cases hPointer : register = 0
      · subst hPointer
        exact Snapshot.registers_setRegister_self _ _ _
      · rw [Snapshot.registers_setRegister_of_ne _ hPointer, Snapshot.registers_setCell,
          Snapshot.registers_setRegister_of_ne _ hPointer, Snapshot.registers_setCell]
    · intro address hAddress
      simp only [List.mem_cons, List.not_mem_nil, or_false, not_or] at hAddress
      rw [Snapshot.memory_setRegister, Snapshot.memory_setCell_of_ne _ hAddress.2,
        Snapshot.memory_setRegister, Snapshot.memory_setCell_of_ne _ hAddress.1]
    · rfl
    · rfl
  refine ⟨stored.setRegister divisor
    (snapshot.registers divisor - snapshot.registers remainder), ?_, ?_, ?_, ?_⟩
  · have hPointer : ((pointerRegister : Nat) : Int) = 0 := rfl
    have hPlace : stored.registers 0 = place := Snapshot.registers_setRegister_self _ _ _
    simp only [Snapshot.runBlock, Snapshot.effect?, Instruction.unary, Option.bind_some, hPointer,
      Snapshot.pointer, Snapshot.registers_setCell, Snapshot.registers_setRegister_self,
      Snapshot.registers_setRegister_of_ne _ hDivisor, Nat.add_sub_cancel]
    change ((stored.memory (stored.registers 0)).map _).bind _ = _
    rw [hPlace, hFirstCell]
    rfl
  · exact Snapshot.registers_setRegister_self _ _ _
  · exact hSecondCell
  · constructor
    · intro register hRegister
      simp only [List.mem_cons, List.not_mem_nil, or_false] at hRegister
      rw [Snapshot.registers_setRegister_of_ne _ hRegister]
      exact hStored.registers register List.not_mem_nil
    · exact hStored.memory
    · rfl
    · rfl

/-- Takes the divisor back from its scratch cell. -/
theorem runBlock_restore (hDivisor : divisor ≠ 0) {snapshot : Snapshot} {value : Nat}
    (hCell : snapshot.memory (snapshot.pointer + 1) = some value) :
    ∃ after,
      snapshot.runBlock
        [.unary .inc pointerRegister, .unary .load divisor, .unary .dec pointerRegister] =
          some after ∧
      after.registers divisor = value ∧ snapshot.AgreeExcept [divisor] [] after := by
  have hPointer : ((pointerRegister : Nat) : Int) = 0 := rfl
  refine ⟨((snapshot.setRegister 0 (snapshot.pointer + 1)).setRegister divisor value).setRegister 0
    snapshot.pointer, ?_, ?_, ?_⟩
  · simp only [Snapshot.pointer] at hCell
    simp only [Snapshot.runBlock, Snapshot.effect?, Instruction.unary, Option.bind_some, hPointer,
      Snapshot.pointer, Snapshot.registers_setRegister_self, Snapshot.memory_setRegister, hCell,
      Option.map_some, Snapshot.registers_setRegister_of_ne _ hDivisor.symm, Nat.add_sub_cancel]
  · rw [Snapshot.registers_setRegister_of_ne _ hDivisor, Snapshot.registers_setRegister_self]
  · constructor
    · intro register hRegister
      simp only [List.mem_cons, List.not_mem_nil, or_false] at hRegister
      by_cases hZero : register = 0
      · subst hZero
        exact Snapshot.registers_setRegister_self _ _ _
      · rw [Snapshot.registers_setRegister_of_ne _ hZero,
          Snapshot.registers_setRegister_of_ne _ hRegister,
          Snapshot.registers_setRegister_of_ne _ hZero]
    · intro address _
      rfl
    · rfl
    · rfl

/-- Compares the divisor with the remainder and jumps where it fits.  The divisor is
left in its scratch cell only. -/
theorem compare_runs {line target : Int}
    (hEmbedded : Embedded code line
      [.unary .store remainder, .unary .inc pointerRegister, .unary .store divisor,
        .unary .dec pointerRegister, .unary .sub divisor, .branch .jzero divisor target])
    (hDivisor : divisor ≠ 0) (snapshot : Snapshot) :
    ∃ steps after,
      Runs code steps line snapshot
        (if snapshot.registers divisor ≤ snapshot.registers remainder then target
          else line + 6) after ∧
      after.memory (snapshot.pointer + 1) = some (snapshot.registers divisor) ∧
      snapshot.AgreeExcept [divisor] [snapshot.pointer, snapshot.pointer + 1] after := by
  obtain ⟨after, hBlock, hDifference, hCell, hAgree⟩ :=
    runBlock_compare remainder hDivisor snapshot
  have hCompared : Runs code 5 line snapshot (line + 5) after :=
    .ofBlockTo (hEmbedded.take 5) hBlock rfl
  have hBranch : instructionAt code (line + 5) = some (.branch .jzero divisor target) :=
    hEmbedded 5 _ rfl
  by_cases hFits : snapshot.registers divisor ≤ snapshot.registers remainder
  · rw [if_pos hFits]
    exact ⟨_, after, hCompared.trans (.jzero_taken hBranch (by omega)), hCell, hAgree⟩
  · rw [if_neg hFits]
    have hNext : line + 5 + 1 = line + 6 := by omega
    have hPassed := Runs.jzero_passed hBranch (by omega : after.registers divisor ≠ 0)
    exact ⟨_, after, hCompared.trans (hNext ▸ hPassed), hCell, hAgree⟩

/-- The last round of the doubling loop leaves it with the divisor unchanged. -/
theorem doublingLoop_exit
    (hEmbedded : Embedded code start (doublingLoop start remainder divisor count))
    (hDivisor : divisor ≠ 0) (snapshot : Snapshot)
    (hExceeds : snapshot.registers remainder < snapshot.registers divisor) :
    ∃ steps after, Runs code steps start snapshot (start + 16) after ∧
      after.registers divisor = snapshot.registers divisor ∧
      snapshot.AgreeExcept [divisor] [snapshot.pointer, snapshot.pointer + 1] after := by
  obtain ⟨steps, compared, hCompare, hCell, hCompared⟩ :=
    compare_runs (hEmbedded.take 6) hDivisor snapshot
  rw [if_neg (by omega)] at hCompare
  have hPointer : compared.pointer = snapshot.pointer :=
    hCompared.registers 0 (by simp [hDivisor.symm])
  obtain ⟨restored, hBlock, hValue, hRestored⟩ :=
    runBlock_restore hDivisor (hPointer ▸ hCell)
  have hRestore : Runs code 3 (start + 6) compared (start + 9) restored :=
    .ofBlockTo ((hEmbedded.drop 6).take 3) hBlock (Int.add_assoc _ _ _)
  have hLeave : Runs code 1 (start + 9) restored (start + 16) restored :=
    .jump restored (hEmbedded 9 _ rfl)
  exact ⟨_, restored, hCompare.trans (hRestore.trans hLeave), hValue,
    hCompared.trans (hRestored.mono (List.Subset.refl _) (List.nil_subset _))⟩

private theorem doublingLoop_round
    (hEmbedded : Embedded code start (doublingLoop start remainder divisor count))
    (hDivisor : divisor ≠ 0) (hCount : divisor ≠ count) (snapshot : Snapshot)
    (hFits : snapshot.registers divisor ≤ snapshot.registers remainder) :
    ∃ steps after, Runs code steps start snapshot start after ∧
      after.registers divisor = snapshot.registers divisor * 2 ∧
      after.registers count = snapshot.registers count + 1 ∧
      snapshot.AgreeExcept [divisor, count] [snapshot.pointer, snapshot.pointer + 1] after := by
  obtain ⟨steps, compared, hCompare, hCell, hCompared⟩ :=
    compare_runs (hEmbedded.take 6) hDivisor snapshot
  rw [if_pos hFits] at hCompare
  have hPointer : compared.pointer = snapshot.pointer :=
    hCompared.registers 0 (by simp [hDivisor.symm])
  obtain ⟨restored, hBlock, hValue, hRestored⟩ :=
    runBlock_restore hDivisor (hPointer ▸ hCell)
  have hCountKept : restored.registers count = snapshot.registers count := by
    rw [hRestored.registers count (by simp [hCount.symm]),
      hCompared.registers count (by simp [hCount.symm])]
  have hRestore : Runs code 3 (start + 10) compared (start + 13) restored :=
    .ofBlockTo ((hEmbedded.drop 10).take 3) hBlock (Int.add_assoc _ _ _)
  let doubled := (restored.setRegister divisor (snapshot.registers divisor * 2)).setRegister count
    (snapshot.registers count + 1)
  have hDouble : Runs code 2 (start + 13) restored (start + 15) doubled := by
    refine .ofBlockTo ((hEmbedded.drop 13).take 2) ?_ (Int.add_assoc _ _ _)
    simp only [Snapshot.runBlock, doublingLoop, List.drop_succ_cons, List.drop_zero,
      List.take_succ_cons, List.take_zero, Snapshot.effect?, Instruction.unary, Option.bind_some,
      Snapshot.registers_setRegister_of_ne _ hCount.symm, hValue, hCountKept]
    rfl
  have hBack : Runs code 1 (start + 15) doubled start doubled :=
    .jump doubled (hEmbedded 15 _ rfl)
  refine ⟨_, doubled, hCompare.trans (hRestore.trans (hDouble.trans hBack)), ?_, ?_, ?_⟩
  · rw [Snapshot.registers_setRegister_of_ne _ hCount, Snapshot.registers_setRegister_self]
  · rw [Snapshot.registers_setRegister_self]
  · have hKept := hCompared.trans (hRestored.mono (List.Subset.refl _) (List.nil_subset _))
    exact ((hKept.mono (by simp) (List.Subset.refl _)).setRegister (by simp) _).setRegister
      (by simp) _

/-- The doubling loop ends when the divisor exceeds the remainder. -/
theorem doublingLoop_runs
    (hEmbedded : Embedded code start (doublingLoop start remainder divisor count))
    (hDivisor : divisor ≠ 0) (hCount : count ≠ 0) (hDivisorCount : divisor ≠ count)
    (hRemainderDivisor : remainder ≠ divisor) (hRemainderCount : remainder ≠ count)
    (snapshot : Snapshot) (hPositive : 0 < snapshot.registers divisor) :
    ∃ steps after doublings, Runs code steps start snapshot (start + 16) after ∧
      after.registers divisor = snapshot.registers divisor * 2 ^ doublings ∧
      after.registers count = snapshot.registers count + doublings ∧
      snapshot.registers remainder < after.registers divisor ∧
      snapshot.AgreeExcept [divisor, count] [snapshot.pointer, snapshot.pointer + 1] after := by
  -- what the divisor lacks to exceed the remainder shrinks in each round
  induction hLack : snapshot.registers remainder + 1 - snapshot.registers divisor
    using Nat.strong_induction_on generalizing snapshot with
  | _ lack inductionHypothesis =>
      by_cases hFits : snapshot.registers divisor ≤ snapshot.registers remainder
      · obtain ⟨firstSteps, middle, hRound, hDoubled, hCounted, hAgree⟩ :=
          doublingLoop_round hEmbedded hDivisor hDivisorCount snapshot hFits
        have hPointer : middle.pointer = snapshot.pointer :=
          hAgree.registers 0 (by simp [hDivisor.symm, hCount.symm])
        have hRemainder : middle.registers remainder = snapshot.registers remainder :=
          hAgree.registers remainder (by simp [hRemainderDivisor, hRemainderCount])
        obtain ⟨restSteps, after, doublings, hRest, hResult, hTotal, hExceeds, hLater⟩ :=
          inductionHypothesis _ (by rw [hRemainder, hDoubled]; omega) middle
            (by rw [hDoubled]; omega) rfl
        rw [hPointer] at hLater
        refine ⟨_, after, doublings + 1, hRound.trans hRest, ?_, ?_, ?_, hAgree.trans hLater⟩
        · rw [hResult, hDoubled, pow_succ']
          ring
        · rw [hTotal, hCounted]
          omega
        · rw [hRemainder] at hExceeds
          exact hExceeds
      · obtain ⟨steps, after, hExit, hSame, hAgree⟩ :=
          doublingLoop_exit hEmbedded hDivisor snapshot (by omega)
        refine ⟨steps, after, 0, hExit, ?_, ?_, by omega, hAgree.mono (by simp)
          (List.Subset.refl _)⟩
        · rw [hSame, pow_zero, Nat.mul_one]
        · rw [hAgree.registers count (by simp [hDivisorCount.symm]), Nat.add_zero]

/-- Takes the divisor back from its scratch cell, subtracts it from the remainder and
counts it in the quotient. -/
theorem runBlock_subtract (hDistinct : [0, remainder, divisor, quotient, count].Nodup)
    {snapshot : Snapshot} {value : Nat}
    (hCell : snapshot.memory (snapshot.pointer + 1) = some value) :
    ∃ after,
      snapshot.runBlock
        [.unary .inc pointerRegister, .unary .load divisor, .unary .sub remainder,
          .unary .dec pointerRegister, .unary .inc quotient] = some after ∧
      after.registers divisor = value ∧
      after.registers remainder = snapshot.registers remainder - value ∧
      after.registers quotient = snapshot.registers quotient + 1 ∧
      snapshot.AgreeExcept [remainder, divisor, quotient] [] after := by
  have hPointer : ((pointerRegister : Nat) : Int) = 0 := rfl
  simp only [List.nodup_cons, List.mem_cons, List.not_mem_nil, or_false, not_or] at hDistinct
  obtain ⟨⟨hRemainder, hDivisor, hQuotient, -⟩, ⟨hRemainderDivisor, hRemainderQuotient, -⟩,
    ⟨hDivisorQuotient, -⟩, -⟩ := hDistinct
  refine ⟨((((snapshot.setRegister 0 (snapshot.pointer + 1)).setRegister divisor value).setRegister
    remainder (snapshot.registers remainder - value)).setRegister 0 snapshot.pointer).setRegister
    quotient (snapshot.registers quotient + 1), ?_, ?_, ?_, ?_, ?_⟩
  · simp only [Snapshot.pointer] at hCell
    simp only [Snapshot.runBlock, Snapshot.effect?, Instruction.unary, Option.bind_some, hPointer,
      Snapshot.pointer, Snapshot.registers_setRegister_self, Snapshot.memory_setRegister, hCell,
      Option.map_some, Snapshot.registers_setRegister_of_ne _ hDivisor,
      Snapshot.registers_setRegister_of_ne _ hRemainder,
      Snapshot.registers_setRegister_of_ne _ (Ne.symm hRemainder),
      Snapshot.registers_setRegister_of_ne _ hRemainderDivisor,
      Snapshot.registers_setRegister_of_ne _ (Ne.symm hQuotient),
      Snapshot.registers_setRegister_of_ne _ (Ne.symm hRemainderQuotient),
      Snapshot.registers_setRegister_of_ne _ (Ne.symm hDivisorQuotient), Nat.add_sub_cancel]
  · rw [Snapshot.registers_setRegister_of_ne _ hDivisorQuotient,
      Snapshot.registers_setRegister_of_ne _ (Ne.symm hDivisor),
      Snapshot.registers_setRegister_of_ne _ (Ne.symm hRemainderDivisor),
      Snapshot.registers_setRegister_self]
  · rw [Snapshot.registers_setRegister_of_ne _ hRemainderQuotient,
      Snapshot.registers_setRegister_of_ne _ (Ne.symm hRemainder),
      Snapshot.registers_setRegister_self]
  · rw [Snapshot.registers_setRegister_self]
  · constructor
    · intro register hRegister
      simp only [List.mem_cons, List.not_mem_nil, or_false, not_or] at hRegister
      obtain ⟨hNotRemainder, hNotDivisor, hNotQuotient⟩ := hRegister
      rw [Snapshot.registers_setRegister_of_ne _ hNotQuotient]
      by_cases hZero : register = 0
      · subst hZero
        exact Snapshot.registers_setRegister_self _ _ _
      · rw [Snapshot.registers_setRegister_of_ne _ hZero,
          Snapshot.registers_setRegister_of_ne _ hNotRemainder,
          Snapshot.registers_setRegister_of_ne _ hNotDivisor,
          Snapshot.registers_setRegister_of_ne _ hZero]
    · intro address _
      rfl
    · rfl
    · rfl

/-- Counts a round down, halves the divisor and doubles the quotient. -/
theorem runBlock_halve (hDistinct : [0, remainder, divisor, quotient, count].Nodup)
    (snapshot : Snapshot) :
    ∃ after,
      snapshot.runBlock [.unary .dec count, .unary .shr divisor, .unary .shl quotient] =
        some after ∧
      after.registers count = snapshot.registers count - 1 ∧
      after.registers divisor = snapshot.registers divisor / 2 ∧
      after.registers quotient = snapshot.registers quotient * 2 ∧
      snapshot.AgreeExcept [divisor, quotient, count] [] after := by
  simp only [List.nodup_cons, List.mem_cons, List.not_mem_nil, or_false, not_or] at hDistinct
  obtain ⟨-, -, ⟨hDivisorQuotient, hDivisorCount⟩, hQuotientCount, -⟩ := hDistinct
  refine ⟨((snapshot.setRegister count (snapshot.registers count - 1)).setRegister divisor
    (snapshot.registers divisor / 2)).setRegister quotient (snapshot.registers quotient * 2),
    ?_, ?_, ?_, ?_, ?_⟩
  · simp only [Snapshot.runBlock, Snapshot.effect?, Instruction.unary, Option.bind_some,
      Snapshot.registers_setRegister_of_ne _ hDivisorCount,
      Snapshot.registers_setRegister_of_ne _ (Ne.symm hDivisorQuotient),
      Snapshot.registers_setRegister_of_ne _ hQuotientCount]
  · rw [Snapshot.registers_setRegister_of_ne _ (Ne.symm hQuotientCount),
      Snapshot.registers_setRegister_of_ne _ (Ne.symm hDivisorCount),
      Snapshot.registers_setRegister_self]
  · rw [Snapshot.registers_setRegister_of_ne _ hDivisorQuotient,
      Snapshot.registers_setRegister_self]
  · exact Snapshot.registers_setRegister_self _ _ _
  · exact (((Snapshot.AgreeExcept.refl _ _ snapshot).setRegister (by simp) _).setRegister
      (by simp) _).setRegister (by simp) _

/-- A round of the halving loop: the divisor is halved, and where it then fits it is
subtracted from the remainder. -/
theorem halvingLoop_round
    (hEmbedded : Embedded code start (halvingLoop start remainder divisor quotient count))
    (hDistinct : [0, remainder, divisor, quotient, count].Nodup) (snapshot : Snapshot)
    (hCounting : snapshot.registers count ≠ 0) :
    ∃ steps after taken, Runs code steps start snapshot start after ∧
      after.registers count = snapshot.registers count - 1 ∧
      after.registers divisor = snapshot.registers divisor / 2 ∧
      after.registers quotient = snapshot.registers quotient * 2 + taken ∧
      after.registers remainder =
        snapshot.registers remainder - snapshot.registers divisor / 2 * taken ∧
      (taken = 1 ∧ snapshot.registers divisor / 2 ≤ snapshot.registers remainder ∨
        taken = 0 ∧ snapshot.registers remainder < snapshot.registers divisor / 2) ∧
      snapshot.AgreeExcept [remainder, divisor, quotient, count]
        [snapshot.pointer, snapshot.pointer + 1] after := by
  have hParts := hDistinct
  simp only [List.nodup_cons, List.mem_cons, List.not_mem_nil, or_false, not_or] at hParts
  obtain ⟨⟨hRemainder, hDivisor, hQuotient, hCount⟩,
    ⟨hRemainderDivisor, hRemainderQuotient, hRemainderCount⟩,
    ⟨hDivisorQuotient, hDivisorCount⟩, hQuotientCount, -⟩ := hParts
  have hTest : Runs code 1 start snapshot (start + 1) snapshot :=
    .jzero_passed hEmbedded.head hCounting
  obtain ⟨halved, hBlock, hHalvedCount, hHalvedDivisor, hHalvedQuotient, hHalved⟩ :=
    runBlock_halve hDistinct snapshot
  have hHalve : Runs code 3 (start + 1) snapshot (start + 4) halved :=
    .ofBlockTo ((hEmbedded.drop 1).take 3) hBlock (Int.add_assoc _ _ _)
  have hHalvedRemainder : halved.registers remainder = snapshot.registers remainder :=
    hHalved.registers remainder
      (by simp [hRemainderDivisor, hRemainderQuotient, hRemainderCount])
  have hHalvedPointer : halved.pointer = snapshot.pointer :=
    hHalved.registers 0 (by simp [hDivisor, hQuotient, hCount])
  obtain ⟨steps, compared, hCompare, hCell, hCompared⟩ :=
    compare_runs ((hEmbedded.drop 4).take 6) (Ne.symm hDivisor) halved
  have hPointer : compared.pointer = halved.pointer :=
    hCompared.registers 0 (by simp [hDivisor])
  rw [← hPointer, hHalvedDivisor] at hCell
  rw [hHalvedDivisor, hHalvedRemainder] at hCompare
  rw [hHalvedPointer] at hCompared
  have hStart : snapshot.AgreeExcept [remainder, divisor, quotient, count]
      [snapshot.pointer, snapshot.pointer + 1] halved :=
    hHalved.mono (by simp) (List.nil_subset _)
  by_cases hFits : snapshot.registers divisor / 2 ≤ snapshot.registers remainder
  · rw [if_pos hFits] at hCompare
    obtain ⟨subtracted, hBlock, hValue, hRest, hRaised, hSubtracted⟩ :=
      runBlock_subtract hDistinct hCell
    have hSubtract : Runs code 5 (start + 14) compared (start + 19) subtracted :=
      .ofBlockTo ((hEmbedded.drop 14).take 5) hBlock (Int.add_assoc _ _ _)
    have hBack : Runs code 1 (start + 19) subtracted start subtracted :=
      .jump subtracted (hEmbedded 19 _ rfl)
    refine ⟨_, subtracted, 1,
      hTest.trans (hHalve.trans (hCompare.trans (hSubtract.trans hBack))), ?_, hValue, ?_, ?_,
      .inl ⟨rfl, hFits⟩, ?_⟩
    · rw [hSubtracted.registers count (by
          simp [Ne.symm hRemainderCount, Ne.symm hDivisorCount, Ne.symm hQuotientCount]),
        hCompared.registers count (by simp [Ne.symm hDivisorCount]), hHalvedCount]
    · rw [hRaised, hCompared.registers quotient (by simp [Ne.symm hDivisorQuotient]),
        hHalvedQuotient]
    · rw [hRest, hCompared.registers remainder (by simp [hRemainderDivisor]), hHalvedRemainder,
        Nat.mul_one]
    · exact (hStart.trans (hCompared.mono (by simp) (List.Subset.refl _))).trans
        (hSubtracted.mono (by simp) (List.nil_subset _))
  · rw [if_neg hFits] at hCompare
    have hLine : (start : Int) + ((4 : Nat) : Int) + 6 = start + 10 := by omega
    rw [hLine] at hCompare
    obtain ⟨restored, hBlock, hValue, hRestored⟩ :=
      runBlock_restore (Ne.symm hDivisor) hCell
    have hRestore : Runs code 3 (start + 10) compared (start + 13) restored :=
      .ofBlockTo ((hEmbedded.drop 10).take 3) hBlock (Int.add_assoc _ _ _)
    have hBack : Runs code 1 (start + 13) restored start restored :=
      .jump restored (hEmbedded 13 _ rfl)
    refine ⟨_, restored, 0,
      hTest.trans (hHalve.trans (hCompare.trans (hRestore.trans hBack))), ?_, hValue, ?_, ?_,
      .inr ⟨rfl, by omega⟩, ?_⟩
    · rw [hRestored.registers count (by simp [Ne.symm hDivisorCount]),
        hCompared.registers count (by simp [Ne.symm hDivisorCount]), hHalvedCount]
    · rw [hRestored.registers quotient (by simp [Ne.symm hDivisorQuotient]),
        hCompared.registers quotient (by simp [Ne.symm hDivisorQuotient]), hHalvedQuotient,
        Nat.add_zero]
    · rw [hRestored.registers remainder (by simp [hRemainderDivisor]),
        hCompared.registers remainder (by simp [hRemainderDivisor]), hHalvedRemainder,
        Nat.mul_zero, Nat.sub_zero]
    · exact (hStart.trans (hCompared.mono (by simp) (List.Subset.refl _))).trans
        (hRestored.mono (by simp) (List.nil_subset _))

/-- The halving loop divides by the divisor as it was before it was doubled. -/
theorem halvingLoop_runs
    (hEmbedded : Embedded code start (halvingLoop start remainder divisor quotient count))
    (hDistinct : [0, remainder, divisor, quotient, count].Nodup) {base doublings : Nat}
    (snapshot : Snapshot) (hCount : snapshot.registers count = doublings)
    (hDivisor : snapshot.registers divisor = base * 2 ^ doublings)
    (hExceeds : snapshot.registers remainder < base * 2 ^ doublings) :
    ∃ steps after, Runs code steps start snapshot (start + 20) after ∧
      after.registers quotient * base + after.registers remainder =
        snapshot.registers quotient * (base * 2 ^ doublings) + snapshot.registers remainder ∧
      after.registers remainder < base ∧
      snapshot.AgreeExcept [remainder, divisor, quotient, count]
        [snapshot.pointer, snapshot.pointer + 1] after := by
  induction doublings generalizing snapshot with
  | zero =>
      refine ⟨1, snapshot, .jzero_taken hEmbedded.head hCount, ?_, ?_, .refl _ _ _⟩
      · rw [pow_zero, Nat.mul_one]
      · simpa using hExceeds
  | succ doublings inductionHypothesis =>
      obtain ⟨firstSteps, middle, taken, hRound, hCounted, hHalved, hRaised, hRest, hTaken,
        hAgree⟩ := halvingLoop_round hEmbedded hDistinct snapshot (by omega)
      have hHalf : base * 2 ^ (doublings + 1) / 2 = base * 2 ^ doublings := by
        rw [pow_succ, ← Nat.mul_assoc]
        exact Nat.mul_div_cancel _ (by omega)
      have hDouble : base * 2 ^ (doublings + 1) = 2 * (base * 2 ^ doublings) := by ring
      rw [hDivisor, hHalf] at hHalved hRest hTaken
      have hPointer : middle.pointer = snapshot.pointer :=
        hAgree.registers 0 (by
          simp only [List.nodup_cons] at hDistinct
          exact hDistinct.1)
      have hSmaller : middle.registers remainder < base * 2 ^ doublings := by
        rcases hTaken with ⟨rfl, hFits⟩ | ⟨rfl, hBelow⟩
        · rw [hRest, Nat.mul_one]
          omega
        · rw [hRest, Nat.mul_zero, Nat.sub_zero]
          exact hBelow
      obtain ⟨restSteps, after, hRuns, hSum, hBound, hLater⟩ :=
        inductionHypothesis middle (by omega) hHalved hSmaller
      rw [hPointer] at hLater
      refine ⟨_, after, hRound.trans hRuns, ?_, hBound, hAgree.trans hLater⟩
      rw [hSum, hRaised, hRest, hDouble]
      rcases hTaken with ⟨rfl, hFits⟩ | ⟨rfl, hBelow⟩
      · rw [Nat.mul_one, Nat.add_mul, Nat.one_mul, Nat.mul_assoc, Nat.add_assoc,
          Nat.add_sub_cancel' hFits]
      · rw [Nat.mul_zero, Nat.sub_zero, Nat.add_zero, Nat.mul_assoc]

/-- The division loop leaves the quotient and the remainder of two registers, both
zero when the divisor is zero.  It uses the addressed cell and the one behind it. -/
theorem divisionLoop_runs
    (hEmbedded : Embedded code start (divisionLoop start remainder divisor quotient count))
    (hDistinct : [0, remainder, divisor, quotient, count].Nodup) (snapshot : Snapshot)
    (hQuotient : snapshot.registers quotient = 0) (hCount : snapshot.registers count = 0) :
    ∃ steps after, Runs code steps start snapshot (start + 40) after ∧
      after.registers quotient =
        Operator.div.eval (snapshot.registers remainder) (snapshot.registers divisor) ∧
      after.registers remainder =
        Operator.mod.eval (snapshot.registers remainder) (snapshot.registers divisor) ∧
      snapshot.AgreeExcept [remainder, divisor, quotient, count]
        [snapshot.pointer, snapshot.pointer + 1] after := by
  have hParts := hDistinct
  simp only [List.nodup_cons, List.mem_cons, List.not_mem_nil, or_false, not_or] at hParts
  obtain ⟨⟨hNotRemainder, hNotDivisor, hNotQuotient, hNotCount⟩,
    ⟨hRemainderDivisor, hRemainderQuotient, hRemainderCount⟩,
    ⟨hDivisorQuotient, hDivisorCount⟩, hQuotientCount, -⟩ := hParts
  have hEntry : instructionAt code start = some (.branch .jzero divisor (start + 2)) :=
    hEmbedded.head
  by_cases hZero : snapshot.registers divisor = 0
  · have hTaken : Runs code 1 start snapshot (start + 2) snapshot := .jzero_taken hEntry hZero
    have hClear : Runs code 1 (start + 2) snapshot (start + 3)
        (snapshot.setRegister remainder 0) :=
      .ofBlockTo ((hEmbedded.drop 2).take 1) rfl (Int.add_assoc _ _ _)
    have hLeave : Runs code 1 (start + 3) (snapshot.setRegister remainder 0) (start + 40)
        (snapshot.setRegister remainder 0) := .jump _ (hEmbedded 3 _ rfl)
    refine ⟨_, _, hTaken.trans (hClear.trans hLeave), ?_, ?_,
      (Snapshot.AgreeExcept.refl _ _ snapshot).setRegister (by simp) 0⟩
    · rw [Snapshot.registers_setRegister_of_ne _ (Ne.symm hRemainderQuotient), hQuotient, hZero]
      simp [Operator.eval]
    · rw [Snapshot.registers_setRegister_self, hZero]
      simp [Operator.eval]
  · have hPassed : Runs code 1 start snapshot (start + 1) snapshot := .jzero_passed hEntry hZero
    have hSkip : Runs code 1 (start + 1) snapshot (start + 4) snapshot :=
      .jump snapshot (hEmbedded 1 _ rfl)
    have hDoubling : Embedded code ((start + 4 : Nat) : Int)
        (doublingLoop (start + 4) remainder divisor count) := (hEmbedded.drop 4).take 16
    obtain ⟨doubleSteps, doubled, doublings, hDouble, hDoubled, hCounted, hExceeds, hAgree⟩ :=
      doublingLoop_runs hDoubling (Ne.symm hNotDivisor) (Ne.symm hNotCount) hDivisorCount
        hRemainderDivisor hRemainderCount snapshot (by omega)
    have hPointer : doubled.pointer = snapshot.pointer :=
      hAgree.registers 0 (by simp [hNotDivisor, hNotCount])
    have hRemainder : doubled.registers remainder = snapshot.registers remainder :=
      hAgree.registers remainder (by simp [hRemainderDivisor, hRemainderCount])
    have hStill : doubled.registers quotient = 0 := by
      rw [hAgree.registers quotient (by simp [Ne.symm hDivisorQuotient, hQuotientCount]),
        hQuotient]
    have hHalving : Embedded code ((start + 20 : Nat) : Int)
        (halvingLoop (start + 20) remainder divisor quotient count) := hEmbedded.drop 20
    rw [hCount, Nat.zero_add] at hCounted
    obtain ⟨halveSteps, after, hHalve, hSum, hBound, hLater⟩ :=
      halvingLoop_runs hHalving hDistinct doubled hCounted hDoubled
        (by rw [hRemainder, ← hDoubled]; exact hExceeds)
    rw [hPointer] at hLater
    rw [hStill, Nat.zero_mul, Nat.zero_add, hRemainder] at hSum
    have hDoubleTo : Runs code doubleSteps (start + 4) snapshot ((start + 20 : Nat) : Int)
        doubled := by
      have hLine : (((start + 4 : Nat) : Int) + 16) = ((start + 20 : Nat) : Int) := by omega
      rw [hLine] at hDouble
      exact hDouble
    have hHalveTo : Runs code halveSteps ((start + 20 : Nat) : Int) doubled (start + 40)
        after := by
      have hLine : (((start + 20 : Nat) : Int) + 20) = start + 40 := by omega
      rw [hLine] at hHalve
      exact hHalve
    have hParted : after.registers remainder +
        snapshot.registers divisor * after.registers quotient =
          snapshot.registers remainder := by
      rw [← hSum]
      ring
    obtain ⟨hDiv, hMod⟩ := (Nat.div_mod_unique (by omega)).mpr ⟨hParted, hBound⟩
    refine ⟨_, after, hPassed.trans (hSkip.trans (hDoubleTo.trans hHalveTo)), ?_, ?_,
      (hAgree.mono (by simp) (List.Subset.refl _)).trans hLater⟩
    · exact hDiv.symm
    · simp only [Operator.eval, if_neg hZero]
      exact hMod.symm

end Quotients

end RegisterCompiler
