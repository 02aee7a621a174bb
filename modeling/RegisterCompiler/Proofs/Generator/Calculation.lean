/-
The code of expressions.

The result of an operation on operands gets into a newly held register.  Sums and
differences hold at most two registers more while they are computed, the general
products three and the general quotients four.
-/

import RegisterCompiler.Proofs.Generator.Resolution

set_option autoImplicit false

namespace RegisterCompiler

open Generating (Ensures)

namespace Operand

def combine? (operator : Operator) (left right : Operand) (picture : Picture) : Option Nat :=
  (left.value? picture).bind fun first =>
    (right.value? picture).map fun second => operator.eval first second

@[simp]
theorem value?_hold (operand : Operand) (picture : Picture) (register : Int) (value : Nat) :
    operand.value? (picture.hold register value) = operand.value? picture := by
  cases operand <;> rfl

theorem combine?_eq_some_iff {operator : Operator} {left right : Operand} {picture : Picture}
    {result : Nat} : combine? operator left right picture = some result ↔
      ∃ first second, left.value? picture = some first ∧ right.value? picture = some second ∧
        operator.eval first second = result := by
  unfold combine?
  rw [Option.bind_eq_some_iff]
  constructor
  · rintro ⟨first, hFirst, hRest⟩
    obtain ⟨second, hSecond, hResult⟩ := Option.map_eq_some_iff.mp hRest
    exact ⟨first, second, hFirst, hSecond, hResult⟩
  · rintro ⟨first, second, hFirst, hSecond, hResult⟩
    exact ⟨first, hFirst, Option.map_eq_some_iff.mpr ⟨second, hSecond, hResult⟩⟩

theorem eq_constant_of_constant? {operand : Operand} {value : Nat}
    (hConstant : operand.constant? = some value) : operand = .constant value := by
  cases operand with
  | constant found => rw [Option.some.inj hConstant]
  | _ => contradiction

private theorem steps?_eq_some {operand : Operand} {count : Nat}
    (hSteps : operand.steps? = some count) :
    operand = .constant count := by
  obtain ⟨hConstant, -⟩ := Option.filter_eq_some_iff.mp hSteps
  exact eq_constant_of_constant? hConstant

private theorem exponent?_eq_some {operand : Operand} {exponent : Nat}
    (hExponent : operand.exponent? = some exponent) : operand = .constant (2 ^ exponent) := by
  obtain ⟨value, hValue, rfl⟩ := Option.map_eq_some_iff.mp hExponent
  obtain ⟨hConstant, hPower⟩ := Option.filter_eq_some_iff.mp hValue
  rw [eq_constant_of_constant? hConstant]
  exact congrArg Operand.constant (of_decide_eq_true hPower)

end Operand

namespace ScalarCell

/-- Two cells at one address belong to one name. -/
theorem Placed.name_eq_of_address {store : Store} (hLinked : store.Linked)
    {first second : ScalarCell} (hFirst : first.Placed store.setting)
    (hSecond : second.Placed store.setting) (hAddress : first.address = second.address) :
    first.name = second.name := by
  obtain ⟨firstKind, firstAddress, hFirstCell, hFirstPlace⟩ := hFirst
  obtain ⟨secondKind, secondAddress, hSecondCell, hSecondPlace⟩ := hSecond
  have hSame : firstAddress = secondAddress := by
    rw [← hFirstPlace, ← hSecondPlace] at hAddress
    exact UInt64.toNat_inj.mp hAddress
  rw [hSame] at hFirstCell
  exact (hLinked.name_eq_of_cell? hFirstCell hSecondCell).1

private theorem Placed.name_eq_of_handle {store : Store} (hLinked : store.Linked)
    {first second : ScalarCell} (hFirst : first.Placed store.setting)
    (hSecond : second.Placed store.setting) (hHandle : first.handle = second.handle) :
    first.name = second.name := by
  obtain ⟨firstKind, firstAddress, hFirstCell, -⟩ := hFirst
  obtain ⟨secondKind, secondAddress, hSecondCell, -⟩ := hSecond
  have hFirstName := (hLinked.cells _ _ _ (Setting.cell?_eq_some_iff.mp hFirstCell).1).1
  have hSecondName := (hLinked.cells _ _ _ (Setting.cell?_eq_some_iff.mp hSecondCell).1).1
  rw [hHandle, hSecondName] at hFirstName
  exact (Option.some.inj hFirstName).symm

end ScalarCell

/-- Operands that are the same always have the same value. -/
theorem Operand.value?_eq_of_same {store : Store} (hLinked : store.Linked)
    {left right : Operand} (hLeft : left.Placed store.setting) (hRight : right.Placed store.setting)
    (hSame : left.same right = true) (picture : Picture) :
    left.value? picture = right.value? picture := by
  cases left with
  | constant first =>
      cases right with
      | constant second =>
          have hEqual : first = second := by simpa [same] using hSame
          rw [hEqual]
      | _ => contradiction
  | scalar first =>
      cases right with
      | scalar second =>
          have hAddress : first.address = second.address := by simpa [same] using hSame
          change picture.scalar first.name = picture.scalar second.name
          rw [ScalarCell.Placed.name_eq_of_address hLinked hLeft hRight hAddress]
      | _ => contradiction
  | element first =>
      cases right with
      | element second =>
          have hEqual : first = second := by simpa [same] using hSame
          rw [hEqual]
      | _ => contradiction
  | dynamic firstBase first =>
      cases right with
      | dynamic secondBase second =>
          have hBoth : firstBase = secondBase ∧ first.handle = second.handle := by
            simpa [same] using hSame
          obtain ⟨rfl, hHandle⟩ := hBoth
          have hName := ScalarCell.Placed.name_eq_of_handle hLinked hLeft.2 hRight.2 hHandle
          simp only [value?, hName]
      | _ => contradiction

namespace Context

variable {context : Context}

/-! ### Changing a held register by an operand -/

/-- A step that changes a held register by the value of an operand. -/
structure Alters (before after : Context) (registers : List Int) (register : Int)
    (operand : Operand) (operation : Nat → Nat → Nat) : Prop where
  turns : Turns before after fun start finish => ∃ value other,
    start.held register = some value ∧ operand.value? start = some other ∧
      finish = start.hold register (operation value other)
  holding : after.Holding registers

private theorem combineCell_ensures (hSound : context.Sound) {registers : List Int}
    (hHolding : context.Holding registers) (hFew : registers.length < 4) {register : Int}
    (hMem : register ∈ registers) {operand : Operand} (hPlaced : operand.Placed context.setting)
    {opcode : Opcode} (hShape : opcode.shape = .register) {operation : Nat → Nat → Nat}
    (hOpcode : ∀ (snapshot : Snapshot) cell, snapshot.memory snapshot.pointer = some cell →
      snapshot.effect? (.unary opcode register) = some (snapshot.setRegister register
        (operation (snapshot.registers register) cell))) :
    Ensures (do
      let cell ← Generating.aimAt operand
      Generating.emit (.unary opcode register)
      Generating.freeBorrowed cell) context fun _ after =>
        Alters context after registers register operand operation := by
  refine .bind (aimAt_ensures hSound hHolding hFew hPlaced) ?_
  rintro borrowed aimed ⟨hAimed, hBorrowed, hHeld, hAims⟩
  have hHolds := (hHeld.held register).mp hMem
  have hReady : ∀ instruction ∈ [Instruction.unary opcode register],
      instruction.Ready aimed.options.registers (aimed.listing.size + 1) := by
    intro instruction hInstruction
    rw [List.mem_singleton.mp hInstruction]
    exact ready_of_allocatable hAimed.sound (hAimed.sound.store.allocatable_of_holds hHolds) hShape _
  have hAdded := Works.add hAimed.sound hReady
  refine ensures_emitAll ((freeBorrowed_ensures hAdded.sound hBorrowed).mono ?_)
  rintro - after ⟨hFreed, hSetting, hRegisters, hFrees⟩
  refine ⟨⟨⟨(hAimed.trans hAdded.toAdvances).trans hFreed, hSetting⟩, ?_⟩, hHeld.congr hRegisters⟩
  rintro start _ ⟨value, other, hValue, hOther, rfl⟩
  refine .assume ?_
  intro known hKnown
  have hUnused := scratch_eq_none_of_borrowed hBorrowed hKnown
  refine ((hAims start other hOther).trans (.add hAimed.sound hReady
    (fun _ hHere => ⟨_, hHere.1⟩) ?_) hAdded.grows).trans
    (hFrees (start.hold register (operation value other)) hUnused) hFreed.grows
  rintro snapshot ⟨hShows, hMemory⟩
  refine ⟨snapshot.setRegister register (operation value other), ?_,
    hShows.setHeld hAimed.sound.store.toLinked hHolds _⟩
  simp only [Snapshot.runBlock, hOpcode snapshot other hMemory,
    (hShows.held register value hValue).2, Option.bind_some]

/-- A small number changes a register by single steps, any other operand through its cell. -/
theorem changeBy_ensures (hSound : context.Sound) {registers : List Int}
    (hHolding : context.Holding registers) (hFew : registers.length < 4) {register : Int}
    (hMem : register ∈ registers) {operand : Operand} (hPlaced : operand.Placed context.setting)
    {single opcode : Opcode} (hSingle : single.shape = .register)
    (hShape : opcode.shape = .register) {operation : Nat → Nat → Nat}
    (hSteps : ∀ (count : Nat) (snapshot : Snapshot),
      snapshot.runBlock (List.replicate count (.unary single register)) =
        some (snapshot.setRegister register (operation (snapshot.registers register) count)))
    (hOpcode : ∀ (snapshot : Snapshot) cell, snapshot.memory snapshot.pointer = some cell →
      snapshot.effect? (.unary opcode register) = some (snapshot.setRegister register
        (operation (snapshot.registers register) cell))) :
    Ensures (match operand.steps? with
      | some count => Generating.repeatUnary single register count
      | none => do
          let cell ← Generating.aimAt operand
          Generating.emit (.unary opcode register)
          Generating.freeBorrowed cell) context fun _ after =>
            Alters context after registers register operand operation := by
  cases hFound : operand.steps? with
  | some count =>
      have hTurns := Turns.repeatUnary hSound ((hHolding.held register).mp hMem) hSingle
        (operation · count) (hSteps count)
      refine .modify ⟨hTurns.imp ?_, hHolding.congr rfl⟩
      rintro start _ ⟨value, other, hValue, hOther, rfl⟩
      rw [Operand.steps?_eq_some hFound] at hOther
      obtain rfl := Option.some.inj hOther
      exact ⟨value, hValue, rfl⟩
  | none => exact combineCell_ensures hSound hHolding hFew hMem hPlaced hShape hOpcode

private theorem increaseBy_ensures (hSound : context.Sound) {registers : List Int}
    (hHolding : context.Holding registers) (hFew : registers.length < 4) {register : Int}
    (hMem : register ∈ registers) {operand : Operand} (hPlaced : operand.Placed context.setting) :
    Ensures (Generating.increaseBy register operand) context fun _ after =>
      Alters context after registers register operand (· + ·) := by
  refine changeBy_ensures hSound hHolding hFew hMem hPlaced rfl rfl
    (Snapshot.runBlock_replicate_inc register) ?_
  intro snapshot cell hCell
  simp only [Snapshot.effect?, Instruction.unary, hCell, Option.map_some]

theorem decreaseBy_ensures (hSound : context.Sound) {registers : List Int}
    (hHolding : context.Holding registers) (hFew : registers.length < 4) {register : Int}
    (hMem : register ∈ registers) {operand : Operand} (hPlaced : operand.Placed context.setting) :
    Ensures (Generating.decreaseBy register operand) context fun _ after =>
      Alters context after registers register operand (· - ·) := by
  refine changeBy_ensures hSound hHolding hFew hMem hPlaced rfl rfl
    (Snapshot.runBlock_replicate_dec register) ?_
  intro snapshot cell hCell
  simp only [Snapshot.effect?, Instruction.unary, hCell, Option.map_some]

/-! ### Sums and differences -/

/-- A register that was taken may be changed by an operand. -/
theorem Takes.alter {middle after : Context} {registers : List Int} {register : Int}
    {left right : Operand} {operation : Nat → Nat → Nat}
    (hTakes : Takes context middle registers register left.value?)
    (hAlters : Alters middle after (register :: registers) register right operation)
    {content : Picture → Option Nat}
    (hContent : ∀ picture result, content picture = some result → ∃ first second,
      left.value? picture = some first ∧ right.value? picture = some second ∧
        operation first second = result) :
    Takes context after registers register content := by
  refine ⟨hTakes.turns.trans hAlters.turns ?_, hAlters.holding, hTakes.new⟩
  rintro start _ ⟨result, hResult, rfl⟩
  obtain ⟨first, second, hFirst, hSecond, rfl⟩ := hContent start result hResult
  refine ⟨_, ⟨first, hFirst, rfl⟩, first, second, start.held_hold_self register first, ?_, ?_⟩
  · rw [Operand.value?_hold]
    exact hSecond
  · rw [Picture.hold_hold]

/-- A register that was taken may be changed by code of its own. -/
theorem Takes.apply {middle after : Context} {registers : List Int} {register : Int}
    {operand : Operand} (operation : Nat → Nat)
    (hTakes : Takes context middle registers register operand.value?)
    (hTurns : Turns middle after fun start finish => ∃ value,
      start.held register = some value ∧ finish = start.hold register (operation value))
    (hRegisters : after.store.registers = middle.store.registers)
    {content : Picture → Option Nat}
    (hContent : ∀ picture result, content picture = some result → ∃ value,
      operand.value? picture = some value ∧ operation value = result) :
    Takes context after registers register content := by
  refine ⟨hTakes.turns.trans hTurns ?_, hTakes.holding.congr hRegisters, hTakes.new⟩
  rintro start _ ⟨result, hResult, rfl⟩
  obtain ⟨value, hValue, rfl⟩ := hContent start result hResult
  refine ⟨_, ⟨value, hValue, rfl⟩, value, start.held_hold_self register value, ?_⟩
  rw [Picture.hold_hold]

private theorem Takes.holds {before after : Context} {registers : List Int} {register : Int}
    {content : Picture → Option Nat} (hTakes : Takes before after registers register content) :
    after.store.Holds register :=
  (hTakes.holding.held register).mp List.mem_cons_self

theorem Takes.imp {after : Context} {registers : List Int} {register : Int}
    {content other : Picture → Option Nat} (hTakes : Takes context after registers register content)
    (hContent : ∀ picture value, other picture = some value → content picture = some value) :
    Takes context after registers register other := by
  refine ⟨hTakes.turns.imp ?_, hTakes.holding, hTakes.new⟩
  rintro start finish ⟨value, hValue, hFinish⟩
  exact ⟨value, hContent start value hValue, hFinish⟩

/-- A number is taken for what is always that number. -/
theorem takeConstant_ensures (hSound : context.Sound) {registers : List Int}
    (hHolding : context.Holding registers) (hFew : registers.length < 4) {number : Nat}
    {content : Picture → Option Nat}
    (hContent : ∀ picture value, content picture = some value → value = number) :
    Ensures (Generating.take (.constant number)) context fun register after =>
      Takes context after registers register content := by
  have hPlaced : (Operand.constant number).Placed context.setting := trivial
  refine (take_ensures hSound hHolding hFew hPlaced).mono ?_
  intro register after hTakes
  refine hTakes.imp ?_
  intro picture value hValue
  rw [hContent picture value hValue]
  rfl

private theorem addTo_ensures (hSound : context.Sound) {registers : List Int}
    (hHolding : context.Holding registers) (hFew : registers.length < 3) {left right : Operand}
    (hLeft : left.Placed context.setting) (hRight : right.Placed context.setting)
    {content : Picture → Option Nat}
    (hContent : ∀ picture result, content picture = some result → ∃ first second,
      left.value? picture = some first ∧ right.value? picture = some second ∧
        first + second = result) :
    Ensures (Generating.addTo left right) context fun register after =>
      Takes context after registers register content := by
  refine .bind (take_ensures hSound hHolding (by omega) hLeft) ?_
  intro register taken hTakes
  refine .bind (increaseBy_ensures hTakes.turns.sound hTakes.holding
    (by rw [List.length_cons]; omega) List.mem_cons_self
    (by rw [hTakes.turns.setting]; exact hRight)) ?_
  intro _ after hAlters
  exact .pure (hTakes.alter hAlters hContent)

private theorem sum_ensures (hSound : context.Sound) {registers : List Int}
    (hHolding : context.Holding registers) (hFew : registers.length < 3) {left right : Operand}
    (hLeft : left.Placed context.setting) (hRight : right.Placed context.setting) :
    Ensures (Generating.sum left right) context fun register after =>
      Takes context after registers register (Operand.combine? .add left right) := by
  -- The summands may be exchanged first, so both orders are proved at once.
  have hEither : ∀ {first second : Operand}, first.Placed context.setting →
      second.Placed context.setting →
      (∀ picture result, Operand.combine? .add left right picture = some result →
        ∃ one other, first.value? picture = some one ∧ second.value? picture = some other ∧
          one + other = result) →
      Ensures (if first.same second = true then do
          let register ← Generating.take first
          Generating.emit (.unary .shl register)
          return register
        else if (second.constant?.isSome && second.steps?.isNone) = true then
          Generating.addTo second first
        else Generating.addTo first second) context fun register after =>
          Takes context after registers register (Operand.combine? .add left right) := by
    intro first second hFirst hSecond hContent
    split
    · rename_i hSame
      refine .bind (take_ensures hSound hHolding (by omega) hFirst) ?_
      intro register taken hTakes
      have hDoubled := Turns.repeatUnary hTakes.turns.sound hTakes.holds rfl (· * 2 ^ 1)
        (Snapshot.runBlock_replicate_shl register 1)
      refine ensures_emitAll (.pure (hTakes.apply (· * 2 ^ 1) hDoubled rfl ?_))
      intro picture result hResult
      obtain ⟨one, other, hOne, hOther, rfl⟩ := hContent picture result hResult
      rw [← Operand.value?_eq_of_same hSound.store.toLinked hFirst hSecond hSame, hOne] at hOther
      obtain rfl := Option.some.inj hOther
      exact ⟨one, hOne, by omega⟩
    · split
      · refine addTo_ensures hSound hHolding hFew hSecond hFirst ?_
        intro picture result hResult
        obtain ⟨one, other, hOne, hOther, rfl⟩ := hContent picture result hResult
        exact ⟨other, one, hOther, hOne, Nat.add_comm _ _⟩
      · exact addTo_ensures hSound hHolding hFew hFirst hSecond hContent
  have hBoth : ∀ picture result, Operand.combine? .add left right picture = some result →
      ∃ one other, left.value? picture = some one ∧ right.value? picture = some other ∧
        one + other = result := fun picture result hResult =>
    Operand.combine?_eq_some_iff.mp hResult
  unfold Generating.sum
  by_cases hConstant : left.constant?.isSome = true
  · simp only [if_pos hConstant]
    refine hEither hRight hLeft ?_
    intro picture result hResult
    obtain ⟨one, other, hOne, hOther, rfl⟩ := hBoth picture result hResult
    exact ⟨other, one, hOther, hOne, Nat.add_comm _ _⟩
  · simp only [if_neg hConstant]
    exact hEither hLeft hRight hBoth

private theorem difference_ensures (hSound : context.Sound) {registers : List Int}
    (hHolding : context.Holding registers) (hFew : registers.length < 3) {left right : Operand}
    (hLeft : left.Placed context.setting) (hRight : right.Placed context.setting) :
    Ensures (Generating.difference left right) context fun register after =>
      Takes context after registers register (Operand.combine? .sub left right) := by
  unfold Generating.difference
  split
  · rename_i hSame
    refine takeConstant_ensures hSound hHolding (by omega) ?_
    intro picture result hResult
    obtain ⟨first, second, hFirst, hSecond, rfl⟩ := Operand.combine?_eq_some_iff.mp hResult
    rw [← Operand.value?_eq_of_same hSound.store.toLinked hLeft hRight hSame, hFirst] at hSecond
    rw [Option.some.inj hSecond, Operator.eval, Nat.sub_self]
  · refine .bind (take_ensures hSound hHolding (by omega) hLeft) ?_
    intro register taken hTakes
    refine .bind (decreaseBy_ensures hTakes.turns.sound hTakes.holding
      (by rw [List.length_cons]; omega) List.mem_cons_self
      (by rw [hTakes.turns.setting]; exact hRight)) ?_
    intro _ after hAlters
    exact .pure (hTakes.alter hAlters fun picture result hResult =>
      Operand.combine?_eq_some_iff.mp hResult)

/-! ### Products -/

theorem Holding.of_mem_iff {registers others : List Int} (hHolding : context.Holding registers)
    (hSame : ∀ register, register ∈ others ↔ register ∈ registers) : context.Holding others :=
  ⟨fun register => (hSame register).trans (hHolding.held register), hHolding.spare⟩

private theorem ready_productLoop (hSound : context.Sound) {first second product : Int}
    (hFirst : context.store.Allocatable first) (hSecond : context.store.Allocatable second)
    (hProduct : context.store.Allocatable product) {start lines : Nat} (hLines : start + 8 ≤ lines) :
    ∀ instruction ∈ productLoop start first second product,
      instruction.Ready context.options.registers lines := by
  unfold productLoop
  simp only [List.forall_mem_cons]
  refine ⟨ready_branch_of_allocatable hSound hSecond rfl (by omega) (by omega),
    ready_branch_of_allocatable hSound hSecond rfl (by omega) (by omega),
    Instruction.ready_jump _ (by omega) (by omega), ready_of_allocatable hSound hFirst rfl _,
    ready_of_allocatable hSound hProduct rfl _, ready_of_allocatable hSound hFirst rfl _,
    ready_of_allocatable hSound hSecond rfl _, Instruction.ready_jump _ (by omega) (by omega), ?_⟩
  exact fun _ hNone => absurd hNone List.not_mem_nil

theorem targets_productLoop {start : Nat} {first second product : Int} :
    ∀ instruction ∈ productLoop start first second product, instruction.opcode.isJump = true →
      (start : Int) ≤ instruction.target := by
  unfold productLoop
  simp only [List.forall_mem_cons, Instruction.branch, Instruction.jump, Instruction.unary]
  refine ⟨?_, ?_, ?_, ?_, ?_, ?_, ?_, ?_, fun _ hNone => absurd hNone List.not_mem_nil⟩ <;>
    first
    | exact fun hJump => absurd hJump (by decide)
    | exact fun _ => by omega

private theorem writesOnly_productLoop {start : Nat} {first second product : Int} :
    ∀ instruction ∈ productLoop start first second product,
      instruction.WritesOnly [first, second, product] := by
  unfold productLoop
  simp only [List.forall_mem_cons]
  refine ⟨.inl rfl, .inl rfl, .inl rfl, .inr (.inl rfl), .inr (.inr ?_), .inr (.inr ?_),
    .inr (.inr ?_), .inl rfl, fun _ hNone => absurd hNone List.not_mem_nil⟩ <;>
    simp [Instruction.unary]

/-- The product loop multiplies two held registers, given a scratch cell. -/
theorem Turns.productLoop (hSound : context.Sound) {first second product : Int}
    (hFirst : context.store.Holds first) (hSecond : context.store.Holds second)
    (hProduct : context.store.Holds product) (hDistinct : [product, second, first].Nodup)
    {cell : Address} (hScratch : context.setting.IsScratch cell)
    (hPointer : context.pointer = some cell.toNat) :
    Turns context
      (context.add (RegisterCompiler.productLoop context.listing.size first second product))
      fun start finish => ∃ left right, start.held first = some left ∧
        start.held second = some right ∧ start.held product = some 0 ∧
        finish = (start.forget [first, second, product] [cell.toNat]).hold product
          (left * right) := by
  have hLinked := hSound.store.toLinked
  simp only [List.nodup_cons, List.mem_cons, List.not_mem_nil, or_false, not_or,
    not_false_eq_true, List.nodup_nil, and_true] at hDistinct
  obtain ⟨⟨hProductSecond, hProductFirst⟩, hSecondFirst⟩ := hDistinct
  have hReady := fun lines (hLines : context.listing.size + 8 ≤ lines) =>
    ready_productLoop hSound (hLinked.allocatable_of_holds hFirst)
      (hLinked.allocatable_of_holds hSecond) (hLinked.allocatable_of_holds hProduct) hLines
  refine ⟨.add hSound (hReady _ (Nat.le_refl _)), ?_⟩
  rintro picture _ ⟨left, right, hLeft, hRight, hZero, rfl⟩
  have hHeld : ∀ register ∈ [first, second, product], context.store.Holds register := by
    simp only [List.forall_mem_cons]
    exact ⟨hFirst, hSecond, hProduct, fun _ hNone => absurd hNone List.not_mem_nil⟩
  have hScratches : ∀ place ∈ [cell.toNat], ∃ address : Address, address.toNat = place ∧
      context.setting.IsScratch address :=
    fun place hPlace => ⟨cell, (List.mem_singleton.mp hPlace).symm, hScratch⟩
  refine .addLoop hSound (hReady _ (Nat.le_refl _)) targets_productLoop ?_ ?_
  · -- The loop comes back to its first line, but it leaves alone what is known there.
    intro code steps start snapshot hEnds hRuns hShows
    have hAgree := hEnds.agreeExcept_of_runs targets_productLoop
      (fun hZero => hLinked.ne_zero_of_holds (hHeld 0 hZero) rfl) writesOnly_productLoop
      (Int.le_refl _) hRuns
    rw [hShows.pointer _ hPointer] at hAgree
    exact ⟨_, hShows.agree hLinked hAgree hHeld hScratches⟩
  intro code start hEmbedded hShows
  obtain ⟨steps, after, hRuns, hResult, -, hAgree⟩ := productLoop_runs hEmbedded
    (Ne.symm hSecondFirst) (Ne.symm hProductFirst) (Ne.symm hProductSecond)
    (hLinked.ne_zero_of_holds hFirst) (hLinked.ne_zero_of_holds hSecond)
    (hLinked.ne_zero_of_holds hProduct) start
  refine ⟨steps, after, hRuns, ?_⟩
  rw [hShows.pointer _ hPointer] at hAgree
  refine (hShows.agree hLinked hAgree hHeld hScratches).noteHeld hProduct ?_
  rw [hResult, (hShows.held product 0 hZero).2, (hShows.held first left hLeft).2,
    (hShows.held second right hRight).2, Nat.zero_add]

private theorem Turns.zero (hSound : context.Sound) {register : Int}
    (hHolds : context.store.Holds register) :
    Turns context (context.add [.unary .zero register]) fun start finish =>
      finish = start.hold register 0 := by
  have hTurns := Turns.buildConstant hSound hHolds 0
  rw [show constantCode register 0 = [.unary .zero register] by
    unfold constantCode constantCodeBefore; rfl] at hTurns
  exact hTurns

/-- Two held registers are cleared. -/
theorem Turns.zeroBoth (hSound : context.Sound) {first second : Int}
    (hFirst : context.store.Holds first) (hSecond : context.store.Holds second) :
    Turns context (context.add [.unary .zero first, .unary .zero second]) fun start finish =>
      finish = (start.hold first 0).hold second 0 := by
  have hLinked := hSound.store.toLinked
  refine .add hSound ?_ ?_
  · refine List.forall_mem_cons.mpr ⟨ready_of_allocatable hSound
      (hLinked.allocatable_of_holds hFirst) rfl _, List.forall_mem_cons.mpr
        ⟨ready_of_allocatable hSound (hLinked.allocatable_of_holds hSecond) rfl _, ?_⟩⟩
    exact fun _ hNone => absurd hNone List.not_mem_nil
  · rintro start _ snapshot rfl hShows
    exact ⟨_, rfl, (hShows.setHeld hLinked hFirst 0).setHeld hLinked hSecond 0⟩

/-- Code between taking and returning scratch cells may use them. -/
theorem Turns.borrow (hSound : context.Sound) {store : Store} {start : Address}
    {handles : List Handle} (hSpare : context.setting.Spare start handles)
    (hLent : store.setting = context.setting.claimRun start handles)
    (hRegisters : store.registers = context.store.registers)
    (hSymbols : store.symbols = context.store.symbols)
    (hAdvances : Advances context { context with store := store }) {used after : Context}
    {effect : Picture → Picture → Prop}
    (hUsed : Turns { context with store := store } used effect) (hReturned : Advances used after)
    (hSetting : after.setting = context.setting) (hListing : after.listing = used.listing)
    (hShows : ∀ picture snapshot, used.Shows picture snapshot →
      after.Shows (picture.forget [] (List.range' start.toNat handles.length)) snapshot) :
    Turns context after fun begin finish => ∃ between, effect begin between ∧
      finish = between.forget [] (List.range' start.toNat handles.length) := by
  refine ⟨⟨(hAdvances.trans hUsed.toAdvances).trans hReturned, hSetting⟩, ?_⟩
  rintro begin _ ⟨between, hEffect, rfl⟩
  have hLends : Reaches context { context with store := store } (context.Shows begin)
      (Context.Shows { context with store := store } begin) :=
    .still rfl fun _ hHere => Shows.lend hSound hSpare hLent hRegisters hSymbols hHere
  have hReturns : Reaches used after (used.Shows between) (after.Shows _) :=
    .still hListing (hShows between)
  exact (hLends.trans (hUsed.reaches begin between hEffect) hUsed.grows).trans hReturns
    hReturned.grows

/-- What is in the end known about the result of code that used other registers and scratch
cells, none of which was pictured before. -/
theorem Takes.ofUsed {after : Context} {result : Int}
    {content : Picture → Option Nat} {effect : Picture → Picture → Prop}
    (hHolding : context.Holding []) {cell : Address} {handles : List Handle}
    (hSpare : context.setting.Spare cell handles) (hAfter : after.Holding [result])
    (hTurns : Turns context after effect)
    (hEffect : ∀ start value, content start = some value → ∃ stronger, effect start stronger ∧
      stronger.Alike start ∧ stronger.held result = some value ∧
      ∀ address : Address, address.toNat ∉ List.range' cell.toNat handles.length →
        stronger.scratch address = start.scratch address) :
    Takes context after [] result content := by
  refine ⟨⟨hTurns.toWorks, ?_⟩, hAfter, List.not_mem_nil⟩
  rintro start _ ⟨value, hValue, rfl⟩
  refine .assume ?_
  intro known hKnown
  obtain ⟨stronger, hStronger, ⟨hScalar, hCell, hInput, hOutput⟩, hResult, hScratch⟩ :=
    hEffect start value hValue
  refine (hTurns.reaches start _ hStronger).mono (fun _ hShows => hShows) ?_
  intro snapshot hShows
  refine hShows.restrict ⟨hScalar.symm, hCell.symm, ?_, ?_, hInput.symm, hOutput.symm⟩
  · intro address found hFound
    change start.scratch address = some found at hFound
    rw [← hFound]
    refine hScratch address ?_
    intro hInside
    obtain ⟨hLow, hHigh⟩ := List.mem_range'_1.mp hInside
    rw [scratch_eq_none_of_spare hSpare hLow hHigh hKnown] at hFound
    contradiction
  · intro register found hFound
    by_cases hIs : register = result
    · subst hIs
      rw [Picture.held_hold_self] at hFound
      rw [← hFound]
      exact hResult
    · rw [Picture.held_hold_of_ne _ hIs, hHolding.held_eq_none List.not_mem_nil hKnown] at hFound
      contradiction

private theorem generalProduct_ensures (hSound : context.Sound) (hHolding : context.Holding [])
    {left right : Operand} (hLeft : left.Placed context.setting)
    (hRight : right.Placed context.setting) :
    Ensures (Generating.generalProduct left right) context fun register after =>
      Takes context after [] register (Operand.combine? .mul left right) := by
  refine .bind (take_ensures hSound hHolding (by decide) hLeft) ?_
  intro first one hFirst
  refine .bind (take_ensures hFirst.turns.sound hFirst.holding (by simp)
    (by rw [hFirst.turns.setting]; exact hRight)) ?_
  intro second two hSecond
  refine .bind (acquire_ensures hSecond.turns.sound hSecond.holding (by simp)) ?_
  rintro product three ⟨hThird, hHeld, hNew, -⟩
  have hBase : three.setting = context.setting :=
    hThird.setting.trans (hSecond.turns.setting.trans hFirst.turns.setting)
  refine .bind (takeScratch_ensures hThird.sound (by decide) (by decide)) ?_
  rintro cell _ ⟨store, handles, rfl, hLength, hLent, hSpare, hSetting, hRegisters, hSymbols⟩
  have hHeldLent : Context.Holding { three with store := store } [product, second, first] :=
    hHeld.congr hRegisters
  have hCleared := Turns.zero hLent.sound ((hHeldLent.held product).mp List.mem_cons_self)
  refine ensures_emitAll (.bind (pointTo_ensures hCleared.sound cell.toNat) ?_)
  rintro - aimed ⟨hAimed, hStore, hPointer⟩
  have hHeldAimed : aimed.Holding [product, second, first] :=
    hHeldLent.congr (by rw [hStore]; rfl)
  have hDistinct : [product, second, first].Nodup :=
    List.nodup_cons.mpr ⟨hNew, List.nodup_cons.mpr ⟨hSecond.new, by simp⟩⟩
  have hLoop := Turns.productLoop hAimed.sound ((hHeldAimed.held first).mp (by simp))
    ((hHeldAimed.held second).mp (by simp)) ((hHeldAimed.held product).mp (by simp)) hDistinct
    (isScratch_of_lent hAimed.sound hSpare (hAimed.setting.trans hSetting) (Nat.le_refl _)
      (by omega)) hPointer
  have hPerm : ([first, second] ++ [product]).Perm [product, second, first] :=
    List.reverse_perm [product, second, first]
  have hReversed : aimed.Holding ([first, second] ++ [product]) :=
    hHeldAimed.of_mem_iff fun _ => hPerm.mem_iff
  refine .get (ensures_emitAll (.bind (releaseAll_ensures hLoop.sound (hReversed.congr rfl)
    (hPerm.symm.nodup hDistinct)) ?_))
  rintro - freed ⟨hFreed, hHeldFreed, -⟩
  rw [← hLength]
  refine .bind (returnScratch_ensures hFreed.sound hSpare (hFreed.setting.trans (hLoop.setting.trans
    (hAimed.setting.trans hSetting)))) ?_
  rintro - _ ⟨last, rfl, hReturned, hLast, hLastRegisters, -, hShows⟩
  have hUsed := Turns.borrow hThird.sound hSpare hSetting hRegisters hSymbols hLent
    (((hCleared.before_still hAimed).comp hLoop).comp hFreed) hReturned hLast rfl hShows
  rw [hBase] at hSpare
  refine .pure (Takes.ofUsed hHolding hSpare (hHeldFreed.congr hLastRegisters)
    ((hFirst.turns.comp hSecond.turns).comp (hThird.after_still hUsed)) ?_)
  intro start value hValue
  obtain ⟨one, other, hOne, hOther, rfl⟩ := Operand.combine?_eq_some_iff.mp hValue
  simp only [List.nodup_cons, List.mem_cons, List.not_mem_nil, or_false, not_or,
    not_false_eq_true, List.nodup_nil, and_true] at hDistinct
  obtain ⟨⟨hProductSecond, hProductFirst⟩, hSecondFirst⟩ := hDistinct
  refine ⟨_, ⟨_, ⟨_, ⟨one, hOne, rfl⟩, other, ?_, rfl⟩, _, ⟨_, ⟨_, rfl, one, other, ?_, ?_, ?_,
    rfl⟩, rfl⟩, rfl⟩, by simp, ?_, ?_⟩
  · rw [Operand.value?_hold]
    exact hOther
  · simp [Picture.hold, Ne.symm hProductFirst, Ne.symm hSecondFirst]
  · simp [Picture.hold, Ne.symm hProductSecond]
  · simp [Picture.hold]
  · simp [Picture.forget, Picture.hold, hProductFirst, hProductSecond, Operator.eval]
  · intro address hOutside
    rw [hLength, List.mem_range'_1] at hOutside
    have hOther : address.toNat ≠ cell.toNat := by omega
    simp [Picture.forget, Picture.hold, hLength, hOther]

private theorem product_ensures (hSound : context.Sound) (hHolding : context.Holding [])
    {left right : Operand} (hLeft : left.Placed context.setting)
    (hRight : right.Placed context.setting) :
    Ensures (Generating.product left right) context fun register after =>
      Takes context after [] register (Operand.combine? .mul left right) := by
  -- The factors may be exchanged first, so both orders are proved at once.
  have hEither : ∀ {first second : Operand}, first.Placed context.setting →
      second.Placed context.setting →
      (∀ picture result, Operand.combine? .mul left right picture = some result →
        Operand.combine? .mul first second picture = some result) →
      Ensures (if second.constant? = some 0 then Generating.take (.constant 0)
        else match second.exponent? with
          | some exponent => do
              let register ← Generating.take first
              Generating.repeatUnary .shl register exponent
              return register
          | none => Generating.generalProduct first second) context fun register after =>
          Takes context after [] register (Operand.combine? .mul left right) := by
    intro first second hFirst hSecond hContent
    split
    · rename_i hZero
      refine takeConstant_ensures hSound hHolding (by decide) ?_
      intro picture result hResult
      obtain ⟨one, other, -, hOther, rfl⟩ :=
        Operand.combine?_eq_some_iff.mp (hContent picture result hResult)
      rw [Operand.eq_constant_of_constant? hZero] at hOther
      rw [← Option.some.inj hOther, Operator.eval, Nat.mul_zero]
    · cases hExponent : second.exponent? with
      | none =>
          refine (generalProduct_ensures hSound hHolding hFirst hSecond).mono ?_
          intro register after hTakes
          exact hTakes.imp hContent
      | some exponent =>
          refine .bind (take_ensures hSound hHolding (by decide) hFirst) ?_
          intro register taken hTakes
          have hShifted := Turns.repeatUnary hTakes.turns.sound hTakes.holds rfl
            (· * 2 ^ exponent) (Snapshot.runBlock_replicate_shl register exponent)
          refine ensures_emitAll (.pure (hTakes.apply _ hShifted rfl ?_))
          intro picture result hResult
          obtain ⟨one, other, hOne, hOther, rfl⟩ :=
            Operand.combine?_eq_some_iff.mp (hContent picture result hResult)
          rw [Operand.exponent?_eq_some hExponent] at hOther
          exact ⟨one, hOne, by rw [← Option.some.inj hOther, Operator.eval]⟩
  unfold Generating.product
  by_cases hConstant : left.constant?.isSome = true
  · simp only [if_pos hConstant]
    refine hEither hRight hLeft ?_
    intro picture result hResult
    obtain ⟨one, other, hOne, hOther, rfl⟩ := Operand.combine?_eq_some_iff.mp hResult
    exact Operand.combine?_eq_some_iff.mpr ⟨other, one, hOther, hOne, Nat.mul_comm _ _⟩
  · simp only [if_neg hConstant]
    exact hEither hLeft hRight fun _ _ hResult => hResult

/-! ### Quotients and remainders -/

/-- The code that turns a number into its quotient by itself. -/
theorem Turns.selfQuotient (hSound : context.Sound) {register : Int}
    (hHolds : context.store.Holds register) :
    Turns context (context.add [.branch .jzero register (context.listing.size + 3),
      .unary .zero register, .unary .inc register]) fun start finish =>
        ∃ value, start.held register = some value ∧
          finish = start.hold register (Operator.div.eval value value) := by
  have hLinked := hSound.store.toLinked
  have hRegister := hLinked.allocatable_of_holds hHolds
  have hReady : ∀ instruction ∈ [Instruction.branch .jzero register (context.listing.size + 3),
      .unary .zero register, .unary .inc register],
      instruction.Ready context.options.registers (context.listing.size + 3) := by
    simp only [List.forall_mem_cons]
    exact ⟨ready_branch_of_allocatable hSound hRegister rfl (by omega) (by omega),
      ready_of_allocatable hSound hRegister rfl _, ready_of_allocatable hSound hRegister rfl _,
      fun _ hNone => absurd hNone List.not_mem_nil⟩
  refine ⟨.add hSound hReady, ?_⟩
  rintro picture _ ⟨value, hValue, rfl⟩
  refine .addForward hSound hReady ?_ (fun _ hShows => ⟨picture, hShows⟩) ?_
  · simp only [List.forall_mem_cons, Instruction.branch, Instruction.unary]
    exact ⟨fun _ => by omega, fun hJump => absurd hJump (by decide),
      fun hJump => absurd hJump (by decide), fun _ hNone => absurd hNone List.not_mem_nil⟩
  intro code start hEmbedded hShows
  have hContent := (hShows.held register value hValue).2
  by_cases hZero : value = 0
  · subst hZero
    refine ⟨1, start, .jzero_taken hEmbedded.head hContent, ?_⟩
    rw [show Operator.div.eval 0 0 = 0 from rfl]
    exact hShows.noteHeld hHolds hContent
  · have hPassed : Runs code 1 context.listing.size start (context.listing.size + 1) start :=
      .jzero_passed hEmbedded.head (by rw [hContent]; exact hZero)
    have hBlock : start.runBlock [.unary .zero register, .unary .inc register] =
        some (start.setRegister register 1) := by
      simp [Snapshot.runBlock, Snapshot.effect?, Instruction.unary,
        Snapshot.registers_setRegister_self, Snapshot.setRegister_setRegister]
    have hSet : Runs code 2 (context.listing.size + 1) start (context.listing.size + 3)
        (start.setRegister register 1) :=
      .ofBlockTo hEmbedded.tail hBlock (Int.add_assoc _ _ _)
    refine ⟨_, _, hPassed.trans hSet, ?_⟩
    rw [show Operator.div.eval value value = 1 by
      simp [Operator.eval, Nat.div_self (Nat.pos_of_ne_zero hZero)]]
    exact hShows.setHeld hLinked hHolds 1

private theorem selfQuotient_ensures (hSound : context.Sound) (hHolding : context.Holding [])
    {operand other : Operand} (hPlaced : operand.Placed context.setting)
    (hSame : ∀ picture, operand.value? picture = other.value? picture) (remainder : Bool) :
    Ensures (Generating.selfQuotient operand remainder) context fun register after =>
      Takes context after [] register
        (Operand.combine? (if remainder then .mod else .div) operand other) := by
  have hBoth : ∀ {operator : Operator} {picture : Picture} {result : Nat},
      Operand.combine? operator operand other picture = some result →
      ∃ value, operand.value? picture = some value ∧ operator.eval value value = result := by
    intro operator picture result hResult
    obtain ⟨first, second, hFirst, hSecond, hEqual⟩ := Operand.combine?_eq_some_iff.mp hResult
    rw [← hSame, hFirst] at hSecond
    rw [← Option.some.inj hSecond] at hEqual
    exact ⟨first, hFirst, hEqual⟩
  refine .bind (take_ensures hSound hHolding (by decide) hPlaced) ?_
  intro register taken hTakes
  cases remainder with
  | true =>
      have hCleared := Turns.zero hTakes.turns.sound hTakes.holds
      refine ensures_emitAll (.pure (hTakes.apply (fun _ => 0) (hCleared.imp ?_) rfl ?_))
      · rintro start finish ⟨value, -, hFinish⟩
        exact hFinish
      · intro picture result hResult
        obtain ⟨value, hValue, rfl⟩ := hBoth hResult
        exact ⟨value, hValue, by simp [Operator.eval]⟩
  | false =>
      have hDivided := Turns.selfQuotient hTakes.turns.sound hTakes.holds
      refine .get (ensures_emitAll (.pure (hTakes.apply (fun value => Operator.div.eval value value)
        hDivided rfl ?_)))
      intro picture result hResult
      exact hBoth hResult

private theorem ready_divisionLoop (hSound : context.Sound) {remainder divisor quotient count : Int}
    (hRemainder : context.store.Allocatable remainder)
    (hDivisor : context.store.Allocatable divisor)
    (hQuotient : context.store.Allocatable quotient) (hCount : context.store.Allocatable count)
    {start lines : Nat} (hLines : start + 40 ≤ lines) :
    ∀ instruction ∈ divisionLoop start remainder divisor quotient count,
      instruction.Ready context.options.registers lines := by
  unfold divisionLoop doublingLoop halvingLoop
  simp only [List.forall_mem_append, List.forall_mem_cons]
  and_intros
  all_goals first
    | exact ready_of_allocatable hSound hRemainder rfl _
    | exact ready_of_allocatable hSound hDivisor rfl _
    | exact ready_of_allocatable hSound hQuotient rfl _
    | exact ready_of_allocatable hSound hCount rfl _
    | exact ready_pointer hSound rfl _
    | exact ready_branch_of_allocatable hSound hDivisor rfl (by omega) (by omega)
    | exact ready_branch_of_allocatable hSound hCount rfl (by omega) (by omega)
    | exact Instruction.ready_jump _ (by omega) (by omega)
    | exact fun _ hNone => absurd hNone List.not_mem_nil

theorem targets_divisionLoop {start : Nat} {remainder divisor quotient count : Int} :
    ∀ instruction ∈ divisionLoop start remainder divisor quotient count,
      instruction.opcode.isJump = true → (start : Int) < instruction.target := by
  unfold divisionLoop doublingLoop halvingLoop
  simp only [List.forall_mem_append, List.forall_mem_cons, Instruction.branch, Instruction.jump,
    Instruction.unary]
  and_intros
  all_goals first
    | exact fun hJump => absurd hJump (by decide)
    | exact fun _ => by omega
    | exact fun _ hNone => absurd hNone List.not_mem_nil

/-- The division loop divides two held registers, given two scratch cells. -/
theorem Turns.divisionLoop (hSound : context.Sound) {remainder divisor quotient count : Int}
    (hRemainder : context.store.Holds remainder) (hDivisor : context.store.Holds divisor)
    (hQuotient : context.store.Holds quotient) (hCount : context.store.Holds count)
    (hDistinct : [remainder, divisor, quotient, count].Nodup) {cell next : Address}
    (hScratch : context.setting.IsScratch cell) (hNext : context.setting.IsScratch next)
    (hAdjacent : next.toNat = cell.toNat + 1) (hPointer : context.pointer = some cell.toNat) :
    Turns context (context.add
      (RegisterCompiler.divisionLoop context.listing.size remainder divisor quotient count))
      fun start finish => ∃ left right, start.held remainder = some left ∧
        start.held divisor = some right ∧ start.held quotient = some 0 ∧
        start.held count = some 0 ∧
        finish = ((start.forget [remainder, divisor, quotient, count]
          [cell.toNat, cell.toNat + 1]).hold quotient (Operator.div.eval left right)).hold remainder
            (Operator.mod.eval left right) := by
  have hLinked := hSound.store.toLinked
  have hLength : (RegisterCompiler.divisionLoop context.listing.size remainder divisor quotient
      count).length = 40 := rfl
  have hReady := ready_divisionLoop hSound (hLinked.allocatable_of_holds hRemainder)
      (hLinked.allocatable_of_holds hDivisor) (hLinked.allocatable_of_holds hQuotient)
      (hLinked.allocatable_of_holds hCount) (Nat.le_refl (context.listing.size + 40))
  refine ⟨.add hSound (by rw [hLength]; exact hReady), ?_⟩
  rintro picture _ ⟨left, right, hLeft, hRight, hZero, hNone, rfl⟩
  refine .addForward hSound hReady targets_divisionLoop (fun _ hShows => ⟨picture, hShows⟩) ?_
  intro code start hEmbedded hShows
  rw [hLength]
  have hWithPointer : [0, remainder, divisor, quotient, count].Nodup := by
    refine List.nodup_cons.mpr ⟨?_, hDistinct⟩
    intro hMem
    simp only [List.mem_cons, List.not_mem_nil, or_false] at hMem
    rcases hMem with hSame | hSame | hSame | hSame
    · exact hLinked.ne_zero_of_holds hRemainder hSame.symm
    · exact hLinked.ne_zero_of_holds hDivisor hSame.symm
    · exact hLinked.ne_zero_of_holds hQuotient hSame.symm
    · exact hLinked.ne_zero_of_holds hCount hSame.symm
  obtain ⟨steps, after, hRuns, hDivided, hLeftOver, hAgree⟩ := divisionLoop_runs hEmbedded
    hWithPointer start (hShows.held quotient 0 hZero).2 (hShows.held count 0 hNone).2
  refine ⟨steps, after, hRuns, ?_⟩
  rw [(hShows.held remainder left hLeft).2, (hShows.held divisor right hRight).2]
    at hDivided hLeftOver
  rw [hShows.pointer _ hPointer] at hAgree
  have hAfter := hShows.agree hLinked hAgree ?_ ?_
  · rw [shows_add]
    exact (hAfter.noteHeld hQuotient hDivided).noteHeld hRemainder hLeftOver
  · simp only [List.forall_mem_cons]
    exact ⟨hRemainder, hDivisor, hQuotient, hCount, fun _ hOther => absurd hOther List.not_mem_nil⟩
  · simp only [List.forall_mem_cons]
    exact ⟨⟨cell, rfl, hScratch⟩, ⟨next, hAdjacent, hNext⟩,
      fun _ hOther => absurd hOther List.not_mem_nil⟩

def Quotients (remainder divisor quotient count : Int) (cell : Address) (start finish : Picture) :
    Prop :=
  ∃ left right, start.held remainder = some left ∧ start.held divisor = some right ∧
    finish = (((((start.hold quotient 0).hold count 0).forget [remainder, divisor, quotient, count]
      [cell.toNat, cell.toNat + 1]).hold quotient (Operator.div.eval left right)).hold remainder
        (Operator.mod.eval left right)).forget [] [cell.toNat, cell.toNat + 1]

/-- Divides two held registers with the help of two more and of two scratch cells. -/
theorem ensures_divide (hSound : context.Sound) {remainder divisor quotient count : Int}
    (hHolding : context.Holding [count, quotient, divisor, remainder])
    (hDistinct : [count, quotient, divisor, remainder].Nodup) {next : Generating Int}
    {post : Int → Context → Prop}
    (hNext : ∀ after cell handles, context.setting.Spare cell handles → handles.length = 2 →
      Turns context after (Quotients remainder divisor quotient count cell) →
      after.Holding [count, quotient, divisor, remainder] → Ensures next after post) :
    Ensures (do
      let cells ← Generating.takeScratch 2
      Generating.emitAll [.unary .zero quotient, .unary .zero count]
      Generating.pointTo cells.toNat
      Generating.emitAll
        (divisionLoop (← Generating.nextLine) remainder divisor quotient count)
      Generating.returnScratch cells 2
      next) context post := by
  refine .bind (takeScratch_ensures hSound (by decide) (by decide)) ?_
  rintro cell _ ⟨store, handles, rfl, hLength, hLent, hSpare, hSetting, hRegisters, hSymbols⟩
  have hHeldLent : Context.Holding { context with store := store }
      [count, quotient, divisor, remainder] := hHolding.congr hRegisters
  have hCleared := Turns.zeroBoth hLent.sound ((hHeldLent.held quotient).mp (by simp))
    ((hHeldLent.held count).mp (by simp))
  refine ensures_emitAll (.bind (pointTo_ensures hCleared.sound cell.toNat) ?_)
  rintro - aimed ⟨hAimed, hStore, hPointer⟩
  have hHeldAimed : aimed.Holding [count, quotient, divisor, remainder] :=
    hHeldLent.congr (by rw [hStore]; rfl)
  obtain ⟨handle, other, rfl⟩ := List.length_eq_two.mp hLength
  have hAdjacent := hSpare.next
  have hLentAimed := hAimed.setting.trans hSetting
  have hLoop := Turns.divisionLoop hAimed.sound ((hHeldAimed.held remainder).mp (by simp))
    ((hHeldAimed.held divisor).mp (by simp)) ((hHeldAimed.held quotient).mp (by simp))
    ((hHeldAimed.held count).mp (by simp))
    ((List.reverse_perm [count, quotient, divisor, remainder]).symm.nodup hDistinct)
    (isScratch_of_lent hAimed.sound hSpare hLentAimed (Nat.le_refl _) (by simp))
    (isScratch_of_lent hAimed.sound hSpare hLentAimed (by omega) (by simp [hAdjacent])) hAdjacent
    hPointer
  refine .get (ensures_emitAll (.bind (returnScratch_ensures hLoop.sound hSpare
    (hLoop.setting.trans hLentAimed)) ?_))
  rintro - divided ⟨last, hDivided, hReturned, hLast, hLastRegisters, -, hShows⟩
  have hUsed := Turns.borrow hSound hSpare hSetting hRegisters hSymbols hLent
    ((hCleared.before_still hAimed).comp hLoop) hReturned (by rw [hDivided]; exact hLast)
    (by rw [hDivided]) hShows
  refine hNext divided cell _ hSpare hLength (hUsed.imp ?_)
    (hHeldAimed.congr (by rw [hDivided]; exact hLastRegisters))
  rintro start _ ⟨left, right, hLeft, hRight, rfl⟩
  have hApart : remainder ≠ quotient ∧ remainder ≠ count ∧ divisor ≠ quotient ∧
      divisor ≠ count ∧ quotient ≠ count := by
    simp only [List.nodup_cons, List.mem_cons, List.not_mem_nil, or_false, not_or] at hDistinct
    tauto
  refine ⟨_, ⟨_, rfl, left, right, ?_, ?_, ?_, ?_, rfl⟩, rfl⟩
  · simpa [Picture.hold, hApart] using hLeft
  · simpa [Picture.hold, hApart] using hRight
  · simp [Picture.hold, hApart]
  · simp [Picture.hold]

private theorem generalQuotient_ensures (hSound : context.Sound) (hHolding : context.Holding [])
    {left right : Operand} (hLeft : left.Placed context.setting)
    (hRight : right.Placed context.setting) (remainder : Bool) :
    Ensures (Generating.generalQuotient left right remainder) context fun register after =>
      Takes context after [] register
        (Operand.combine? (if remainder then .mod else .div) left right) := by
  refine .bind (take_ensures hSound hHolding (by decide) hLeft) ?_
  intro rest one hRest
  refine .bind (take_ensures hRest.turns.sound hRest.holding (by simp)
    (by rw [hRest.turns.setting]; exact hRight)) ?_
  intro divisor two hDivisor
  refine .bind (acquire_ensures hDivisor.turns.sound hDivisor.holding (by simp)) ?_
  rintro quotient three ⟨hThird, hHeldThird, hNewThird, -⟩
  refine .bind (acquire_ensures hThird.sound hHeldThird (by simp)) ?_
  rintro count four ⟨hFourth, hHeld, hNew, -⟩
  have hDistinct : [count, quotient, divisor, rest].Nodup := List.nodup_cons.mpr ⟨hNew,
    List.nodup_cons.mpr ⟨hNewThird, List.nodup_cons.mpr ⟨hDivisor.new, by simp⟩⟩⟩
  refine ensures_divide hFourth.sound hHeld hDistinct ?_
  intro divided cell handles hSpare hLength hDivided hHeldDivided
  have hBase : four.setting = context.setting := hFourth.setting.trans
    (hThird.setting.trans (hDivisor.turns.setting.trans hRest.turns.setting))
  rw [hBase] at hSpare
  have hAll := (hRest.turns.comp hDivisor.turns).comp
    (hThird.after_still (hFourth.after_still hDivided))
  have hApart : rest ≠ divisor ∧ rest ≠ quotient := by
    simp only [List.nodup_cons, List.mem_cons, List.not_mem_nil, or_false, not_or] at hDistinct
    tauto
  -- Three of the four registers are released and the fourth has the result.
  have hEnd : ∀ (released : List Int) (result : Int) (operator : Operator),
      (released ++ [result]).Perm [count, quotient, divisor, rest] →
      (result = quotient ∧ operator = .div ∨ result = rest ∧ operator = .mod) →
      Ensures (do Generating.releaseAll released; return result) divided fun register after =>
        Takes context after [] register (Operand.combine? operator left right) := by
    intro released result operator hPerm hResult
    have hNodup := hPerm.symm.nodup hDistinct
    refine .bind (releaseAll_ensures hAll.sound (hHeldDivided.of_mem_iff fun _ => hPerm.mem_iff)
      hNodup) ?_
    rintro - freed ⟨hFreed, hHeldFreed, -⟩
    refine .pure (Takes.ofUsed hHolding hSpare hHeldFreed (hAll.comp hFreed) ?_)
    intro start value hValue
    obtain ⟨first, second, hFirst, hSecond, rfl⟩ := Operand.combine?_eq_some_iff.mp hValue
    refine ⟨_, ⟨_, ⟨_, ⟨_, ⟨first, hFirst, rfl⟩, second, ?_, rfl⟩, first, second, ?_, ?_, rfl⟩, rfl⟩,
      by simp, ?_, ?_⟩
    · rw [Operand.value?_hold]
      exact hSecond
    · simp [Picture.hold, hApart]
    · simp [Picture.hold]
    · have hKept : result ∉ released := fun hMem =>
        (List.nodup_append.mp hNodup).2.2 result hMem result (by simp) rfl
      rcases hResult with ⟨rfl, rfl⟩ | ⟨rfl, rfl⟩
      · simp [Picture.forget, Picture.hold, hKept, Ne.symm hApart.2]
      · simp [Picture.forget, Picture.hold, hKept]
    · intro address hOutside
      rw [hLength, show List.range' cell.toNat 2 = [cell.toNat, cell.toNat + 1] from rfl]
        at hOutside
      simp only [Picture.forget, Picture.hold, if_neg hOutside, List.not_mem_nil, if_false]
  cases remainder with
  | true =>
      have hPerm : ([quotient, divisor, count] ++ [rest]).Perm [count, quotient, divisor, rest] :=
        @List.perm_middle _ count [quotient, divisor] [rest]
      exact hEnd _ rest .mod hPerm (.inr ⟨rfl, rfl⟩)
  | false =>
      have hPerm : ([rest, divisor, count] ++ [quotient]).Perm [count, quotient, divisor, rest] :=
        (@List.perm_append_comm _ [rest, divisor] [count, quotient]).trans
          (((List.Perm.swap divisor rest []).cons quotient).cons count)
      exact hEnd _ quotient .div hPerm (.inl ⟨rfl, rfl⟩)

private theorem quotient_ensures (hSound : context.Sound) (hHolding : context.Holding [])
    {left right : Operand} (hLeft : left.Placed context.setting)
    (hRight : right.Placed context.setting) (remainder : Bool) :
    Ensures (Generating.quotient left right remainder) context fun register after =>
      Takes context after [] register
        (Operand.combine? (if remainder then .mod else .div) left right) := by
  unfold Generating.quotient
  split
  · rename_i exponent hExponent
    cases remainder with
    | true => contradiction
    | false =>
        refine .bind (take_ensures hSound hHolding (by decide) hLeft) ?_
        intro register taken hTakes
        have hShifted := Turns.repeatUnary hTakes.turns.sound hTakes.holds rfl
          (· / 2 ^ exponent) (Snapshot.runBlock_replicate_shr register exponent)
        refine ensures_emitAll (.pure (hTakes.apply _ hShifted rfl ?_))
        intro picture result hResult
        obtain ⟨first, second, hFirst, hSecond, rfl⟩ := Operand.combine?_eq_some_iff.mp hResult
        have hPower : right = .constant (2 ^ exponent) := Operand.exponent?_eq_some hExponent
        rw [hPower] at hSecond
        exact ⟨first, hFirst, by simp [← Option.some.inj hSecond, Operator.eval]⟩
  · split
    · rename_i hSame
      exact selfQuotient_ensures hSound hHolding hLeft
        (Operand.value?_eq_of_same hSound.store.toLinked hLeft hRight hSame) remainder
    · exact generalQuotient_ensures hSound hHolding hLeft hRight remainder

/-! ### Expressions -/

/-- Differences may be computed while up to two registers are held, anything else when none
is. -/
theorem operate_ensures (hSound : context.Sound) {registers : List Int}
    (hHolding : context.Holding registers) (operator : Operator)
    (hFew : registers = [] ∨ operator = .sub ∧ registers.length < 3) {left right : Operand}
    (hLeft : left.Placed context.setting) (hRight : right.Placed context.setting) :
    Ensures (Generating.operate operator left right) context fun register after =>
      Takes context after registers register (Operand.combine? operator left right) := by
  have hSmall : registers.length < 3 := by
    rcases hFew with rfl | ⟨-, hSmall⟩
    · decide
    · exact hSmall
  unfold Generating.operate
  split
  · refine takeConstant_ensures hSound hHolding (by omega) ?_
    intro picture result hResult
    obtain ⟨first, second, hFirst, hSecond, rfl⟩ := Operand.combine?_eq_some_iff.mp hResult
    rw [← Option.some.inj hFirst, ← Option.some.inj hSecond]
  · cases operator with
    | add => exact sum_ensures hSound hHolding hSmall hLeft hRight
    | sub => exact difference_ensures hSound hHolding hSmall hLeft hRight
    | mul =>
        obtain rfl : registers = [] := hFew.resolve_right (by simp)
        exact product_ensures hSound hHolding hLeft hRight
    | div =>
        obtain rfl : registers = [] := hFew.resolve_right (by simp)
        exact quotient_ensures hSound hHolding hLeft hRight false
    | mod =>
        obtain rfl : registers = [] := hFew.resolve_right (by simp)
        exact quotient_ensures hSound hHolding hLeft hRight true

end Context

namespace Calculation

def Placed (setting : Setting) : Calculation → Prop
  | operand value => value.Placed setting
  | operation left _ right => left.Placed setting ∧ right.Placed setting

def value? (picture : Picture) : Calculation → Option Nat
  | operand value => value.value? picture
  | operation left operator right => Operand.combine? operator left right picture

theorem value?_of_constant? {calculation : Calculation} {number : Nat}
    (hConstant : calculation.constant? = some number) (picture : Picture) :
    calculation.value? picture = some number := by
  cases calculation with
  | operand value =>
      rw [Operand.eq_constant_of_constant? hConstant]
      rfl
  | operation left operator right =>
      cases left with
      | constant first =>
          cases right with
          | constant second => exact hConstant
          | _ => contradiction
      | _ => contradiction

end Calculation

namespace Context

variable {context : Context}

theorem resolveExpression_ensures (hSound : context.Sound) {bases : Bases}
    (hBases : context.setting.HasBases bases) (expression : Expression) :
    Ensures (Generating.resolveExpression expression) context fun calculation after =>
      Turns context after Eq ∧ after.store.registers = context.store.registers ∧
        calculation.Placed after.setting ∧
        ∀ picture, context.Knows picture.scalar →
          calculation.value? picture = expression.value? bases picture.valuation := by
  cases expression with
  | atom span value =>
      refine .bind (resolve_ensures hSound hBases value) ?_
      rintro operand after ⟨hFinds, hValue⟩
      exact .pure ⟨hFinds.toTurns, hFinds.registers, hFinds.placed, hValue⟩
  | operation span left operator right =>
      refine .bind (resolve_ensures hSound hBases left) ?_
      rintro first middle ⟨hFirst, hLeft⟩
      refine .bind (resolve_ensures hFirst.sound (by rw [hFirst.setting]; exact hBases) right) ?_
      rintro second after ⟨hSecond, hRight⟩
      refine .pure ⟨hFirst.toTurns.after_still hSecond.toTurns,
        hSecond.registers.trans hFirst.registers, ⟨?_, hSecond.placed⟩, ?_⟩
      · rw [hSecond.setting]
        exact hFirst.placed
      · intro picture hKnows
        rw [Calculation.value?, Operand.combine?, Expression.value?, hLeft picture hKnows,
          hRight picture (hKnows.congr hFirst.toWorks)]

theorem calculate_ensures (hSound : context.Sound) (hHolding : context.Holding [])
    {calculation : Calculation} (hPlaced : calculation.Placed context.setting) :
    Ensures (Generating.calculate calculation) context fun register after =>
      Takes context after [] register calculation.value? := by
  cases calculation with
  | operand value => exact take_ensures hSound hHolding (by decide) hPlaced
  | operation left operator right =>
      exact operate_ensures hSound hHolding operator (.inl rfl) hPlaced.1 hPlaced.2

end Context

end RegisterCompiler
