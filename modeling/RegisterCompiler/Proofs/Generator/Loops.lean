/-
The loops for products and quotients on a machine.

Wherever such a loop stands in the code of a machine, the machine leaves it at its end with
the result in a register.  On the way it writes the registers of the loop and its scratch
cells only.
-/

import Mathlib.Tactic.IntervalCases
import RegisterCompiler.Proofs.Generator.Calculation
import RegisterCompiler.Proofs.Generator.Headway
import RegisterCompiler.Proofs.Machine.Blocks

set_option autoImplicit false

namespace RegisterCompiler

/-! ### Levels of the pointer -/

section Levels

variable {start : Nat}

private theorem confined_productLoop {first second product : Int} (hFirst : first ≠ 0)
    (hSecond : second ≠ 0) (hProduct : product ≠ 0) :
    Confined (fun _ => 0) [0, first, second, product] start
      (productLoop start first second product) where
  levels := by
    intro index instruction hAt
    have hBound : index < 8 := (List.getElem?_eq_some_iff.mp hAt).1
    interval_cases index <;> rw [← Option.some.inj hAt] <;>
      simp [Instruction.KeepsLevel, Instruction.unary, Instruction.branch, Instruction.jump,
        hFirst, hSecond, hProduct]
  uses := by
    simp [productLoop, Instruction.unary, Instruction.branch, Instruction.jump, Opcode.shape,
      Shape.hasRegister]
  forward := Context.targets_productLoop

/-- How far the pointer is above the first scratch cell before a line of the division loop. -/
def divisionLevel (start : Nat) (line : Int) : Nat :=
  if (line - start).toNat ∈ [6, 7, 11, 12, 15, 16, 26, 27, 31, 32, 35, 36, 37] then 1 else 0

private theorem divisionLevel_eq (start : Nat) (line : Int) :
    divisionLevel start line = 0 ∨ divisionLevel start line = 1 := by
  unfold divisionLevel
  split
  · exact .inr rfl
  · exact .inl rfl

private theorem confined_divisionLoop {remainder divisor quotient count : Int}
    (hDistinct : [0, remainder, divisor, quotient, count].Nodup) :
    Confined (divisionLevel start) [0, remainder, divisor, quotient, count] start
      (divisionLoop start remainder divisor quotient count) where
  levels := by
    intro index instruction hAt
    have hBound : index < 40 := (List.getElem?_eq_some_iff.mp hAt).1
    simp only [List.nodup_cons, List.mem_cons, List.not_mem_nil, or_false, not_or] at hDistinct
    rcases hDistinct with ⟨⟨hRemainder, hDivisor, hQuotient, hCount⟩, -⟩
    interval_cases index <;> rw [← Option.some.inj hAt] <;>
      simp [Instruction.KeepsLevel, Instruction.unary, Instruction.branch, Instruction.jump,
        divisionLevel, pointerRegister, add_assoc, Ne.symm hRemainder, Ne.symm hDivisor,
        Ne.symm hQuotient, Ne.symm hCount]
  uses := by
    unfold divisionLoop doublingLoop halvingLoop
    simp only [List.forall_mem_append, List.forall_mem_cons, Instruction.unary,
      Instruction.branch, Instruction.jump, Opcode.shape, Shape.hasRegister]
    simp [pointerRegister]
  forward := fun instruction hMem hJump =>
    Int.le_of_lt (Context.targets_divisionLoop instruction hMem hJump)

end Levels

/-! ### The loops in the listing -/

namespace Generating

private theorem Silent.listing_of_run {α : Type} {action : Generating α} [hSilent : Silent action]
    {context after : Context} {outcome : Except GeneratorFault α}
    (hRun : action.run.run context = (outcome, after)) : after.listing = context.listing :=
  (congrArg (·.2.listing) hRun).symm.trans (hSilent.still context).1

/-- Code for a general product is a loop at the end of the listing. -/
theorem generalProduct_emits {left right : Operand} {context after : Context} {result : Int}
    (hRun : (generalProduct left right).run.run context = (.ok result, after)) :
    ∃ (listing : Listing) (first second : Int),
      after.listing = listing.addAll (productLoop listing.size first second result) := by
  rcases exists_of_run_bind hRun with ⟨first, _, -, hRun⟩
  rcases exists_of_run_bind hRun with ⟨second, _, -, hRun⟩
  rcases exists_of_run_bind hRun with ⟨product, _, -, hRun⟩
  rcases exists_of_run_bind hRun with ⟨cell, _, -, hRun⟩
  rcases exists_of_run_bind hRun with ⟨_, _, -, hRun⟩
  rcases exists_of_run_bind hRun with ⟨_, pointed, -, hRun⟩
  rcases exists_of_run_bind hRun with ⟨line, _, hLine, hRun⟩
  cases hLine
  rcases exists_of_run_bind hRun with ⟨_, _, hEmit, hRest⟩
  cases hEmit
  have hListing := Silent.listing_of_run hRest
  rcases exists_of_run_bind hRest with ⟨_, _, -, hRest⟩
  rcases exists_of_run_bind hRest with ⟨_, _, -, hRest⟩
  cases hRest
  exact ⟨pointed.listing, first, second, hListing⟩

/-- Code for a general quotient is a loop at the end of the listing. -/
theorem generalQuotient_emits {left right : Operand} {remainder : Bool} {context after : Context}
    {result : Int}
    (hRun : (generalQuotient left right remainder).run.run context = (.ok result, after)) :
    ∃ (listing : Listing) (rest divisor quotient count : Int),
      after.listing = listing.addAll (divisionLoop listing.size rest divisor quotient count) ∧
        result = if remainder then rest else quotient := by
  rcases exists_of_run_bind hRun with ⟨rest, _, -, hRun⟩
  rcases exists_of_run_bind hRun with ⟨divisor, _, -, hRun⟩
  rcases exists_of_run_bind hRun with ⟨quotient, _, -, hRun⟩
  rcases exists_of_run_bind hRun with ⟨count, _, -, hRun⟩
  rcases exists_of_run_bind hRun with ⟨cells, _, -, hRun⟩
  rcases exists_of_run_bind hRun with ⟨_, _, -, hRun⟩
  rcases exists_of_run_bind hRun with ⟨_, pointed, -, hRun⟩
  rcases exists_of_run_bind hRun with ⟨line, _, hLine, hRun⟩
  cases hLine
  rcases exists_of_run_bind hRun with ⟨_, _, hEmit, hRest⟩
  cases hEmit
  have hListing := Silent.listing_of_run hRest
  rcases exists_of_run_bind hRest with ⟨_, _, -, hRest⟩
  refine ⟨pointed.listing, rest, divisor, quotient, count, hListing, ?_⟩
  cases remainder with
  | true =>
      rcases exists_of_run_bind hRest with ⟨_, _, -, hRest⟩
      cases hRest
      rfl
  | false =>
      rcases exists_of_run_bind hRest with ⟨_, _, -, hRest⟩
      cases hRest
      rfl

end Generating

/-! ### The loops on a machine -/

namespace Machine

variable {machine : Machine} {start : Nat}

private theorem productLoop_traverses {first second product : Int} {left right place : Nat}
    (hLoaded : Embedded machine.code.toList start (productLoop start first second product))
    (hDistinct : [0, first, second, product].Nodup) (hActive : machine.cancelled = false)
    (hFirst : machine.register? first = some left)
    (hSecond : machine.register? second = some right)
    (hProduct : machine.register? product = some 0)
    (hPointer : machine.register? 0 = some place) :
    ∃ steps after,
      machine.Traverses [first, second, product] [place] start steps after (start + 8) ∧
      after.register? product = some (left * right) ∧ after.register? second = some 0 := by
  simp only [List.nodup_cons, List.mem_cons, List.not_mem_nil, or_false, not_or] at hDistinct
  rcases hDistinct with ⟨⟨hNotFirst, hNotSecond, hNotProduct⟩, ⟨hFirstSecond, hFirstProduct⟩,
    hSecondProduct, -⟩
  have hHosts : machine.Hosts (fun _ => 0) [first, second, product] start
      (productLoop start first second product) place :=
    { confined := confined_productLoop (Ne.symm hNotFirst) (Ne.symm hNotSecond)
        (Ne.symm hNotProduct)
      loaded := hLoaded
      registers := by simp [hFirst, hSecond, hProduct]
      pointer := hPointer
      entry := rfl
      active := hActive }
  rcases productLoop_runs (endsWith_replicate start _).embedded hFirstSecond hFirstProduct
    hSecondProduct (Ne.symm hNotFirst) (Ne.symm hNotSecond) (Ne.symm hNotProduct)
    machine.snapshot with ⟨steps, final, hRuns, hResult, hEmpty, -⟩
  rcases hHosts.traverses (fun _ => List.mem_cons_self) rfl hRuns with
    ⟨after, hTraverses, hRead⟩
  refine ⟨steps, after, hTraverses, ?_, ?_⟩
  · rw [hRead product (by simp), hResult, registers_snapshot hProduct,
      registers_snapshot hFirst, registers_snapshot hSecond, Nat.zero_add]
  · rw [hRead second (by simp), hEmpty]

private theorem divisionLoop_traverses {remainder divisor quotient count : Int}
    {dividend number place : Nat}
    (hLoaded : Embedded machine.code.toList start
      (divisionLoop start remainder divisor quotient count))
    (hDistinct : [0, remainder, divisor, quotient, count].Nodup)
    (hActive : machine.cancelled = false)
    (hRemainder : machine.register? remainder = some dividend)
    (hDivisor : machine.register? divisor = some number)
    (hQuotient : machine.register? quotient = some 0) (hCount : machine.register? count = some 0)
    (hPointer : machine.register? 0 = some place) :
    ∃ steps after,
      machine.Traverses [remainder, divisor, quotient, count] [place, place + 1] start steps after
        (start + 40) ∧
      after.register? quotient = some (Operator.div.eval dividend number) ∧
      after.register? remainder = some (Operator.mod.eval dividend number) := by
  have hHosts : machine.Hosts (divisionLevel start) [remainder, divisor, quotient, count] start
      (divisionLoop start remainder divisor quotient count) place :=
    { confined := confined_divisionLoop hDistinct
      loaded := hLoaded
      registers := by simp [hRemainder, hDivisor, hQuotient, hCount]
      pointer := hPointer
      entry := by simp [divisionLevel]
      active := hActive }
  have hWindow : ∀ line, place + divisionLevel start line ∈ [place, place + 1] := by
    intro line
    rcases divisionLevel_eq start line with hLow | hHigh
    · simp [hLow]
    · simp [hHigh]
  rcases divisionLoop_runs (endsWith_replicate start _).embedded hDistinct machine.snapshot
    (registers_snapshot hQuotient) (registers_snapshot hCount) with
    ⟨steps, final, hRuns, hDivided, hRest, -⟩
  rw [registers_snapshot hRemainder, registers_snapshot hDivisor] at hDivided hRest
  rcases hHosts.traverses hWindow (by simp [divisionLevel]) hRuns with ⟨after, hTraverses, hRead⟩
  refine ⟨steps, after, hTraverses, ?_, ?_⟩
  · rw [hRead quotient (by simp), hDivided]
  · rw [hRead remainder (by simp), hRest]

end Machine

/-! ### General products and quotients -/

/-- The code for a general product ends with the product loop.  Wherever that loop stands, a
machine leaves it with the product of the two registers it began with, and has changed the
registers of the loop and the scratch cell at most. -/
theorem generalProduct_multiplies :
    (∀ (left right : Operand) (context after : Context) (result : Int),
      (Generating.generalProduct left right).run.run context = (.ok result, after) →
        ∃ (listing : Listing) (first second : Int),
          after.listing = listing.addAll (productLoop listing.size first second result)) ∧
    ∀ (machine : Machine) (start : Nat) (first second product : Int) (left right place : Nat),
      Embedded machine.code.toList start (productLoop start first second product) →
      [0, first, second, product].Nodup → machine.cancelled = false →
      machine.register? first = some left → machine.register? second = some right →
      machine.register? product = some 0 → machine.register? 0 = some place →
        ∃ steps after,
          machine.Traverses [first, second, product] [place] start steps after (start + 8) ∧
          after.register? product = some (left * right) ∧ after.register? second = some 0 := by
  constructor
  · intro left right context after result hRun
    exact Generating.generalProduct_emits hRun
  · intro machine start first second product left right place hLoaded hDistinct hActive hFirst
      hSecond hProduct hPointer
    exact Machine.productLoop_traverses hLoaded hDistinct hActive hFirst hSecond hProduct hPointer

theorem generalProduct_multiplies_sixes :
    (∃ listing first second,
      ((Generating.generalProduct (.constant 6) (.constant 7)).run.run
        (.empty .standard)).2.listing =
          Listing.addAll listing (productLoop listing.size first second 3)) ∧
    ∃ steps after, Machine.Traverses [1, 2, 3] [5]
      (.holding (productLoop 0 1 2 3) #[5, 6, 7, 0]) 0 steps after 8 ∧
        after.register? 3 = some 42 ∧ after.register? 2 = some 0 := by
  have hLoaded := Machine.embedded_holding (productLoop 0 1 2 3) #[5, 6, 7, 0]
  have hEmitted : ((Generating.generalProduct (.constant 6) (.constant 7)).run.run
      (.empty .standard)).1 = .ok 3 := by decide +kernel
  constructor
  · apply generalProduct_multiplies.1 (.constant 6) (.constant 7) (.empty .standard)
    rw [← hEmitted, Prod.mk.eta]
  · exact generalProduct_multiplies.2 _ 0 1 2 3 6 7 5 hLoaded (by decide) rfl rfl rfl rfl rfl

/-- The code for a general quotient ends with the division loop.  Wherever that loop stands, a
machine leaves it with the quotient and the remainder of the two registers it began with, both
zero for a divisor that is zero, and has changed the registers of the loop and the two scratch
cells at most. -/
theorem generalQuotient_divides :
    (∀ (left right : Operand) (remainder : Bool) (context after : Context) (result : Int),
      (Generating.generalQuotient left right remainder).run.run context = (.ok result, after) →
        ∃ (listing : Listing) (rest divisor quotient count : Int),
          after.listing = listing.addAll (divisionLoop listing.size rest divisor quotient count) ∧
            result = if remainder then rest else quotient) ∧
    ∀ (machine : Machine) (start : Nat) (rest divisor quotient count : Int)
      (dividend number place : Nat),
      Embedded machine.code.toList start (divisionLoop start rest divisor quotient count) →
      [0, rest, divisor, quotient, count].Nodup → machine.cancelled = false →
      machine.register? rest = some dividend → machine.register? divisor = some number →
      machine.register? quotient = some 0 → machine.register? count = some 0 →
      machine.register? 0 = some place →
        ∃ steps after,
          machine.Traverses [rest, divisor, quotient, count] [place, place + 1] start steps after
            (start + 40) ∧
          (0 < number → after.register? quotient = some (dividend / number) ∧
            after.register? rest = some (dividend % number)) ∧
          (number = 0 → after.register? quotient = some 0 ∧ after.register? rest = some 0) := by
  constructor
  · intro left right remainder context after result hRun
    exact Generating.generalQuotient_emits hRun
  · intro machine start rest divisor quotient count dividend number place hLoaded hDistinct hActive
      hRest hDivisor hQuotient hCount hPointer
    rcases Machine.divisionLoop_traverses hLoaded hDistinct hActive hRest hDivisor hQuotient
      hCount hPointer with ⟨steps, after, hTraverses, hDivided, hLeft⟩
    refine ⟨steps, after, hTraverses, ?_, ?_⟩
    · intro hPositive
      rw [hDivided, hLeft]
      simp [Operator.eval, hPositive.ne']
    · intro hZero
      rw [hDivided, hLeft]
      simp [Operator.eval, hZero]

theorem generalQuotient_divides_seventeen :
    (∃ listing rest divisor quotient count,
      ((Generating.generalQuotient (.constant 17) (.constant 5) true).run.run
        (.empty .standard)).2.listing =
          Listing.addAll listing (divisionLoop listing.size rest divisor quotient count) ∧
        (1 : Int) = if true then rest else quotient) ∧
    ∃ steps after, Machine.Traverses [1, 2, 3, 4] [7, 8]
      (.holding (divisionLoop 0 1 2 3 4) #[7, 17, 5, 0, 0]) 0 steps after 40 ∧
        after.register? 3 = some 3 ∧ after.register? 1 = some 2 := by
  have hLoaded := Machine.embedded_holding (divisionLoop 0 1 2 3 4) #[7, 17, 5, 0, 0]
  have hEmitted : ((Generating.generalQuotient (.constant 17) (.constant 5) true).run.run
      (.empty .standard)).1 = .ok 1 := by decide +kernel
  constructor
  · apply generalQuotient_divides.1 (.constant 17) (.constant 5) true (.empty .standard)
    rw [← hEmitted, Prod.mk.eta]
  · rcases generalQuotient_divides.2 _ 0 1 2 3 4 17 5 7 hLoaded (by decide) rfl rfl rfl rfl rfl rfl
      with ⟨steps, after, hTraverses, hDivided, -⟩
    exact ⟨steps, after, hTraverses, hDivided (by decide)⟩

end RegisterCompiler
