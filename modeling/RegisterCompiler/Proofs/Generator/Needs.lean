/-
How many loop cells commands need.

What an operation or a comparison needs can be seen from its operands: from the numbers among
them and from which of them are the same.
-/

import RegisterCompiler.Proofs.Generator.Frugality

set_option autoImplicit false

namespace RegisterCompiler

/-! ### Calculations -/

/-- What an operand looks like to code generation, whatever handles and cells its names have. -/
inductive Sight where
  | number (value : Nat)
  | scalar (name : String)
  | element (address : Nat)
  | dynamic (base : Nat) (index : String)
deriving Repr, DecidableEq

namespace Sight

def isLarge : Sight → Bool
  | number value => mostSteps < value
  | _ => false

def isPower : Sight → Bool
  | number value => value = Nat.pow 2 value.log2
  | _ => false

def isNumber : Sight → Bool
  | number _ => true
  | _ => false

end Sight

def Operand.sight : Operand → Sight
  | .constant value => .number value
  | .scalar cell => .scalar cell.name
  | .element address => .element address
  | .dynamic base index => .dynamic base index.name

/-- Operands that are the same where they look the same. -/
def Operand.Clear (left right : Operand) : Prop :=
  left.same right = decide (left.sight = right.sight)

def Operator.cells (operator : Operator) (left right : Sight) : Nat :=
  if left.isNumber && right.isNumber then 0
  else
    match operator with
    | .add => 0
    | .sub => if left = right then 0 else if right.isLarge then 1 else 0
    | .mul =>
        let second := if left.isNumber then left else right
        if second = .number 0 || second.isPower then 0 else 1
    | .div => if right.isPower || left = right then 0 else 2
    | .mod => if left = right then 0 else 2

namespace Generating

variable {context : Context}

def borrowed (operand : Operand) : Nat :=
  if operand.sight.isLarge then 1 else 0

private theorem useCell_costs (hBalanced : context.Balanced) {operand : Operand}
    (hSteps : operand.steps? = none) (instruction : Instruction) :
    Costs (do
      let cell ← aimAt operand
      emit instruction
      freeBorrowed cell) (borrowed operand) context := by
  cases operand with
  | constant value =>
      have hLarge : borrowed (.constant value) = 1 := by
        have hBeyond : ¬value ≤ mostSteps := by
          intro hSmall
          simp [Operand.steps?, Operand.constant?, Option.filter, hSmall] at hSteps
        simp only [borrowed, Operand.sight, Sight.isLarge, decide_eq_true (Nat.lt_of_not_le hBeyond),
          if_true]
      rw [hLarge]
      simp only [aimAt, bind_assoc, pure_bind, freeBorrowed]
      apply Costs.after_frugal hBalanced
      intro register one hOne
      apply Costs.after_frugal hOne
      intro _ two hTwo
      apply Costs.bracket (by decide) hTwo
      intro cell three hFits hThree
      apply Returns.after_frugal hThree
      intro _ four hFour
      apply Returns.after_frugal hFour
      intro _ five hFive
      apply Returns.after_frugal hFive
      intro _ six hSix
      apply Returns.after_frugal hSix
      intro _ seven _
      exact returnScratch_returns hFits seven
  | scalar cell =>
      simp only [aimAt, bind_assoc, pure_bind, freeBorrowed]
      exact .of_frugal hBalanced
  | element address =>
      simp only [aimAt, bind_assoc, pure_bind, freeBorrowed]
      exact .of_frugal hBalanced
  | dynamic base index =>
      simp only [aimAt, bind_assoc, pure_bind, freeBorrowed]
      exact .of_frugal hBalanced

private theorem borrowed_of_steps? {operand : Operand} {count : Nat}
    (hSteps : operand.steps? = some count) : borrowed operand = 0 := by
  cases operand with
  | constant value =>
      have hSmall : value ≤ mostSteps := by
        apply Classical.byContradiction
        intro hBeyond
        simp [Operand.steps?, Operand.constant?, Option.filter, hBeyond] at hSteps
      simp [borrowed, Operand.sight, Sight.isLarge, Nat.not_lt.mpr hSmall]
  | scalar cell => rfl
  | element address => rfl
  | dynamic base index => rfl

private theorem increaseBy_costs (hBalanced : context.Balanced) (register : Int)
    (operand : Operand) :
    Costs (increaseBy register operand) (borrowed operand) context := by
  unfold increaseBy
  cases hSteps : operand.steps? with
  | some count =>
      rw [borrowed_of_steps? hSteps]
      exact .of_frugal hBalanced
  | none => exact useCell_costs hBalanced hSteps _

private theorem decreaseBy_costs (hBalanced : context.Balanced) (register : Int)
    (operand : Operand) :
    Costs (decreaseBy register operand) (borrowed operand) context := by
  unfold decreaseBy
  cases hSteps : operand.steps? with
  | some count =>
      rw [borrowed_of_steps? hSteps]
      exact .of_frugal hBalanced
  | none => exact useCell_costs hBalanced hSteps _

private theorem addTo_costs (hBalanced : context.Balanced) (first second : Operand) :
    Costs (addTo first second) (borrowed second) context := by
  unfold addTo
  apply Costs.after_frugal hBalanced
  intro register middle hMiddle
  exact (increaseBy_costs hMiddle register second).before_frugal hMiddle

private theorem borrowed_of_constant? {operand : Operand} (hVariable : operand.constant? = none) :
    borrowed operand = 0 := by
  cases operand with
  | constant value => cases hVariable
  | scalar cell => rfl
  | element address => rfl
  | dynamic base index => rfl

private theorem isNumber_sight (operand : Operand) :
    operand.sight.isNumber = operand.constant?.isSome := by
  cases operand <;> rfl

private theorem sum_costs (hBalanced : context.Balanced) {left right : Operand}
    (hVariable : (left.constant?.isSome && right.constant?.isSome) = false) :
    Costs (sum left right) 0 context := by
  obtain ⟨first, second, hOrder, hFirst⟩ : ∃ first second,
      (if left.constant?.isSome = true then (right, left) else (left, right)) = (first, second) ∧
        first.constant? = none := by
    cases hLeft : left.constant? with
    | none => exact ⟨left, right, rfl, hLeft⟩
    | some value =>
        rw [hLeft] at hVariable
        refine ⟨right, left, rfl, ?_⟩
        simpa using hVariable
  unfold sum
  rw [hOrder]
  simp only
  split
  · exact .of_frugal hBalanced
  split
  · rw [← borrowed_of_constant? hFirst]
    exact addTo_costs hBalanced second first
  · rename_i hSmall
    have hNone : borrowed second = 0 := by
      cases hSteps : second.steps? with
      | some count => exact borrowed_of_steps? hSteps
      | none =>
          apply borrowed_of_constant?
          rw [hSteps, Option.isNone_none, Bool.and_true, Bool.not_eq_true] at hSmall
          simpa using hSmall
    rw [← hNone]
    exact addTo_costs hBalanced first second

private theorem difference_costs (hBalanced : context.Balanced) {left right : Operand}
    (hClear : left.Clear right) :
    Costs (difference left right) (if left.sight = right.sight then 0 else borrowed right)
      context := by
  unfold difference
  rw [hClear]
  by_cases hSame : left.sight = right.sight
  · simp only [hSame, decide_true, if_true]
    exact .of_frugal hBalanced
  · simp only [hSame, decide_false, Bool.false_eq_true, if_false]
    apply Costs.after_frugal hBalanced
    intro register middle hMiddle
    exact (decreaseBy_costs hMiddle register right).before_frugal hMiddle

private theorem generalProduct_costs (hBalanced : context.Balanced) (left right : Operand) :
    Costs (generalProduct left right) 1 context := by
  unfold generalProduct
  apply Costs.after_frugal hBalanced
  intro first one hOne
  apply Costs.after_frugal hOne
  intro second two hTwo
  apply Costs.after_frugal hTwo
  intro product three hThree
  apply Costs.bracket (by decide) hThree
  intro cell four hFits hFour
  apply Returns.after_frugal hFour
  intro _ five hFive
  apply Returns.after_frugal hFive
  intro _ six hSix
  apply Returns.after_frugal hSix
  intro line seven hSeven
  apply Returns.after_frugal hSeven
  intro _ eight hEight
  apply Returns.after_frugal hEight
  intro _ nine hNine
  exact (returnScratch_returns hFits nine).before_frugal hNine

private theorem generalQuotient_costs (hBalanced : context.Balanced) (left right : Operand)
    (remainder : Bool) : Costs (generalQuotient left right remainder) 2 context := by
  unfold generalQuotient
  apply Costs.after_frugal hBalanced
  intro rest one hOne
  apply Costs.after_frugal hOne
  intro divisor two hTwo
  apply Costs.after_frugal hTwo
  intro quotient three hThree
  apply Costs.after_frugal hThree
  intro number four hFour
  apply Costs.bracket (by decide) hFour
  intro cells five hFits hFive
  apply Returns.after_frugal hFive
  intro _ six hSix
  apply Returns.after_frugal hSix
  intro _ seven hSeven
  apply Returns.after_frugal hSeven
  intro line eight hEight
  apply Returns.after_frugal hEight
  intro _ nine hNine
  exact (returnScratch_returns hFits nine).before_frugal hNine

private theorem isPower_sight (operand : Operand) :
    operand.sight.isPower = operand.exponent?.isSome := by
  cases operand with
  | constant value =>
      simp only [Operand.sight, Sight.isPower, Operand.exponent?, Operand.constant?,
        Option.isSome_map, Option.isSome_filter]
      rfl
  | scalar cell => rfl
  | element address => rfl
  | dynamic base index => rfl

theorem sight_eq_number_iff (operand : Operand) (value : Nat) :
    operand.sight = .number value ↔ operand.constant? = some value := by
  cases operand <;> simp [Operand.sight, Operand.constant?]

private theorem product_costs (hBalanced : context.Balanced) (left right : Operand) :
    Costs (product left right)
      (let second := if left.sight.isNumber then left.sight else right.sight
       if second = .number 0 || second.isPower then 0 else 1) context := by
  obtain ⟨first, second, hOrder, hSecond⟩ : ∃ first second,
      (if left.constant?.isSome = true then (right, left) else (left, right)) = (first, second) ∧
        (if left.sight.isNumber then left.sight else right.sight) = second.sight := by
    rw [isNumber_sight]
    cases left.constant? with
    | none => exact ⟨left, right, rfl, rfl⟩
    | some value => exact ⟨right, left, rfl, rfl⟩
  unfold product
  rw [hOrder, hSecond]
  simp only [isPower_sight, sight_eq_number_iff]
  by_cases hZero : second.constant? = some 0
  · simp only [hZero, if_true, decide_true, Bool.true_or]
    exact .of_frugal hBalanced
  · simp only [hZero, if_false, decide_false, Bool.false_or]
    cases hPower : second.exponent? with
    | some exponent => exact .of_frugal hBalanced
    | none => exact generalProduct_costs hBalanced first second

private theorem quotient_costs (hBalanced : context.Balanced) {left right : Operand}
    (hClear : left.Clear right) (remainder : Bool) :
    Costs (quotient left right remainder)
      (if (!remainder && right.sight.isPower) || left.sight = right.sight then 0 else 2)
      context := by
  have hGeneral : Costs (if left.same right = true then selfQuotient left remainder
      else generalQuotient left right remainder)
      (if left.sight = right.sight then 0 else 2) context := by
    rw [hClear]
    by_cases hSame : left.sight = right.sight
    · simp only [hSame, decide_true, if_true]
      exact .of_frugal hBalanced
    · simp only [hSame, decide_false, Bool.false_eq_true, if_false]
      exact generalQuotient_costs hBalanced left right remainder
  unfold quotient
  rw [isPower_sight]
  cases remainder with
  | true => simpa using hGeneral
  | false =>
      cases hPower : right.exponent? with
      | some exponent =>
          simp only [Bool.false_eq_true, if_false, Option.isSome_some, Bool.not_false,
            Bool.true_and, Bool.true_or, if_true]
          exact .of_frugal hBalanced
      | none => simpa [hPower] using hGeneral

theorem operate_costs (hBalanced : context.Balanced) {left right : Operand}
    (hClear : left.Clear right) (operator : Operator) :
    Costs (operate operator left right) (operator.cells left.sight right.sight) context := by
  unfold operate
  split
  · exact .of_frugal hBalanced
  · rename_i hOther
    have hVariable : (left.sight.isNumber && right.sight.isNumber) = false := by
      cases left with
      | constant first =>
          cases right with
          | constant second => exact absurd rfl (hOther first second rfl)
          | _ => rfl
      | _ => rfl
    unfold Operator.cells
    rw [hVariable]
    cases operator with
    | add =>
        rw [isNumber_sight, isNumber_sight] at hVariable
        exact sum_costs hBalanced hVariable
    | sub => exact difference_costs hBalanced hClear
    | mul => exact product_costs hBalanced left right
    | div => simpa using quotient_costs hBalanced hClear false
    | mod => simpa using quotient_costs hBalanced hClear true

end Generating

/-! ### Conditions -/

theorem Operator.cells_sub_le (left right : Sight) : Operator.sub.cells left right ≤ 1 := by
  unfold Operator.cells
  simp only
  split
  · exact Nat.zero_le 1
  split
  · exact Nat.zero_le 1
  split
  · exact Nat.le_refl 1
  · exact Nat.zero_le 1

def Relation.cells (relation : Relation) (left right : Sight) : Nat :=
  if left.isNumber && right.isNumber then 0
  else
    match relation with
    | .equal | .notEqual => if right = .number 0 || left = .number 0 then 0 else 1
    | .greater | .lessEqual => Operator.sub.cells left right
    | .less | .greaterEqual => Operator.sub.cells right left

theorem Relation.cells_le (relation : Relation) (left right : Sight) :
    relation.cells left right ≤ 1 := by
  have hZero : (if right = .number 0 || left = .number 0 then 0 else 1) ≤ 1 := by
    split
    · exact Nat.zero_le 1
    · exact Nat.le_refl 1
  unfold Relation.cells
  split
  · exact Nat.zero_le 1
  · cases relation with
    | equal => exact hZero
    | notEqual => exact hZero
    | less => exact Operator.cells_sub_le right left
    | greater => exact Operator.cells_sub_le left right
    | lessEqual => exact Operator.cells_sub_le left right
    | greaterEqual => exact Operator.cells_sub_le right left

namespace Generating

variable {context : Context} {left right : Operand}

private theorem distance_costs (hBalanced : context.Balanced) (hClear : left.Clear right)
    (hBack : right.Clear left) :
    Costs (distance left right)
      (if right.sight = .number 0 || left.sight = .number 0 then 0 else 1) context := by
  unfold distance
  simp only [sight_eq_number_iff]
  by_cases hRight : right.constant? = some 0
  · simp only [hRight, if_true, decide_true, Bool.true_or]
    exact .of_frugal hBalanced
  by_cases hLeft : left.constant? = some 0
  · simp only [hRight, hLeft, if_true, if_false, decide_true, decide_false, Bool.or_true]
    exact .of_frugal hBalanced
  simp only [hRight, hLeft, if_false, decide_false, Bool.or_false, Bool.false_eq_true]
  have hFirst := Operator.cells_sub_le left.sight right.sight
  have hSecond := Operator.cells_sub_le right.sight left.sight
  have hMost : max (Operator.sub.cells left.sight right.sight)
      (max (Operator.sub.cells right.sight left.sight) 1) = 1 := by omega
  refine Eq.subst hMost (motive := fun count => Costs _ count context) ?_
  apply (operate_costs hBalanced hClear .sub).bind
  intro first one hOne
  have hOne := Orderly.balanced context first one hOne hBalanced
  apply (operate_costs hOne hBack .sub).bind
  intro second two hTwo
  have hTwo := Orderly.balanced one second two hTwo hOne
  apply Costs.bracket (by decide) hTwo
  intro cell three hFits hThree
  apply Returns.after_frugal hThree
  intro _ four hFour
  apply Returns.after_frugal hFour
  intro _ five hFive
  apply Returns.after_frugal hFive
  intro _ six hSix
  exact (returnScratch_returns hFits six).before_frugal hSix

private theorem compareOperands_costs (hBalanced : context.Balanced) (hClear : left.Clear right)
    (hBack : right.Clear left) (hVariable : (left.sight.isNumber && right.sight.isNumber) = false)
    (relation : Relation) :
    Costs (compareOperands relation left right) (relation.cells left.sight right.sight)
      context := by
  have hDistance := distance_costs hBalanced hClear hBack
  have hThere := operate_costs hBalanced hClear .sub
  have hAgain := operate_costs hBalanced hBack .sub
  unfold Relation.cells
  rw [hVariable]
  cases relation with
  | equal => exact hDistance.before_frugal hBalanced
  | notEqual => exact hDistance.before_frugal hBalanced
  | less => exact hAgain.before_frugal hBalanced
  | greater => exact hThere.before_frugal hBalanced
  | lessEqual => exact hThere.before_frugal hBalanced
  | greaterEqual => exact hAgain.before_frugal hBalanced

/-- A test costs what its operands say. -/
theorem test_costs (hBalanced : context.Balanced) (hClear : left.Clear right)
    (hBack : right.Clear left) (relation : Relation) :
    Costs (match left, right with
      | .constant first, .constant second => decided (relation.holds first second)
      | _, _ => tested relation left right) (relation.cells left.sight right.sight) context := by
  split
  · exact .of_frugal hBalanced
  · rename_i hOther
    have hVariable : (left.sight.isNumber && right.sight.isNumber) = false := by
      cases left with
      | constant first =>
          cases right with
          | constant second => exact absurd rfl (hOther first second rfl)
          | _ => rfl
      | _ => rfl
    unfold tested
    refine @Costs.before_frugal _ _ _ _ _ _ _ (fun result => ?_) hBalanced
      (compareOperands_costs hBalanced hClear hBack hVariable relation)
    obtain ⟨register, zeroHolds⟩ := result
    simp only
    refine .andThen fun _ => ?_
    split
    · infer_instance
    · infer_instance

end Generating

/-! ### Counting loops -/

open StoreAction (InRun)

/-- Another setting in which the lowest free loop cell has an owner too. -/
structure Setting.Occupies (before after : Setting) (cell : Address) : Prop where
  lowest : before.LowestRun 1 cell
  layout : after.layout = before.layout
  owners : ∀ address, (after.owner address).isSome =
    ((before.owner address).isSome || decide (InRun cell.toNat 1 address))

theorem Setting.Occupies.congr {before after other last : Setting} {cell place : Address}
    (hFirst : before.Occupies after cell) (hSecond : other.Occupies last place)
    (hSame : before.SameCells other) : cell = place ∧ after.SameCells last := by
  obtain rfl := (hFirst.lowest.congr hSame).unique hSecond.lowest
  refine ⟨rfl, ?_, ?_⟩
  · rw [hSecond.layout, hFirst.layout, hSame.layout]
  · intro address
    rw [hSecond.owners, hFirst.owners, hSame.owners]

namespace Generating

variable {context after : Context}

private theorem countRounds_costs (hBalanced : context.Balanced) (first last : Operand)
    (direction : Direction) : ∃ count ≤ 1,
      Costs (countRounds first last direction) count context := by
  have hLow : ∀ low high : Operand, Costs (do
      let register ← take high
      emit (.unary .inc register)
      decreaseBy register low
      return register) (borrowed low) context := by
    intro low high
    apply Costs.after_frugal hBalanced
    intro register one hOne
    apply Costs.after_frugal hOne
    intro _ two hTwo
    exact (decreaseBy_costs hTwo register low).before_frugal hTwo
  have hFew : ∀ operand, borrowed operand ≤ 1 := by
    intro operand
    unfold borrowed
    split
    · exact Nat.le_refl 1
    · exact Nat.zero_le 1
  cases direction with
  | down => exact ⟨_, hFew last, hLow last first⟩
  | up => exact ⟨_, hFew first, hLow first last⟩

private theorem placeIterator_takes {handle : Handle} {cell : Address}
    (hRun : (placeIterator handle).run.run context = (.ok cell, after)) :
    context.setting.Occupies after.setting cell := by
  have hTake := of_tryCatch (fun fault => .right fun _ => .throw fault) hRun
  obtain ⟨hGives, -⟩ := of_onStore hTake
  have hGives : (StoreAction.allocateRun .loop [handle]).Gives context.store cell after.store :=
    hGives.of_get_bind
  have hShort : [handle].length < UInt64.size := by
    rw [List.length_singleton]
    decide
  obtain ⟨hLowest, hLayout, hOwners⟩ := StoreAction.allocateRun_owners hShort hGives
  exact ⟨hLowest, hLayout, hOwners⟩

private theorem not_vacant_of_placeIterator {handle : Handle} {fault : GeneratorFault}
    (hRun : (placeIterator handle).run.run context = (.error fault, after))
    (hFault : fault.isExhaustion = true) : ¬context.setting.Vacant 1 := by
  obtain ⟨cause, middle, hTake, hBack⟩ := error_of_tryCatch hRun
  have hCause : cause.isExhaustion = true := by
    rcases error_of_run_bind hBack with hFree | ⟨_, _, -, hThrow⟩
    · rw [Aloof.sober middle fault after hFree] at hFault
      cases hFault
    · cases hThrow
      exact hFault
  rw [Ensures.run_onStore] at hTake
  cases hResult : (StoreAction.allocateRun .loop [handle]).run.run context.store with
  | mk outcome store =>
      rw [StoreAction.run_allocate_loop, hResult] at hTake
      cases outcome with
      | ok cell => cases hTake
      | error found =>
          cases hTake
          have hShort : [handle].length < UInt64.size := by
            rw [List.length_singleton]
            decide
          exact StoreAction.not_vacant_of_allocateRun hShort hResult hCause

/-- A loop takes the two lowest cells. -/
theorem openLoop_takes (hBalanced : context.Balanced) {position : Source.Position}
    {iterator : String} {first last : Atom} {direction : Direction} {cells : LoopCells}
    (hRun : (openLoop position iterator first last direction).run.run context =
      (.ok cells, after)) :
    ∃ middle inside, context.setting.Occupies middle cells.counter ∧
      middle.Occupies inside cells.iterator ∧ inside.SameCells after.setting := by
  have hRun := of_get_bind hRun
  simp only at hRun
  split at hRun
  · cases hRun
  obtain ⟨start, one, hFirst, hRun⟩ := exists_of_run_bind hRun
  have hOne := Orderly.balanced context start one hFirst hBalanced
  have hToOne := sameCells_of_space (Aloof.space context start one hFirst)
  obtain ⟨stop, two, hLast, hRun⟩ := exists_of_run_bind hRun
  have hTwo := Orderly.balanced one stop two hLast hOne
  have hToTwo := hToOne.trans (sameCells_of_space (Aloof.space one stop two hLast))
  obtain ⟨rounds, three, hCount, hRun⟩ := exists_of_run_bind hRun
  have hThree := Orderly.balanced two rounds three hCount hTwo
  obtain ⟨_, -, hCosts⟩ := countRounds_costs hTwo start stop direction
  have hToThree := hToTwo.trans (hCosts.cells rounds three hCount)
  obtain ⟨counter, four, hTake, hRun⟩ := exists_of_run_bind hRun
  have hFour := Orderly.balanced three counter four hTake hThree
  obtain ⟨hLowest, hLayout, hOwners⟩ := takeScratch_takes (by decide) hTake
  obtain ⟨_, five, hStore, hRun⟩ := exists_of_run_bind hRun
  have hFive := Orderly.balanced four _ five hStore hFour
  have hToFive := sameCells_of_space (Aloof.space four _ five hStore)
  obtain ⟨handle, six, hCreate, hRun⟩ := exists_of_run_bind hRun
  have hToSix := hToFive.trans (sameCells_of_space (Aloof.space five handle six hCreate))
  obtain ⟨address, seven, hPlace, hRun⟩ := exists_of_run_bind hRun
  have hSeven := (placeIterator_books hFive hCreate hPlace).balanced
  have hOccupies := placeIterator_takes hPlace
  obtain ⟨initial, eight, hInitial, hRun⟩ := exists_of_run_bind hRun
  have hToEight := sameCells_of_space (Frugal.space seven initial eight hInitial hSeven)
  obtain ⟨_, nine, hStored, hRun⟩ := exists_of_run_bind hRun
  have hToNine := hToEight.trans (sameCells_of_space (Aloof.space eight _ nine hStored))
  obtain ⟨_, ten, hDeclare, hRun⟩ := exists_of_run_bind hRun
  have hToTen := hToNine.trans (sameCells_of_space (Aloof.space nine _ ten hDeclare))
  obtain ⟨_, eleven, hTidy, hRun⟩ := exists_of_run_bind hRun
  have hToEleven := hToTen.trans (sameCells_of_space (Aloof.space ten _ eleven hTidy))
  cases hRun
  refine ⟨six.setting, seven.setting, ?_, hOccupies, hToEleven⟩
  refine ⟨hLowest.congr hToThree.symm, ?_, ?_⟩
  · rw [hToSix.layout, hLayout, hToThree.layout]
  · intro place
    rw [hToSix.owners, hOwners, hToThree.owners]

/-- A loop is refused for want of memory only where a first or a second cell is missing. -/
theorem not_vacant_of_openLoop (hBalanced : context.Balanced) {position : Source.Position}
    {iterator : String} {first last : Atom} {direction : Direction} {fault : GeneratorFault}
    (hRun : (openLoop position iterator first last direction).run.run context =
      (.error fault, after)) (hFault : fault.isExhaustion = true)
    (hVacant : context.setting.Vacant 1)
    (hAgain : ∀ middle cell, context.setting.Occupies middle cell → middle.Vacant 1) : False := by
  have hAloof : ∀ {α : Type} {action : Generating α} [Aloof action] {before : Context},
      action.run.run before ≠ (.error fault, after) := by
    intro α action hAloof before hHere
    rw [hAloof.sober before fault after hHere] at hFault
    cases hFault
  rcases error_of_run_bind hRun with hGet | ⟨_, _, hGet, hRun⟩
  · cases hGet
  cases hGet
  simp only at hRun
  split at hRun
  · rcases error_of_run_bind hRun with hRefuse | ⟨_, _, hRefuse, -⟩
    · exact hAloof hRefuse
    · cases hRefuse
  rcases error_of_run_bind hRun with hFirst | ⟨start, one, hFirst, hRun⟩
  · exact hAloof hFirst
  have hOne := Orderly.balanced context start one hFirst hBalanced
  have hToOne := sameCells_of_space (Aloof.space context start one hFirst)
  rcases error_of_run_bind hRun with hLast | ⟨stop, two, hLast, hRun⟩
  · exact hAloof hLast
  have hTwo := Orderly.balanced one stop two hLast hOne
  have hToTwo := hToOne.trans (sameCells_of_space (Aloof.space one stop two hLast))
  obtain ⟨count, hFew, hCosts⟩ := countRounds_costs hTwo start stop direction
  rcases error_of_run_bind hRun with hCount | ⟨rounds, three, hCount, hRun⟩
  · exact hCosts.sober fault after hCount hFault ((hVacant.congr hToTwo).mono hFew)
  have hThree := Orderly.balanced two rounds three hCount hTwo
  have hToThree := hToTwo.trans (hCosts.cells rounds three hCount)
  rcases error_of_run_bind hRun with hTake | ⟨counter, four, hTake, hRun⟩
  · exact not_vacant_of_takeScratch (by decide) hTake hFault (hVacant.congr hToThree)
  have hFour := Orderly.balanced three counter four hTake hThree
  obtain ⟨hLowest, hLayout, hOwners⟩ := takeScratch_takes (by decide) hTake
  rcases error_of_run_bind hRun with hStore | ⟨_, five, hStore, hRun⟩
  · exact hAloof hStore
  have hFive := Orderly.balanced four _ five hStore hFour
  have hToFive := sameCells_of_space (Aloof.space four _ five hStore)
  rcases error_of_run_bind hRun with hCreate | ⟨handle, six, hCreate, hRun⟩
  · exact hAloof hCreate
  have hToSix := hToFive.trans (sameCells_of_space (Aloof.space five handle six hCreate))
  have hOccupies : context.setting.Occupies six.setting counter := by
    refine ⟨hLowest.congr hToThree.symm, ?_, ?_⟩
    · rw [hToSix.layout, hLayout, hToThree.layout]
    · intro place
      rw [hToSix.owners, hOwners, hToThree.owners]
  rcases error_of_run_bind hRun with hPlace | ⟨address, seven, hPlace, hRun⟩
  · exact not_vacant_of_placeIterator hPlace hFault (hAgain six.setting counter hOccupies)
  have hSeven := (placeIterator_books hFive hCreate hPlace).balanced
  rcases error_of_run_bind hRun with hInitial | ⟨initial, eight, -, hRun⟩
  · rw [Frugal.sober seven fault after hInitial hSeven] at hFault
    cases hFault
  have hNote : Aloof
      (modify fun context => { context with loops := context.loops + 1 } : Generating Unit) :=
    .modify fun _ => rfl
  exact hAloof hRun

/-! ### Closing loops -/

theorem freeCells_sober (addresses : List Address) (done : Nat) (store : Store)
    {fault : StoreFault}
    (hFault : ((StoreAction.freeCells done addresses).run store).1.2 = some fault) :
    fault.isExhaustion = false := by
  induction addresses generalizing done store with
  | nil => cases hFault
  | cons address rest inductionHypothesis =>
      rw [StoreAction.freeCells, StateT.run_bind] at hFault
      cases hFree : (StoreAction.freeAt address).run.run store with
      | mk result middle =>
          rw [hFree] at hFault
          cases result with
          | error cause =>
              cases hFault
              rfl
          | ok value => exact inductionHypothesis _ middle hFault

private theorem freeLoopCells_sober : Sober freeLoopCells := by
  intro context fault after hRun
  rcases error_of_run_bind hRun with hGet | ⟨_, _, hGet, hRun⟩
  · cases hGet
  cases hGet
  cases hFree : StoreAction.freeLoopCells.run context.store with
  | mk outcome store =>
      obtain ⟨count, cause⟩ := outcome
      simp only [hFree] at hRun
      rcases error_of_run_bind hRun with hNote | ⟨_, _, hNote, hRun⟩
      · cases hNote
      cases hNote
      cases cause with
      | none => cases hRun
      | some cause =>
          cases hRun
          exact freeCells_sober _ 0 context.store (congrArg (fun found => found.1.2) hFree)

theorem closeLoop_sober (iterator : String) (cells : LoopCells) :
    Sober (closeLoop iterator cells) := by
  have hNote : Aloof
      (modify fun context => { context with loops := context.loops - 1 } : Generating Unit) :=
    .modify fun _ => rfl
  refine .bind Aloof.sober fun _ => .bind (.onStore (StoreAction.freeAt_sober _)) fun _ =>
    .bind (.onStore (StoreAction.freeAt_sober _)) fun _ => .bind hNote.sober fun _ =>
      .bind Aloof.sober fun context => ?_
  split
  · exact freeLoopCells_sober
  · exact Aloof.sober

end Generating

end RegisterCompiler
