/-
What is remembered about scalars.

Only assignments and the reading of numbers change what is remembered about a scalar.  The code
at the start and at the end of a construct changes nothing, and inside a construct what was
remembered can only be forgotten.
-/

import RegisterCompiler.Proofs.Generator.Bookkeeping
import RegisterCompiler.Proofs.Generator.Sights
import RegisterCompiler.Proofs.Simplification

set_option autoImplicit false

namespace RegisterCompiler

open Generating (LoopCells)

namespace Setting

def recalls (setting : Setting) (name : String) : Option Nat :=
  match setting.declared name with
  | some (.scalar, .value handle) => (setting.known handle).map Int.toNat
  | _ => none

variable {setting first second third : Setting}

private theorem recalls_of_scalar {name : String} {handle : Handle}
    (hDeclared : setting.declared name = some (.scalar, .value handle)) :
    setting.recalls name = (setting.known handle).map Int.toNat := by
  rw [recalls, hDeclared]

private theorem exists_of_recalls {name : String} {value : Nat}
    (hRecall : setting.recalls name = some value) :
    ∃ handle, setting.declared name = some (.scalar, .value handle) := by
  unfold recalls at hRecall
  split at hRecall
  · rename_i handle hDeclared
    exact ⟨handle, hDeclared⟩
  · cases hRecall

def RecalledBy (first second : Setting) : Prop :=
  ∀ name value, first.recalls name = some value → second.recalls name = some value

namespace RecalledBy

theorem of_eq (hSame : second.recalls = first.recalls) : first.RecalledBy second := by
  intro name value hRecall
  rw [hSame]
  exact hRecall

theorem trans (hFirst : first.RecalledBy second) (hSecond : second.RecalledBy third) :
    first.RecalledBy third :=
  fun name value hRecall => hSecond name value (hFirst name value hRecall)

end RecalledBy

private theorem recalledBy_of_known (hSame : first.Resembles second)
    (hKnown : ∀ handle number, second.known handle = some number →
      first.known handle = some number) : second.RecalledBy first := by
  intro name value hRecall
  obtain ⟨handle, hDeclared⟩ := exists_of_recalls hRecall
  rw [recalls_of_scalar hDeclared] at hRecall
  obtain ⟨number, hNumber, hValue⟩ := Option.map_eq_some_iff.mp hRecall
  rw [hSame.declared] at hDeclared
  rw [recalls_of_scalar hDeclared, hKnown handle number hNumber, Option.map_some, hValue]

private theorem recalls_eq_none_of_iterator {name : String} {binding : Binding}
    (hDeclared : setting.declared name = some (.iterator, binding)) :
    setting.recalls name = none := by
  rw [recalls, hDeclared]

/-- Nothing else is remembered inside a counting loop. -/
theorem recalls_enclosed {inner : Setting} {iterator : String} {handle : Handle}
    (hFresh : setting.declared iterator = none)
    (hDeclared : inner.declared =
      Function.update setting.declared iterator (some (.iterator, .value handle)))
    (hKnown : inner.known = setting.known) : inner.recalls = setting.recalls := by
  funext name
  by_cases hSame : name = iterator
  · rw [hSame, recalls_eq_none_of_iterator (by rw [hDeclared, Function.update_self]), recalls,
      hFresh]
  · unfold recalls
    rw [hDeclared, Function.update_of_ne hSame, hKnown]

/-- Another value is remembered for one scalar. -/
theorem recalls_learn {name : String} {handle : Handle}
    (hDeclared : setting.declared name = some (.scalar, .value handle))
    (hOthers : ∀ other, setting.declared other = some (.scalar, .value handle) → other = name)
    (known : Option Int) :
    (setting.learn handle known).recalls =
      Function.update setting.recalls name (known.map Int.toNat) := by
  funext other
  by_cases hSame : other = name
  · rw [hSame, Function.update_self]
    have hHere : (setting.learn handle known).declared name = some (.scalar, .value handle) :=
      hDeclared
    rw [recalls_of_scalar hHere]
    change (Function.update setting.known handle known handle).map Int.toNat = _
    rw [Function.update_self]
  · rw [Function.update_of_ne hSame]
    unfold recalls
    change (match setting.declared other with
      | some (.scalar, .value found) =>
          (Function.update setting.known handle known found).map Int.toNat
      | _ => none) = _
    split
    · rename_i found hFound
      rw [Function.update_of_ne]
      intro hEqual
      rw [hEqual] at hFound
      exact hSame (hOthers other hFound)
    · rfl

end Setting

theorem Context.knows?_eq (context : Context) (name : String) :
    context.knows? name =
      if context.options.propagate = true ∧ context.depth = 0 then context.setting.recalls name
      else none :=
  rfl

namespace Context

variable {context : Context} {bases : Bases}

def knowledge (context : Context) : Valuation :=
  ⟨context.knows?, fun _ => none⟩

private theorem constant?_of_sight {operand : Operand} {atom : Atom}
    (hSight : operand.sight = atom.sight bases context.knows?) :
    operand.constant? = atom.value? bases context.knowledge := by
  have hNumber : ∀ value, operand.constant? = some value ↔
      atom.value? bases context.knowledge = some value := by
    intro value
    rw [← Generating.sight_eq_number_iff, hSight]
    cases atom with
    | number span number => simp [Atom.sight, Atom.value?]
    | reference cell =>
        rw [Atom.sight, Atom.value?, Reference.sight, Reference.value?]
        cases cell.index with
        | none => exact Sight.plain_eq_number_iff
        | some index =>
            cases index with
            | number span offset => simp [knowledge]
            | name span other =>
                cases hKnows : context.knows? other <;> simp [Sight.item, knowledge, hKnows]
  cases hConstant : operand.constant? with
  | some value => exact ((hNumber value).mp hConstant).symm
  | none =>
      cases hValue : atom.value? bases context.knowledge with
      | none => rfl
      | some value =>
          rw [(hNumber value).mpr hValue] at hConstant
          cases hConstant

end Context

/-! ### Simple commands -/

def Reference.remember (cell : Reference) (recalls : String → Option Nat) (value : Option Nat) :
    String → Option Nat :=
  match cell.index with
  | none => Function.update recalls cell.name value
  | some _ => recalls

private theorem Calculation.constant?_operation (left : Operand) (operator : Operator)
    (right : Operand) :
    (Calculation.operation left operator right).constant? =
      left.constant?.bind fun first => right.constant?.map fun second =>
        operator.eval first second := by
  cases left with
  | constant first => cases right <;> rfl
  | _ => rfl

namespace Context

variable {context after : Context} {bases : Bases} {names : Names}

private theorem knowledge_eq_of_works (hWorks : Works context after) :
    after.knowledge = context.knowledge := by
  unfold knowledge
  rw [funext (knows?_congr hWorks.setting hWorks.quiet.options hWorks.quiet.depth)]

/-- An expression over numbers has its value where nothing but what is known counts. -/
theorem resolveExpression_constant? (hSound : context.Sound)
    (hBases : context.setting.HasBases bases) {value : Expression} {calculation : Calculation}
    (hRun : (Generating.resolveExpression value).run.run context = (.ok calculation, after)) :
    calculation.constant? = value.value? bases context.knowledge := by
  cases value with
  | atom span value =>
      obtain ⟨operand, middle, hResolve, hPure⟩ := Generating.exists_of_run_bind hRun
      cases hPure
      exact constant?_of_sight (resolve_sight hSound hBases hResolve)
  | operation span left operator right =>
      obtain ⟨first, one, hFirst, hRest⟩ := Generating.exists_of_run_bind hRun
      obtain ⟨hFinds, -⟩ := (resolve_ensures hSound hBases left).of_run hFirst
      obtain ⟨second, two, hSecond, hPure⟩ := Generating.exists_of_run_bind hRest
      cases hPure
      have hLeft := constant?_of_sight (resolve_sight hSound hBases hFirst)
      have hRight := constant?_of_sight
        (resolve_sight hFinds.sound (hFinds.setting ▸ hBases) hSecond)
      rw [knowledge_eq_of_works hFinds.toWorks] at hRight
      rw [Calculation.constant?_operation, Expression.value?, hLeft, hRight]

/-- A value that was stored is remembered outside all constructs. -/
theorem deliver_recalls (hSound : context.Sound) (hScopes : context.setting.Scopes names)
    {register : Int} (hHolding : context.Holding [register]) {target : Reference}
    {operand : Operand} (hTargets : context.Targets bases target operand)
    (hPlaced : operand.Placed context.setting) {learned : Option Nat} {text : String}
    (hRun : (do
      Generating.storeOperand operand register
      Generating.learnValue operand learned text).run.run context = (.ok (), after)) :
    after.setting.recalls = target.remember context.setting.recalls
      (if context.depth = 0 then learned else none) := by
  obtain ⟨_, stored, hStore, hLearn⟩ := Generating.exists_of_run_bind hRun
  have hStored := (storeOperand_ensures hSound hHolding (by decide) (by simp) hPlaced
    hTargets.constant?).of_run hStore
  have hVariable : ∀ cell, operand = .scalar cell → cell.IsVariable stored.setting := by
    rw [hStored.setting]
    exact hTargets.isVariable
  have hSetting := ((learnValue_ensures hStored.sound hVariable learned text).of_run hLearn).2.1
  rw [hStored.setting, hStored.quiet.depth] at hSetting
  rw [hSetting, Reference.remember]
  cases hTargets with
  | element hIndex hDenotes => rw [hIndex, hDenotes.learned]
  | @scalar kind place hPlain hName hDeclared hKind =>
      have hScalar : context.setting.declared target.name = some (.scalar, .value place.handle) := by
        have hCasts := hScopes target.name
        rw [hDeclared]
        cases hRole : names.role? target.name with
        | none =>
            rw [hRole, Setting.Casts, hDeclared] at hCasts
            cases hCasts
        | some role =>
            rw [hRole] at hCasts
            cases role with
            | scalar =>
                obtain ⟨handle, hHandle⟩ := hCasts
                rw [hDeclared] at hHandle
                cases hHandle
                rfl
            | array length =>
                obtain ⟨ref, base, hArray, -⟩ := hCasts
                rw [hDeclared] at hArray
                cases hArray
            | iterator =>
                obtain ⟨handle, hHandle⟩ := hCasts
                rw [hDeclared] at hHandle
                cases hHandle
                exact absurd rfl hKind
      have hOthers : ∀ other, context.setting.declared other =
          some (.scalar, .value place.handle) → other = target.name := by
        intro other hOther
        have hHere := (hSound.store.cells other _ _ hOther).1
        rw [(hSound.store.cells target.name _ _ hScalar).1] at hHere
        exact (Option.some.inj hHere).symm
      rw [hPlain, Operand.learned, Setting.recalls_learn hScalar hOthers]
      simp only [Option.map_map]
      congr 1
      split
      · cases learned <;> rfl
      · rfl

theorem assign_recalls (hTidy : context.Tidy) (hBases : context.setting.HasBases bases)
    (hScopes : context.setting.Scopes names) {target : Reference} {value : Expression}
    (hRun : (Generating.assign target value).run.run context = (.ok (), after)) :
    after.setting.recalls = target.remember context.setting.recalls
      (if context.depth = 0 then value.value? bases context.knowledge else none) := by
  obtain ⟨operand, one, hTarget, hRun⟩ := Generating.exists_of_run_bind hRun
  obtain ⟨hFinds, hTargets⟩ := (resolveTarget_ensures hTidy.toSound hBases target).of_run hTarget
  have hOneBases : one.setting.HasBases bases := hFinds.setting ▸ hBases
  obtain ⟨calculation, two, hResolve, hRun⟩ := Generating.exists_of_run_bind hRun
  obtain ⟨hResolved, hRegisters, hPlaced, -⟩ :=
    (resolveExpression_ensures hFinds.sound hOneBases value).of_run hResolve
  have hHolding : two.Holding [] := (hTidy.holding.congr hFinds.registers).congr hRegisters
  obtain ⟨register, three, hCalculate, hRun⟩ := Generating.exists_of_run_bind hRun
  have hTakes := (calculate_ensures hResolved.sound hHolding hPlaced).of_run hCalculate
  have hWorks := (hFinds.toWorks.trans hResolved.toWorks).trans hTakes.turns.toWorks
  have hOperand : operand.Placed three.setting := by
    rw [hTakes.turns.setting, hResolved.setting]
    exact hFinds.placed
  have hThere : three.setting.Scopes names := hWorks.setting ▸ hScopes
  rw [deliver_recalls hTakes.turns.sound hThere hTakes.holding (hTargets.congr hWorks) hOperand hRun,
    resolveExpression_constant? hFinds.sound hOneBases hResolve,
    knowledge_eq_of_works hFinds.toWorks, hWorks.setting, hWorks.quiet.depth]

theorem readInput_recalls (hTidy : context.Tidy) (hBases : context.setting.HasBases bases)
    (hScopes : context.setting.Scopes names) {target : Reference}
    (hRun : (Generating.readInput target).run.run context = (.ok (), after)) :
    after.setting.recalls = target.remember context.setting.recalls none := by
  obtain ⟨operand, one, hTarget, hRun⟩ := Generating.exists_of_run_bind hRun
  obtain ⟨hFinds, hTargets⟩ := (resolveTarget_ensures hTidy.toSound hBases target).of_run hTarget
  obtain ⟨register, two, hAcquire, hRun⟩ := Generating.exists_of_run_bind hRun
  obtain ⟨hTaken, hHeld, -, -⟩ := (acquire_ensures hFinds.sound
    (hTidy.holding.congr hFinds.registers) (by decide)).of_run hAcquire
  have hHolds := (hHeld.held register).mp List.mem_cons_self
  have hReady : ∀ instruction ∈ [Instruction.unary .get register],
      instruction.Ready two.options.registers (two.listing.size + 1) := by
    intro instruction hInstruction
    rw [List.mem_singleton.mp hInstruction]
    exact ready_of_allocatable hTaken.sound (hTaken.sound.store.allocatable_of_holds hHolds) rfl _
  have hAdded := Works.add hTaken.sound hReady
  have hWorks := (hFinds.toWorks.trans hTaken.toWorks).trans hAdded
  obtain ⟨_, _, hEmit, hRun⟩ := Generating.exists_of_run_bind hRun
  cases hEmit
  have hOperand : operand.Placed (two.add [.unary .get register]).setting := by
    rw [hAdded.setting, hTaken.setting]
    exact hFinds.placed
  have hThere : (two.add [.unary .get register]).setting.Scopes names := hWorks.setting ▸ hScopes
  rw [deliver_recalls hAdded.sound hThere (hHeld.add _) (hTargets.congr hWorks) hOperand hRun,
    hWorks.setting]
  split
  · rfl
  · rfl

theorem writeOutput_recalls (hTidy : context.Tidy) (hBases : context.setting.HasBases bases)
    {value : Atom} (hRun : (Generating.writeOutput value).run.run context = (.ok (), after)) :
    after.setting.recalls = context.setting.recalls := by
  obtain ⟨operand, one, hResolve, hRun⟩ := Generating.exists_of_run_bind hRun
  obtain ⟨hFinds, -⟩ := (resolve_ensures hTidy.toSound hBases value).of_run hResolve
  obtain ⟨register, two, hRead, hRun⟩ := Generating.exists_of_run_bind hRun
  obtain ⟨hWorks, -⟩ := (readOperand_ensures hFinds.sound (hTidy.holding.congr hFinds.registers)
    (by decide) hFinds.placed).of_run hRead
  cases hRun
  exact congrArg Setting.recalls (hWorks.setting.trans hFinds.setting)

end Context

/-! ### Constructs -/

namespace Generating

variable {context after : Context} {bases : Bases}

theorem landHere_keeps (hRun : landHere.run.run context = (.ok (), after)) :
    after.store = context.store ∧ after.loops = context.loops ∧ (context.Tidy → after.Tidy) := by
  obtain ⟨_, resolved, hResolve, hForget⟩ := exists_of_run_bind hRun
  obtain ⟨result, labels, listing, hLabel, hSize, -⟩ := run_resolveLabel context
  rw [hLabel] at hResolve
  cases hResolve
  cases hForget
  refine ⟨rfl, rfl, fun hTidy => ⟨⟨hTidy.store, hTidy.size, hTidy.dynamics, hTidy.distinct, ?_⟩,
    hTidy.holding.congr rfl⟩⟩
  intro emission hEmission
  exact Nat.lt_of_lt_of_eq (hTidy.recorded emission hEmission) hSize.symm

theorem leaveBranch_setting (hSound : context.Sound)
    (hRun : leaveBranch.run.run context = (.ok (), after)) : after.setting = context.setting := by
  obtain ⟨_, cleared, hClear, hRun⟩ := exists_of_run_bind hRun
  have hCleared := ((Context.clearCache_ensures hSound).of_run hClear).1
  obtain ⟨_, landed, hLand, hAscend⟩ := exists_of_run_bind hRun
  cases hAscend
  exact (congrArg Store.setting (landHere_keeps hLand).1).trans hCleared.setting

theorem switchBranch_keeps (hSound : context.Sound)
    (hRun : switchBranch.run.run context = (.ok (), after)) :
    after.setting = context.setting ∧ after.loops = context.loops := by
  obtain ⟨_, cleared, hClear, hRun⟩ := exists_of_run_bind hRun
  have hCleared := ((Context.clearCache_ensures hSound).of_run hClear).1
  obtain ⟨leave, _, hJump, hRun⟩ := exists_of_run_bind hRun
  cases hJump
  obtain ⟨_, landed, hLand, hOpen⟩ := exists_of_run_bind hRun
  cases hOpen
  obtain ⟨hStore, hLoops, -⟩ := landHere_keeps hLand
  exact ⟨(congrArg Store.setting hStore).trans hCleared.setting,
    hLoops.trans hCleared.quiet.loops⟩

theorem testCondition_keeps (hPrepared : context.Prepared bases) {condition : Condition}
    (hRun : (testCondition condition).run.run context = (.ok (), after)) :
    after.setting = context.setting ∧ after.loops = context.loops := by
  obtain ⟨_, _, hBranches, -⟩ :=
    (Context.testCondition_ensures hPrepared.toTidy hPrepared.bases condition).of_run hRun
  exact ⟨hBranches.setting, hBranches.loops⟩

/-- A loop begins in a tidy context in which no register caches a scalar. -/
theorem exists_of_enterLoop (hTidy : context.Tidy) {α : Type} {next : Nat → Generating α} {value : α}
    (hRun : (do
      clearCache
      forgetPointer
      let start ← nextLine
      descend
      next start).run.run context = (.ok value, after)) :
    ∃ entered : Context, entered.Tidy ∧ entered.Flat ∧ entered.setting = context.setting ∧
      entered.loops = context.loops ∧
      (next entered.listing.size).run.run entered = (.ok value, after) := by
  obtain ⟨_, cleared, hClear, hRun⟩ := exists_of_run_bind hRun
  obtain ⟨hCleared, hFlat, hHolding⟩ :=
    (Context.clearCache_ensures hTidy.toSound).of_run hClear
  let entered : Context := { cleared with pointer := none, depth := cleared.depth + 1 }
  have hEntered : entered.Tidy :=
    ⟨⟨hCleared.sound.store, hCleared.sound.size, hCleared.sound.dynamics, hCleared.sound.distinct,
      hCleared.sound.recorded⟩, (hHolding _ hTidy.holding).congr rfl⟩
  exact ⟨entered, hEntered, hFlat, hCleared.setting, hCleared.quiet.loops, hRun⟩

theorem whileLead_keeps (hPrepared : context.Prepared bases) {condition : Condition} {start : Nat}
    (hRun : (do
      clearCache
      forgetPointer
      let start ← nextLine
      descend
      testCondition condition
      return start).run.run context = (.ok start, after)) :
    after.setting = context.setting ∧ after.loops = context.loops := by
  obtain ⟨entered, hEntered, -, hSetting, hLoops, hRun⟩ := exists_of_enterLoop hPrepared.toTidy hRun
  obtain ⟨_, tested, hTest, hPure⟩ := exists_of_run_bind hRun
  cases hPure
  obtain ⟨hTested, hRounds⟩ :=
    testCondition_keeps (hPrepared.congr hEntered (.of_eq hSetting) hLoops) hTest
  exact ⟨hTested.trans hSetting, hRounds.trans hLoops⟩

theorem whileTrail_setting (hSound : context.Sound) {start : Nat}
    (hRun : (do
      clearCache
      emit (.jump start)
      landHere
      ascend).run.run context = (.ok (), after)) : after.setting = context.setting := by
  obtain ⟨_, cleared, hClear, hRun⟩ := exists_of_run_bind hRun
  have hCleared := ((Context.clearCache_ensures hSound).of_run hClear).1
  obtain ⟨_, _, hEmit, hRun⟩ := exists_of_run_bind hRun
  cases hEmit
  obtain ⟨_, landed, hLand, hAscend⟩ := exists_of_run_bind hRun
  cases hAscend
  exact (congrArg Store.setting (landHere_keeps hLand).1).trans hCleared.setting

structure InsideLoop (context inside : Context) (iterator : String) (cells : LoopCells)
    (start : Nat) (handle : Handle) (owner : Handle) : Prop where
  admits : context.setting.Admits iterator cells owner handle
  setting : inside.setting = context.setting.insideLoop iterator cells owner handle
  loops : inside.loops = context.loops + 1
  start : start ≤ inside.listing.size

theorem forLead_inside (hPrepared : context.Prepared bases) {position : Source.Position}
    {iterator : String} {first last : Atom} {direction : Direction} {cells : LoopCells}
    {start : Nat} {inside : Context}
    (hRun : (do
      let cells ← openLoop position iterator first last direction
      clearCache
      forgetPointer
      let start ← nextLine
      descend
      testLoop cells
      return (cells, start)).run.run context = (.ok (cells, start), inside)) :
    ∃ handle owner, InsideLoop context inside iterator cells start handle owner := by
  obtain ⟨found, opened, hOpen, hRun⟩ := exists_of_run_bind hRun
  have hName : iterator ≠ "" := by
    rintro rfl
    exact openLoop_fails position first last direction _ _ _ hOpen
  obtain ⟨owner, handle, hOpens, -⟩ := (Context.openLoop_ensures hPrepared.toTidy hPrepared.bases
    position hName first last direction).of_run hOpen
  obtain ⟨entered, hEntered, hFlat, hSetting, hLoops, hRun⟩ := exists_of_enterLoop hOpens.tidy hRun
  obtain ⟨_, tested, hTest, hPure⟩ := exists_of_run_bind hRun
  obtain ⟨label, hBranches, -⟩ := (Context.testLoop_ensures hEntered hFlat found).of_run hTest
  cases hPure
  refine ⟨handle, owner, hOpens.admits, ?_, ?_, ?_⟩
  · exact hBranches.setting.trans (hSetting.trans hOpens.setting)
  · exact hBranches.loops.trans (hLoops.trans hOpens.loops)
  · exact hBranches.extended.grows.size

namespace InsideLoop

variable {inside bodied : Context} {iterator : String} {cells : LoopCells} {start : Nat}
  {handle owner : Handle} (hInside : InsideLoop context inside iterator cells start handle owner)

include hInside

theorem recalls_inside : inside.setting.recalls = context.setting.recalls := by
  apply Setting.recalls_enclosed hInside.admits.fresh
  · rw [hInside.setting]
    rfl
  · rw [hInside.setting]
    rfl

/-- Behind a counting loop all is remembered that was remembered at the end of its body. -/
theorem recalls_outside (hPrepared : context.Prepared bases) (hDeep : 0 < inside.depth)
    {behaviour : Behaviour} (hCompiles : Context.Compiles inside bodied behaviour)
    (hTidy : bodied.Tidy) {direction : Direction}
    (hRun : (do
      clearCache
      stepLoop cells direction start
      landHere
      closeLoop iterator cells
      ascend).run.run bodied = (.ok (), after)) :
    after.setting.recalls = bodied.setting.recalls := by
  obtain ⟨_, cleared, hClear, hRun⟩ := exists_of_run_bind hRun
  obtain ⟨hCleared, hFlat, hHolding⟩ := (Context.clearCache_ensures hTidy.toSound).of_run hClear
  have hClearedTidy : cleared.Tidy := ⟨hCleared.sound, hHolding _ hTidy.holding⟩
  have hSame : (context.setting.insideLoop iterator cells owner handle).Resembles cleared.setting := by
    rw [hCleared.setting, ← hInside.setting]
    exact hCompiles.extended.cells
  have hIterator : cleared.setting.cell? iterator = some (.iterator, handle, cells.iterator) := by
    rw [hSame.cell?]
    exact Setting.Admits.cell?_insideLoop
  have hCounter : cleared.setting.IsScratch cells.counter :=
    hSame.isScratch (hInside.admits.isScratch_insideLoop hPrepared.toSound.store.layout)
  have hStart : start ≤ cleared.listing.size :=
    Nat.le_trans hInside.start
      (Nat.le_trans hCompiles.extended.grows.size hCleared.grows.size)
  obtain ⟨_, stepped, hStep, hRun⟩ := exists_of_run_bind hRun
  obtain ⟨-, hSteps⟩ := (Context.stepLoop_ensures (.refl hCleared.sound) hClearedTidy hFlat
    hIterator hCounter direction hStart).of_run hStep
  obtain ⟨_, landed, hLand, hRun⟩ := exists_of_run_bind hRun
  obtain ⟨hStore, hLoops, hLanded⟩ := landHere_keeps hLand
  have hSetting : landed.setting = cleared.setting :=
    (congrArg Store.setting hStore).trans hSteps.setting
  have hKnown : landed.setting.known = bodied.setting.known := by
    rw [hSetting, hCleared.setting]
  have hUnknown : landed.setting.known handle = none := by
    rw [hKnown]
    cases hFound : bodied.setting.known handle with
    | none => rfl
    | some number =>
        have hBefore := (hCompiles.forgets hDeep).known handle number hFound
        rw [hInside.setting] at hBefore
        have hNone := Store.known_eq_none_of_unnamed hInside.admits.unnamed.1
        exact absurd (hBefore.symm.trans hNone) (Option.some_ne_none number)
  have hCount : landed.loops = context.loops + 1 := by
    rw [hLoops, hSteps.loops, hCleared.quiet.loops, hCompiles.loops, hInside.loops]
  obtain ⟨_, closed, hClose, hAscend⟩ := exists_of_run_bind hRun
  have hCloses := (Context.closeLoop_ensures
    (hLanded hSteps.tidy) (by rw [Context.Flat, hStore]; exact hSteps.flat) hInside.admits
    (hSetting ▸ hSame) hUnknown (by rw [hCount]; exact hPrepared.vacant)).of_run hClose
  cases hAscend
  have hOutside : closed.setting.known = bodied.setting.known := by
    rw [hCloses.setting, hKnown]
  apply Eq.symm
  apply Setting.recalls_enclosed
  · rw [hCloses.setting]
    exact hInside.admits.fresh
  · rw [hCompiles.extended.cells.declared, hInside.setting, hCloses.setting]
    rfl
  · exact hOutside.symm

end InsideLoop

/-- Inside a construct commands only make forget. -/
theorem compileCommands_recalledBy (hPrepared : context.Prepared bases) (hDeep : 0 < context.depth)
    {commands : List Command}
    (hRun : (compileCommands commands).run.run context = (.ok (), after)) :
    after.setting.RecalledBy context.setting := by
  obtain ⟨hCompiles, -⟩ := (Context.compileCommands_ensures (named_of_compileCommands hRun) context
    hPrepared).of_run hRun
  exact Setting.recalledBy_of_known hCompiles.extended.cells (hCompiles.forgets hDeep).known

/-- Nothing is learnt on the way into a construct. -/
theorem lead_recalledBy (hPrepared : context.Prepared bases) {command : Command} {body : Body}
    (hBody : body ∈ command.bodies) {note : body.Note} {inside : Context}
    (hLead : body.lead.run.run context = (.ok note, inside)) :
    inside.setting.RecalledBy context.setting := by
  cases command with
  | assign | read | write | skip => cases hBody
  | ifThen span condition commands =>
      cases List.mem_singleton.mp hBody
      obtain ⟨_, tested, hTest, hDescend⟩ := exists_of_run_bind hLead
      cases hDescend
      exact .of_eq (congrArg Setting.recalls (testCondition_keeps hPrepared hTest).1.symm)
  | ifElse span condition commands orElse =>
      cases List.mem_cons.mp hBody with
      | inl hFirst =>
          cases hFirst
          obtain ⟨_, tested, hTest, hDescend⟩ := exists_of_run_bind hLead
          cases hDescend
          exact .of_eq (congrArg Setting.recalls (testCondition_keeps hPrepared hTest).1.symm)
      | inr hSecond =>
          cases List.mem_singleton.mp hSecond
          obtain ⟨_, tested, hTest, hRun⟩ := exists_of_run_bind hLead
          obtain ⟨_, _, hDescend, hRun⟩ := exists_of_run_bind hRun
          cases hDescend
          obtain ⟨_, bodied, hCommands, hSwitch⟩ := exists_of_run_bind hRun
          have hEntrance := (Context.entrance_of_test hPrepared hTest).1
          have hDeep : 0 < (tested.atDepth (tested.depth + 1)).depth := Nat.succ_pos _
          have hForgotten := compileCommands_recalledBy hEntrance.prepared hDeep hCommands
          have hBodied := (Context.compileCommands_ensures (named_of_compileCommands hCommands) _
            hEntrance.prepared).of_run hCommands
          have hSwitched := (switchBranch_keeps hBodied.2.toSound hSwitch).1
          have hTested : tested.setting = context.setting := (testCondition_keeps hPrepared hTest).1
          rw [hSwitched, ← hTested]
          exact hForgotten
  | whileLoop span condition commands =>
      cases List.mem_singleton.mp hBody
      exact .of_eq (congrArg Setting.recalls (whileLead_keeps hPrepared hLead).1.symm)
  | forLoop span iterator first last direction commands =>
      cases List.mem_singleton.mp hBody
      obtain ⟨cells, start⟩ := note
      obtain ⟨handle, owner, hInside⟩ := forLead_inside hPrepared hLead
      exact .of_eq hInside.recalls_inside.symm

/-- Nothing is learnt on the way out of a construct. -/
theorem trail_recalledBy (hPrepared : context.Prepared bases) {command : Command} {body : Body}
    (hBody : body ∈ command.bodies) {note : body.Note} {inside bodied : Context}
    (hLead : body.lead.run.run context = (.ok note, inside))
    (hCommands : (compileCommands body.commands).run.run inside = (.ok (), bodied))
    (hTrail : (body.trail note).run.run bodied = (.ok (), after)) :
    after.setting.RecalledBy bodied.setting := by
  have hEntrance := Context.entrance_of_lead hPrepared hBody hLead
  have hDeep : 0 < inside.depth := by
    rw [hEntrance.depth]
    exact Nat.succ_pos _
  obtain ⟨hCompiles, hTidy⟩ := (Context.compileCommands_ensures (named_of_compileCommands hCommands)
    inside hEntrance.prepared).of_run hCommands
  cases command with
  | assign | read | write | skip => cases hBody
  | ifThen span condition commands =>
      cases List.mem_singleton.mp hBody
      exact .of_eq (congrArg Setting.recalls (leaveBranch_setting hTidy.toSound hTrail).symm)
  | ifElse span condition commands orElse =>
      cases List.mem_cons.mp hBody with
      | inl hFirst =>
          cases hFirst
          obtain ⟨_, tested, hTest, hDescend⟩ := exists_of_run_bind hLead
          cases hDescend
          obtain ⟨_, switched, hSwitch, hRun⟩ := exists_of_run_bind hTrail
          obtain ⟨_, closed, hElse, hLeave⟩ := exists_of_run_bind hRun
          have hOther := Context.entrance_of_switch hPrepared hTest hCommands hSwitch
          have hOtherDeep : 0 < switched.depth := by
            rw [hOther.depth]
            exact Nat.succ_pos _
          have hClosed := (Context.compileCommands_ensures (named_of_compileCommands hElse) _
            hOther.prepared).of_run hElse
          have hForgotten := compileCommands_recalledBy hOther.prepared hOtherDeep hElse
          rw [leaveBranch_setting hClosed.2.toSound hLeave,
            ← (switchBranch_keeps hTidy.toSound hSwitch).1]
          exact hForgotten
      | inr hSecond =>
          cases List.mem_singleton.mp hSecond
          exact .of_eq (congrArg Setting.recalls (leaveBranch_setting hTidy.toSound hTrail).symm)
  | whileLoop span condition commands =>
      cases List.mem_singleton.mp hBody
      exact .of_eq (congrArg Setting.recalls (whileTrail_setting hTidy.toSound hTrail).symm)
  | forLoop span iterator first last direction commands =>
      cases List.mem_singleton.mp hBody
      obtain ⟨cells, start⟩ := note
      obtain ⟨handle, owner, hInside⟩ := forLead_inside hPrepared hLead
      exact .of_eq (hInside.recalls_outside hPrepared hDeep hCompiles hTidy hTrail).symm

/-- Nothing is learnt from a construct. -/
theorem construct_recalledBy (hPrepared : context.Prepared bases) {command : Command} {body : Body}
    (hBody : body ∈ command.bodies)
    (hRun : (compileCommand command).run.run context = (.ok (), after)) :
    after.setting.RecalledBy context.setting := by
  obtain ⟨note, inside, bodied, hLead, hCommands, hTrail⟩ := exists_of_compileCommand hRun hBody
  have hEntrance := Context.entrance_of_lead hPrepared hBody hLead
  have hDeep : 0 < inside.depth := by
    rw [hEntrance.depth]
    exact Nat.succ_pos _
  apply (trail_recalledBy hPrepared hBody hLead hCommands hTrail).trans
  apply (compileCommands_recalledBy hEntrance.prepared hDeep hCommands).trans
  exact lead_recalledBy hPrepared hBody hLead

end Generating

end RegisterCompiler
