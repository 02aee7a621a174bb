/-
Run-time arithmetic is compile-time arithmetic.

A calculation is compiled wherever as many loop cells in a row are free as it needs.  A machine
about which all that is known is right runs its code to the end, with the value of the
calculation in the register that was returned.  Every name, every cell of an array and every
loop cell in use keeps its number, though a name may have moved from a register to its cell.
-/

import RegisterCompiler.Proofs.Generator.Bookkeeping
import RegisterCompiler.Proofs.Generator.Readings
import RegisterCompiler.Proofs.Generator.Sights

set_option autoImplicit false

namespace RegisterCompiler

open Generating (Costs Ensures Routine)

/-- The number of loop cells in a row that a calculation needs. -/
def Calculation.cells : Calculation → Nat
  | operand _ => 0
  | operation left operator right => operator.cells left.sight right.sight

namespace Generating

variable {α : Type} {action : Generating α} {context : Context} {count : Nat}

/-- A step that cannot complain succeeds exactly if the loop cells it needs are free. -/
theorem Costs.succeeds_iff (hCosts : Costs action count context) [hRoutine : Routine false action]
    {post : α → Context → Prop} (hEnsures : Ensures action context post) :
    (∃ value after, action.run.run context = (.ok value, after)) ↔
      context.setting.Vacant count := by
  constructor
  · intro hSucceeds
    rcases hSucceeds with ⟨value, after, hRun⟩
    exact hCosts.needs value after hRun
  · intro hVacant
    unfold Ensures at hEnsures
    cases hRun : action.run.run context with
    | mk outcome after =>
        rw [hRun] at hEnsures
        cases outcome with
        | ok value => exact ⟨value, after, rfl⟩
        | error fault =>
            have hFull : fault.isExhaustion = true := by
              cases fault with
              | misuse complaint =>
                  have hNever := hRoutine.faults context complaint (by rw [hRun])
                  contradiction
              | _ => exact hEnsures
            exact absurd hVacant (hCosts.sober fault after hRun hFull)

private theorem calculate_costs (hSound : context.Sound) (hBalanced : context.Balanced)
    {calculation : Calculation} (hPlaced : calculation.Placed context.setting) :
    Costs (calculate calculation) calculation.cells context := by
  cases calculation with
  | operand value =>
      have hTake : Costs (take value) 0 context := .of_frugal hBalanced
      exact hTake
  | operation left operator right =>
      exact operate_costs hBalanced (Context.clear_of_placed hSound hPlaced.1 hPlaced.2) operator

end Generating

namespace Context

variable {context after : Context}

/-- The code of a step that takes a number into a register does so on every machine. -/
theorem Takes.computes {register : Int} {content : Picture → Option Nat}
    (hTakes : Takes context after [] register content) (hSound : context.Sound)
    {code : List Instruction} (hFilled : after.listing.FilledBy code) {machine : Machine}
    (hSuits : context.Suits code machine) {value : Nat}
    (hValue : content (context.view machine) = some value) :
    ∃ count last, Machine.Steps count machine context.listing.size last after.listing.size ∧
      last.register? register = some value ∧ after.Suits code last ∧
      context.Preserves after machine last := by
  have hTurns := hTakes.turns
  have hDraft : after.draft.FilledBy ⟨code, after.emissions⟩ :=
    ⟨hFilled, fun _ hEmission _ => hEmission⟩
  rcases hTurns.reaches _ _ ⟨value, hValue, rfl⟩ _ hDraft machine.snapshot
    (shows_view hSound hSuits.agrees) with ⟨count, finish, hPasses, hShows⟩
  -- The picture of the machine says nothing about held registers.
  have hBelow : (context.view machine).Below ((context.view machine).hold register value) :=
    ⟨rfl, rfl, fun _ _ hScratch => hScratch, fun _ _ hNone => absurd hNone nofun, rfl, rfl⟩
  rcases hSuits.follows hSound hTurns.sound hTurns.setting hTurns.quiet.options hPasses.runs
    (hShows.restrict hBelow) with ⟨last, hSteps, hMatches, hSetup, hPreserves⟩
  have hLast := hSuits.later hTurns.sound hTurns.quiet.options hShows hMatches hSetup
  rcases hShows.held register value (Picture.held_hold_self _ register value) with
    ⟨hHolds, hHeld⟩
  rcases hTurns.sound.store.allocatable_of_holds hHolds with ⟨hLow, hHigh⟩
  rw [hTurns.sound.size] at hHigh
  have hRead := hMatches.register? (Int.le_of_lt hLow) (Int.lt_of_lt_of_le hHigh hLast.registers)
  rw [hHeld] at hRead
  exact ⟨count, last, hSteps, hRead, hLast, hPreserves⟩

/-- A calculation over placed operands is compiled exactly where the loop cells it needs are
free.  On every machine about which all that is known is right and on which the calculation has
a value, its code runs to the line behind it and leaves the value in the register that was
returned, the only one that is held.  Then all that is known is right again, and every name,
every cell of an array and every loop cell in use has the number it had. -/
theorem calculate_computes (hSound : context.Sound) (hBalanced : context.Balanced)
    (hHolding : context.Holding []) {calculation : Calculation}
    (hPlaced : calculation.Placed context.setting) :
    ((∃ register after, (Generating.calculate calculation).run.run context =
        (.ok register, after)) ↔ context.setting.Vacant calculation.cells) ∧
    ∀ register after, (Generating.calculate calculation).run.run context = (.ok register, after) →
      after.Sound ∧ after.Balanced ∧ after.Holding [register] ∧
      after.setting = context.setting ∧
      ∀ code machine value, after.listing.FilledBy code → context.Suits code machine →
        calculation.value? (context.view machine) = some value →
        ∃ count last, Machine.Steps count machine context.listing.size last after.listing.size ∧
          last.register? register = some value ∧ after.Suits code last ∧
          context.Preserves after machine last := by
  have hEnsures := calculate_ensures hSound hHolding hPlaced
  constructor
  · exact (Generating.calculate_costs hSound hBalanced hPlaced).succeeds_iff hEnsures
  · intro register after hRun
    have hTakes := hEnsures.of_run hRun
    refine ⟨hTakes.turns.sound, Generating.Orderly.balanced context register after hRun hBalanced,
      hTakes.holding, hTakes.turns.setting, ?_⟩
    intro code machine value hFilled hSuits hValue
    exact hTakes.computes hSound hFilled hSuits hValue

/-! ### Two numbers that were read -/

def ratio : Program :=
  let dividend : Reference := ⟨default, "a", none⟩
  let divisor : Reference := ⟨default, "b", none⟩
  ⟨default, [⟨default, "a", none⟩, ⟨default, "b", none⟩, ⟨default, "q", none⟩],
    [ .read default dividend,
      .read default divisor,
      .assign default ⟨default, "q", none⟩
        (.operation default (.reference dividend) .div (.reference divisor)) ]⟩

def afterReading : Context :=
  let opened := ((Generating.declareAll ratio.declarations).run.run (empty .standard)).2
  let behind (name : String) (context : Context) : Context :=
    let command := .read default ⟨default, name, none⟩
    (Generating.tidyUp.run.run ((Generating.compileCommand command).run.run context).2).2
  behind "b" (behind "a" opened)

def startingWith (code : List Instruction) (registers : List Nat) : Machine where
  code := code.toArray
  registers := registers.toArray
  memory := ∅
  limit := Machine.defaultStepLimit
  input := none
  sink := .discard
  output := #[]
  steps := 0
  cost := 0
  profile := none
  cancelled := false

theorem afterReading_standing : ∃ (opened : Context) (bases : Bases),
    opened.Standing afterReading bases ⟨ratio.declarations, []⟩ := by
  have hVisits : ∃ command,
      Generating.VisitsIn ratio (empty .standard) [] command afterReading := by
    refine ⟨_, _, Generating.run_eq_ok_of_isSome ?_, .later_of_isSome ?_ ?_
      (.later_of_isSome ?_ ?_ .here)⟩
    all_goals decide +kernel
  rcases hVisits with ⟨command, hVisits⟩
  exact standing_of_visitsIn (by decide) (by decide) hVisits

/-- Both numbers are in registers only. -/
theorem afterReading_suits {code : List Instruction} {registers : List Nat} {lines : Nat}
    (hEnough : 8 ≤ registers.length)
    (hWithin : ∀ instruction ∈ code, instruction.Within registers.length lines) :
    afterReading.Suits code (startingWith code registers) := by
  rcases afterReading_standing with ⟨_, _, hStanding⟩
  have hOptions : afterReading.options.registers = 8 := by decide +kernel
  refine ⟨⟨rfl, fun instruction hMem => ⟨lines, hWithin instruction hMem⟩⟩, rfl, ?_,
    agrees_of_uncached hStanding.prepared.toSound (by decide +kernel) (by decide +kernel) _⟩
  rw [hOptions]
  exact Int.ofNat_le.mpr hEnough

theorem afterReading_cells :
    afterReading.setting.cell? "a" = some (.scalar, ⟨0, 1⟩, 4096) ∧
      afterReading.setting.cell? "b" = some (.scalar, ⟨1, 1⟩, 4097) := by
  decide +kernel

theorem afterReading_reading? (code : List Instruction) (first second : Nat) (rest : List Nat) :
    afterReading.store.reading? (startingWith code (0 :: first :: second :: rest)) "a" =
        some first ∧
      afterReading.store.reading? (startingWith code (0 :: first :: second :: rest)) "b" =
        some second := by
  rcases afterReading_standing with ⟨_, _, hStanding⟩
  have hLinked := hStanding.prepared.store.toLinked
  constructor
  · have hOccupant : afterReading.store.occupant? 1 = some ⟨0, 1⟩ := by decide +kernel
    exact Store.reading?_of_occupant hLinked afterReading_cells.1 (by decide +kernel) hOccupant
  · have hOccupant : afterReading.store.occupant? 2 = some ⟨1, 1⟩ := by decide +kernel
    exact Store.reading?_of_occupant hLinked afterReading_cells.2 (by decide +kernel) hOccupant

def readQuotient : Calculation :=
  .operation (.scalar ⟨"a", ⟨0, 1⟩, 4096⟩) .div (.scalar ⟨"b", ⟨1, 1⟩, 4097⟩)

/-- A machine that has read 17 and 5 leaves 3 in the register of the quotient.  Both numbers are
in registers before and in their cells afterwards. -/
theorem readQuotient_calculate_computes :
    ∃ (after : Context) (code : List Instruction),
      (Generating.calculate readQuotient).run.run afterReading = (.ok 3, after) ∧
      ∃ count last,
        Machine.Steps count (startingWith code [0, 17, 5, 0, 0, 0, 0, 0]) 2 last 62 ∧
        last.register? 3 = some 3 ∧ after.store.reading? last "a" = some 17 ∧
        after.store.reading? last "b" = some 5 := by
  rcases afterReading_standing with ⟨_, _, hStanding⟩
  have hTidy := hStanding.prepared.toTidy
  have hPlaced : readQuotient.Placed afterReading.setting :=
    ⟨⟨.scalar, 4096, afterReading_cells.1, rfl⟩, ⟨.scalar, 4097, afterReading_cells.2, rfl⟩⟩
  have hComputes :=
    (calculate_computes hTidy.toSound hStanding.balanced hTidy.holding hPlaced).2
  let after := ((Generating.calculate readQuotient).run.run afterReading).2
  let code := after.listing.fill 0
  have hRun : (Generating.calculate readQuotient).run.run afterReading = (.ok 3, after) := by
    have hRegister : ((Generating.calculate readQuotient).run.run afterReading).1.toOption =
        some 3 := by decide +kernel
    rcases Generating.run_eq_of_isSome (Option.isSome_of_eq_some hRegister) with ⟨_, hRun⟩
    rw [hRun] at hRegister
    cases hRegister
    exact hRun
  have hWithin : ∀ instruction ∈ code, instruction.Within 8 62 := by decide +kernel
  have hReadings := afterReading_reading? code 17 5 [0, 0, 0, 0, 0]
  have hValue : readQuotient.value? (afterReading.view
      (startingWith code [0, 17, 5, 0, 0, 0, 0, 0])) = some 3 :=
    Operand.combine?_eq_some_iff.mpr ⟨17, 5, hReadings.1, hReadings.2, rfl⟩
  have hSuits : afterReading.Suits code (startingWith code [0, 17, 5, 0, 0, 0, 0, 0]) :=
    afterReading_suits (Nat.le_refl 8) hWithin
  rcases hComputes 3 after hRun with ⟨-, -, -, -, hEvery⟩
  rcases hEvery code _ 3 (Listing.filledBy_fill _ 0) hSuits hValue with
    ⟨count, last, hSteps, hRead, -, hPreserves⟩
  have hStart : afterReading.listing.size = 2 := by decide +kernel
  have hEnd : after.listing.size = 62 := by decide +kernel
  rw [hStart, hEnd] at hSteps
  exact ⟨after, code, hRun, count, last, hSteps, hRead, hPreserves.names "a" 17 hReadings.1,
    hPreserves.names "b" 5 hReadings.2⟩

end Context

end RegisterCompiler
