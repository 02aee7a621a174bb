/-
Conditions branch as their relation says.

Testing a condition opens one label.  A machine about which all that is known is right comes to
the line behind the test where the relation holds, and goes where the jump of the label leads
where it fails.  Either way every name has its number in its memory cell, and no register
caches a name or is held.  The label is a fake one only if the relation always holds.
-/

import RegisterCompiler.Proofs.Generator.Evaluation

set_option autoImplicit false

namespace RegisterCompiler

namespace Context

/-- A context in which no register caches a name or is held, and every name is up to date. -/
structure Flushed (context : Context) : Prop where
  sound : context.Sound
  unbound : ∀ register, context.store.occupant? register = none
  released : context.store.heldRegisters = []
  fresh : ∀ name entry, context.store.symbols.lookup? name = some entry → entry.fresh = true

/-- All readings are preserved, and every name has its number in its memory cell. -/
structure Flushes (before after : Context) (machine last : Machine) : Prop
    extends before.Preserves after machine last where
  current : ∀ name kind handle address value,
    before.setting.cell? name = some (kind, handle, address) →
    before.store.reading? machine name = some value → last.memory[address.toNat]? = some value

variable {context before after : Context} {machine last : Machine}

private theorem Tidy.flushed (hTidy : context.Tidy) (hFlat : context.Flat) : context.Flushed where
  sound := hTidy.toSound
  unbound := hFlat
  released := hTidy.heldRegisters_eq_nil
  fresh := by
    intro name entry hEntry
    cases hFresh : entry.fresh with
    | true => rfl
    | false =>
        rcases hTidy.store.stale name entry hEntry hFresh with
          ⟨handle, register, -, hOccupant⟩
        rw [hFlat register] at hOccupant
        contradiction

private theorem Preserves.flushes (hPreserves : before.Preserves after machine last)
    (hFlushed : after.Flushed) (hSetting : after.setting = before.setting) :
    before.Flushes after machine last where
  toPreserves := hPreserves
  current := by
    intro name kind handle address value hCell hReading
    have hStill : after.store.setting.cell? name = some (kind, handle, address) := by
      rw [show after.store.setting = before.setting from hSetting]
      exact hCell
    rcases Store.exists_of_cell? hStill with ⟨entry, _, hEntry, -, -, -⟩
    have hFresh : after.store.symbols.isFresh name = true :=
      (SymbolTable.isFresh_eq hEntry).trans (hFlushed.fresh name entry hEntry)
    rw [← Store.reading?_of_isFresh hStill hFresh]
    exact hPreserves.names name value hReading

namespace Branches

variable {label : Label} {holds? : Picture → Option Bool}
  (hBranches : Branches before after label holds?) (hSound : before.Sound)
  (hFlushed : after.Flushed) {code : List Instruction}
  (hFilled : after.listing.FilledBy code) (hSuits : before.Suits code machine)

include hBranches hSound hFlushed hFilled hSuits

private theorem goesOn (hHolds : holds? (before.view machine) = some true) :
    ∃ count last, Machine.Steps count machine before.listing.size last after.listing.size ∧
      after.Suits code last ∧ before.Flushes after machine last := by
  have hDraft : after.draft.FilledBy ⟨code, after.emissions⟩ :=
    ⟨hFilled, fun _ hEmission _ => hEmission⟩
  rcases hBranches.holds _ hHolds _ hDraft machine.snapshot (shows_view hSound hSuits.agrees) with
    ⟨count, finish, hPasses, hShows⟩
  -- A picture of a machine has no held registers to drop.
  have hSame : (before.view machine).dropAll = before.view machine := rfl
  rw [hSame] at hShows
  rcases hSuits.follows hSound hFlushed.sound hBranches.setting hBranches.extended.options
    hPasses.runs hShows with ⟨last, hSteps, hMatches, hSetup, hPreserves⟩
  exact ⟨count, last, hSteps,
    hSuits.later hFlushed.sound hBranches.extended.options hShows hMatches hSetup,
    hPreserves.flushes hFlushed hBranches.setting⟩

private theorem jumps (hFails : holds? (before.view machine) = some false) {target : Int}
    (hLands : label.Lands code target) :
    ∃ count last, Machine.Steps count machine before.listing.size last target ∧
      Suits { after with pointer := none } code last ∧ before.Flushes after machine last := by
  have hDraft : after.draft.FilledBy ⟨code, after.emissions⟩ :=
    ⟨hFilled, fun _ hEmission _ => hEmission⟩
  rcases hBranches.fails _ hFails _ target hDraft hLands machine.snapshot
    (shows_view hSound hSuits.agrees) with ⟨count, finish, hPasses, hCoherent⟩
  have hSame : (before.view machine).dropAll = before.view machine := rfl
  rw [hSame] at hCoherent
  have hForgotten : Context.Sound { after with pointer := none } :=
    ⟨hFlushed.sound.store, hFlushed.sound.size, hFlushed.sound.dynamics,
      hFlushed.sound.distinct, hFlushed.sound.recorded⟩
  rcases hSuits.follows hSound hFlushed.sound hBranches.setting hBranches.extended.options
    hPasses.runs hCoherent with ⟨last, hSteps, hMatches, hSetup, hPreserves⟩
  exact ⟨count, last, hSteps,
    hSuits.later hForgotten hBranches.extended.options hCoherent hMatches hSetup,
    hPreserves.flushes hFlushed hBranches.setting⟩

end Branches

/-- What testing a condition does: one label more is open, no register caches a name or is held
and every name is up to date.  On every machine about which all that is known is right, where
the condition holds the code leads to the line behind it, and where it fails to the target of
the jump of the label; all readings are preserved and in the memory cells.  The label is a fake
one only if the condition holds whatever the values are that are not known. -/
structure Decides (context after : Context) (bases : Bases) (condition : Condition)
    (label : Label) : Prop where
  labels : after.labels = label :: context.labels
  flushed : after.Flushed
  setting : after.setting = context.setting
  kind : label.kind = .whenFalse ∨ label.kind = .fake
  always : label.kind = .fake → ∀ valuation : Valuation, context.Knows valuation.scalar →
    condition.holds? bases valuation = some true
  holds : ∀ code machine, after.listing.FilledBy code → context.Suits code machine →
    context.Knows (context.store.reading? machine) →
    condition.holds? bases (context.view machine).valuation = some true →
    ∃ count last, Machine.Steps count machine context.listing.size last after.listing.size ∧
      after.Suits code last ∧ context.Flushes after machine last
  fails : ∀ code machine, after.listing.FilledBy code → context.Suits code machine →
    context.Knows (context.store.reading? machine) →
    condition.holds? bases (context.view machine).valuation = some false →
    label.kind = .whenFalse ∧ ∀ target, JumpsTo code label.slot.toNat target →
      ∃ count last, Machine.Steps count machine context.listing.size last target ∧
        Suits { after with pointer := none } code last ∧ context.Flushes after machine last

/-- The test of a condition decides it, or code generation stops: with a complaint, which for a
legal condition is that a known index is beyond its array, or because the loop cells that the
test needs are not free. -/
theorem testCondition_decides (hTidy : context.Tidy) (hBalanced : context.Balanced)
    {bases : Bases} (hBases : context.setting.HasBases bases) (condition : Condition) :
    (∀ after, (Generating.testCondition condition).run.run context = (.ok (), after) →
      ∃ label, context.Decides after bases condition label) ∧
    ∀ fault after, (Generating.testCondition condition).run.run context = (.error fault, after) →
      (∃ complaint, fault = .misuse complaint ∧ ∀ names, context.setting.Scopes names →
        condition.Legal names → Generating.Overrun
          (condition.left.references ++ condition.right.references) names context complaint) ∨
      ¬context.setting.Vacant (condition.cells bases context.knows?) := by
  have hSound := hTidy.toSound
  have hOpens := testCondition_opens hTidy hBases condition
  constructor
  · intro after hRun
    rcases hOpens.of_run hRun with ⟨label, holds?, hBranches, hAfter, hMeaning, hKind⟩
    have hFlushed := hAfter.flushed hBranches.flat
    refine ⟨label, hBranches.labels, hFlushed, hBranches.setting, ?_, ?_, ?_, ?_⟩
    · rcases hKind with hJump | ⟨hFake, -⟩
      · exact .inl hJump
      · exact .inr hFake
    · intro hFake valuation hKnows
      rcases hKind with hJump | ⟨-, hAlways⟩
      · rw [hFake] at hJump
        contradiction
      · let picture : Picture :=
          ⟨valuation.scalar, valuation.cell, fun _ => none, fun _ => none, none, []⟩
        exact (hMeaning picture hKnows).symm.trans (hAlways picture)
    · intro code machine hFilled hSuits hKnows hHolds
      rw [← hMeaning _ hKnows] at hHolds
      exact hBranches.goesOn hSound hFlushed hFilled hSuits hHolds
    · intro code machine hFilled hSuits hKnows hFails
      rw [← hMeaning _ hKnows] at hFails
      rcases hKind with hJump | ⟨-, hAlways⟩
      · refine ⟨hJump, fun target hTarget => ?_⟩
        apply hBranches.jumps hSound hFlushed hFilled hSuits hFails
        intro slot hSlot
        have hOnly : slot = label.slot.toNat := by simpa [Label.slots, hJump] using hSlot
        rw [hOnly]
        exact hTarget
      · rw [hAlways] at hFails
        contradiction
  · intro fault after hRun
    unfold Generating.Ensures at hOpens
    rw [hRun] at hOpens
    cases fault with
    | misuse complaint =>
        refine .inl ⟨complaint, rfl, fun names hScopes hLegal => ?_⟩
        have hResolving : Resolving context context names :=
          ⟨hSound, hSound, hScopes, rfl, rfl, rfl⟩
        have hJudges := Generating.testCondition_judges hResolving hBases condition
        exact hJudges.refuses complaint after hRun hLegal
    | _ =>
        have hCosts := Generating.testCondition_costs hSound hBases hBalanced condition
        exact .inr (hCosts.sober _ after hRun hOpens)

private theorem knows_of_unknown (hSound : context.Sound)
    (hUnknown : ∀ entry ∈ context.store.arena.entries, entry.2.known? = none)
    (scalar : String → Option Nat) : context.Knows scalar := by
  intro _ name handle known _ hKnown
  have hFound : (context.store.arena.get? handle).bind Value.known? = some known := by
    simp only [setting, Store.setting, Option.ite_none_right_eq_some] at hKnown
    exact hKnown.2
  rcases Option.bind_eq_some_iff.mp hFound with ⟨value, hValue, hSome⟩
  have hNone := hUnknown _ ((Arena.mem_entries_iff hSound.store.arena).mpr hValue)
  rw [hSome] at hNone
  contradiction

/-! ### Two numbers that were read -/

def readAtMost : Condition :=
  ⟨default, .reference ⟨default, "a", none⟩, .lessEqual, .reference ⟨default, "b", none⟩⟩

private theorem readAtMost_holds? (bases : Bases) {first second : Nat}
    (hFirst : context.store.reading? machine "a" = some first)
    (hSecond : context.store.reading? machine "b" = some second) :
    readAtMost.holds? bases (context.view machine).valuation = some (decide (first ≤ second)) := by
  have hLeft : readAtMost.left.value? bases (context.view machine).valuation = some first := hFirst
  have hRight : readAtMost.right.value? bases (context.view machine).valuation = some second :=
    hSecond
  rw [Condition.holds?, hLeft, hRight]
  simp [readAtMost, Relation.holds]

/-- A machine that has read 5 and 17 goes on behind the test whether the first number is at most
the second, and one that has read 17 and 5 takes the jump, here to line 40.  Both numbers are in
registers before and in their cells afterwards. -/
theorem readAtMost_testCondition_decides :
    ∃ (after : Context) (code : List Instruction),
      (Generating.testCondition readAtMost).run.run afterReading = (.ok (), after) ∧
      after.labels = [⟨.whenFalse, 21⟩] ∧ after.Flushed ∧
      (∃ count last, Machine.Steps count (startingWith code [0, 5, 17, 0, 0, 0, 0, 0]) 2 last 22 ∧
        last.memory[4096]? = some 5 ∧ last.memory[4097]? = some 17) ∧
      ∃ count last, Machine.Steps count (startingWith code [0, 17, 5, 0, 0, 0, 0, 0]) 2 last 40 ∧
        last.memory[4096]? = some 17 ∧ last.memory[4097]? = some 5 := by
  rcases afterReading_standing with ⟨_, bases, hStanding⟩
  have hDecides := (testCondition_decides hStanding.prepared.toTidy hStanding.balanced
    hStanding.prepared.bases readAtMost).1
  let after := ((Generating.testCondition readAtMost).run.run afterReading).2
  let code := after.listing.fill 40
  have hRun : (Generating.testCondition readAtMost).run.run afterReading = (.ok (), after) :=
    Generating.run_eq_ok_of_isSome (by decide +kernel)
  rcases hDecides after hRun with ⟨label, hLabel⟩
  have hLabels : after.labels = [⟨.whenFalse, 21⟩] := by decide +kernel
  have hSlot : label = ⟨.whenFalse, 21⟩ :=
    (List.cons.inj (hLabel.labels.symm.trans hLabels)).1
  have hFilled : after.listing.FilledBy code := Listing.filledBy_fill _ 40
  have hWithin : ∀ instruction ∈ code, instruction.Within 8 40 := by decide +kernel
  have hSuits : ∀ first second : Nat,
      afterReading.Suits code (startingWith code [0, first, second, 0, 0, 0, 0, 0]) :=
    fun _ _ => afterReading_suits (Nat.le_refl 8) hWithin
  have hKnows : ∀ scalar, afterReading.Knows scalar :=
    knows_of_unknown hStanding.prepared.toSound (by decide +kernel)
  have hStart : afterReading.listing.size = 2 := by decide +kernel
  have hEnd : after.listing.size = 22 := by decide +kernel
  have hTarget : JumpsTo code label.slot.toNat 40 := by
    rw [hSlot]
    exact ⟨.jump 40, by decide +kernel, rfl⟩
  have hReadings := fun first second => afterReading_reading? code first second [0, 0, 0, 0, 0]
  have hMeaning := fun first second =>
    readAtMost_holds? bases (hReadings first second).1 (hReadings first second).2
  -- Whatever the numbers are, they end up in their cells.
  have hCells : ∀ {first second : Nat} {last : Machine}, afterReading.Flushes after
      (startingWith code [0, first, second, 0, 0, 0, 0, 0]) last →
      last.memory[4096]? = some first ∧ last.memory[4097]? = some second := by
    intro first second last hFlushes
    have hReadings := hReadings first second
    exact ⟨hFlushes.current _ _ _ _ _ afterReading_cells.1 hReadings.1,
      hFlushes.current _ _ _ _ _ afterReading_cells.2 hReadings.2⟩
  refine ⟨after, code, hRun, hLabels, hLabel.flushed, ?_, ?_⟩
  · rcases hLabel.holds code _ hFilled (hSuits 5 17) (hKnows _) (hMeaning 5 17) with
      ⟨count, last, hSteps, -, hFlushes⟩
    rw [hStart, hEnd] at hSteps
    exact ⟨count, last, hSteps, hCells hFlushes⟩
  · rcases hLabel.fails code _ hFilled (hSuits 17 5) (hKnows _) (hMeaning 17 5) with
      ⟨-, hEvery⟩
    rcases hEvery 40 hTarget with ⟨count, last, hSteps, -, hFlushes⟩
    rw [hStart] at hSteps
    exact ⟨count, last, hSteps, hCells hFlushes⟩

end Context

end RegisterCompiler
