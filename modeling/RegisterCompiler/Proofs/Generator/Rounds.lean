/-
The rounds of a counting loop.

A round begins with the number of rounds that are left in a scratch cell and the value
of the variable in its own cell.  The test leaves the loop when no round is left; the
step at the end of a round changes both cells and goes back to the test.  Closing the
loop takes the name and the cells back, so the setting is what it was before the loop.
-/

import RegisterCompiler.Proofs.Generator.Counting

set_option autoImplicit false

namespace RegisterCompiler

open Generating (Ensures LoopCells)

namespace Context

variable {context : Context}

/-! ### The test -/

/-- Holding a register caches nothing. -/
theorem Flat.of_acquire (hFlat : context.Flat) {after : Context} {register : Int}
    {registers : List Int} (hHolding : after.Holding (register :: registers))
    (hOthers : ∀ other, other ≠ register →
      after.store.register? other = context.store.register? other) : after.Flat := by
  intro other
  by_cases hSame : other = register
  · rw [hSame]
    exact Store.occupant?_of_holds ((hHolding.held register).mp List.mem_cons_self)
  · have hHere := hFlat other
    unfold Store.occupant? at hHere ⊢
    rw [hOthers other hSame]
    exact hHere

private theorem Flat.vacate (hFlat : context.Flat) {register : Int}
    (hRegister : context.store.Allocatable register) (state : RegisterState) :
    Flat { context with store := context.store.vacate register state } := by
  intro other
  rw [Store.occupant?_vacate hRegister]
  split
  · rfl
  · exact hFlat other

private theorem keeps_of_scratch {picture : Picture} {cell : Address} {value : Nat}
    (hValue : picture.scratch cell = some value) : context.Keeps picture cell.toNat value :=
  fun _ hShows => (hShows.scratch cell value hValue).2

def roundLeft (counter : Address) (picture : Picture) : Option Bool :=
  (picture.scratch counter).map fun rounds => decide (rounds ≠ 0)

theorem testLoop_ensures (hTidy : context.Tidy) (hFlat : context.Flat) (cells : LoopCells) :
    Ensures (Generating.testLoop cells) context fun _ after =>
      ∃ label, Branches context after label (roundLeft cells.counter) ∧ after.Tidy := by
  refine .bind (acquire_ensures hTidy.toSound hTidy.holding (by decide)) ?_
  rintro register taken ⟨hTaken, hHolding, -, hOthers⟩
  have hHolds := (hHolding.held register).mp List.mem_cons_self
  refine .bind (loadInto_ensures hTaken.sound hHolds cells.counter.toNat) ?_
  rintro - loaded ⟨hLoaded, hStore, -⟩
  have hLoadedFlat : loaded.Flat := by
    rw [Flat, hStore]
    exact hFlat.of_acquire hHolding hOthers
  have hLoadedHolds : loaded.store.Holds register := by
    rw [hStore]
    exact hHolds
  have hRegister := hLoaded.sound.store.allocatable_of_holds hLoadedHolds
  have hWorks := hTaken.toWorks.trans hLoaded.toWorks
  have hBranches : Branches context
      ((loaded.addJump .jzero [register]).openLabel .returning loaded.listing.size)
      ⟨.returning, loaded.listing.size⟩ (roundLeft cells.counter) := by
    refine .jumpAtZero (by decide) (fun place hPlace => hPlace) hWorks hLoadedFlat hRegister ?_
    intro picture holds hHolds
    obtain ⟨rounds, hRounds, rfl⟩ := Option.map_eq_some_iff.mp hHolds
    refine ⟨rounds, decide_eq_true_iff, ?_⟩
    refine ((hTaken.reaches _ _ rfl).trans (hLoaded.reaches picture _
      ⟨rounds, keeps_of_scratch hRounds, rfl⟩) hLoaded.grows).mono (fun _ hShows => hShows) ?_
    intro snapshot hShows
    exact ⟨hShows.restrict (Picture.below_dropAll rfl rfl rfl rfl rfl),
      (hShows.held register rounds (picture.held_hold_self register rounds)).2⟩
  have hOpenedSound := hBranches.extended.sound
  have hFreed := Turns.release hOpenedSound hLoadedHolds
  refine ensures_emitJump (.modify_bind (.onStore (StoreAction.release_gives hRegister)
    ⟨_, hBranches.before_still (hFreed.mono ?_) (hBranches.flat.vacate hRegister _), hFreed.sound,
      ?_⟩))
  · rintro start _ rfl
    exact ⟨_, rfl, Picture.below_dropAll rfl rfl rfl rfl rfl⟩
  · have hHeld : ((loaded.addJump .jzero [register]).openLabel .returning
        loaded.listing.size).Holding [register] := hHolding.congr (congrArg Store.registers hStore)
    exact hHeld.release_head hOpenedSound List.not_mem_nil

/-! ### The step -/

/-- The variable of a loop gets a new value in its cell. -/
theorem Turns.advance (hSound : context.Sound) (hFlat : context.Flat) {register : Int}
    (hHolds : context.store.Holds register) {iterator : String} {kind : SymbolKind}
    {handle : Handle} {cell : Address}
    (hCell : context.setting.cell? iterator = some (kind, handle, cell))
    (hPointer : context.pointer = some cell.toNat) (direction : Direction) :
    Turns context (context.add
      [.unary (if direction = .down then .dec else .inc) register, .unary .store register])
      fun start finish => ∃ value, start.held register = some value ∧
        finish = (start.hold register (direction.advance value)).setScalar iterator
          (direction.advance value) := by
  have hLinked := hSound.store.toLinked
  have hRegister := hLinked.allocatable_of_holds hHolds
  have hShape : (if direction = .down then Opcode.dec else .inc).shape = .register := by
    cases direction <;> rfl
  refine .add hSound ?_ ?_
  · refine List.forall_mem_cons.mpr ⟨ready_of_allocatable hSound hRegister hShape _,
      List.forall_mem_cons.mpr ⟨ready_of_allocatable hSound hRegister rfl _, ?_⟩⟩
    exact fun _ hNone => absurd hNone List.not_mem_nil
  · rintro start _ snapshot ⟨value, hValue, rfl⟩ hShows
    have hContent := (hShows.held register value hValue).2
    have hMoved := hShows.setHeld hLinked hHolds (direction.advance value)
    refine ⟨_, ?_, hMoved.overwriteName hLinked hCell
      (fun other hOccupant => ?_) (direction.advance value)⟩
    · have hPlace : (snapshot.setRegister register (direction.advance value)).pointer =
          cell.toNat := hMoved.pointer _ hPointer
      have hFirst : snapshot.effect?
          (.unary (if direction = .down then .dec else .inc) register) =
          some (snapshot.setRegister register (direction.advance value)) := by
        cases direction <;>
          simp [Snapshot.effect?, Instruction.unary, hContent, Direction.advance]
      simp only [Snapshot.runBlock, hFirst, Option.bind_some]
      simp only [Snapshot.effect?, Instruction.unary, hPlace,
        Snapshot.registers_setRegister_self, Option.bind_some]
    · rw [hFlat other] at hOccupant
      contradiction

structure StepsBack (before after : Context) (iterator : String) (counter : Address)
    (direction : Direction) (start : Nat) : Prop where
  tidy : after.Tidy
  flat : after.Flat
  setting : after.setting = before.setting
  labels : after.labels = before.labels
  depth : after.depth = before.depth
  loops : after.loops = before.loops
  filled : ∀ blueprint, after.draft.FilledBy blueprint → before.draft.FilledBy blueprint
  passes : ∀ blueprint, after.draft.FilledBy blueprint → ∀ picture value rounds snapshot,
    picture.scalar iterator = some value → picture.scratch counter = some (rounds + 1) →
    before.Shows picture snapshot → ∃ steps finish,
      Passes blueprint steps before.listing.size snapshot start finish ∧
        Coherent after.store none ((picture.setScalar iterator (direction.advance value)).setScratch
          counter rounds).dropAll finish

theorem stepLoop_ensures {base : Context} {slots : List Nat} (hExtends : Extends slots base context)
    (hTidy : context.Tidy) (hFlat : context.Flat) {cells : LoopCells} {iterator : String}
    {kind : SymbolKind} {handle : Handle}
    (hIterator : context.setting.cell? iterator = some (kind, handle, cells.iterator))
    (hCounter : context.setting.IsScratch cells.counter) (direction : Direction) {start : Nat}
    (hStart : start ≤ context.listing.size) :
    Ensures (Generating.stepLoop cells direction start) context fun _ after =>
      Extends slots base after ∧
        StepsBack context after iterator cells.counter direction start := by
  refine .bind (acquire_ensures hTidy.toSound hTidy.holding (by decide)) ?_
  rintro register taken ⟨hTaken, hHolding, -, hOthers⟩
  have hHolds := (hHolding.held register).mp List.mem_cons_self
  have hTakenFlat := hFlat.of_acquire hHolding hOthers
  refine .bind (loadInto_ensures hTaken.sound hHolds cells.iterator.toNat) ?_
  rintro - one ⟨hOne, hOneStore, hOnePointer⟩
  have hOneHolds : one.store.Holds register := by rw [hOneStore]; exact hHolds
  have hOneFlat : one.Flat := by rw [Flat, hOneStore]; exact hTakenFlat
  have hOneSetting : one.setting = context.setting := hOne.setting.trans hTaken.setting
  have hAdvanced := Turns.advance hOne.sound hOneFlat hOneHolds
    (by rw [hOneSetting]; exact hIterator) hOnePointer direction
  refine ensures_emitAll (.bind (loadInto_ensures hAdvanced.sound hOneHolds
    cells.counter.toNat) ?_)
  rintro - two ⟨hTwo, hTwoStore, hTwoPointer⟩
  have hTwoHolds : two.store.Holds register := by rw [hTwoStore]; exact hOneHolds
  have hTwoFlat : two.Flat := by rw [Flat, hTwoStore]; exact hOneFlat
  have hToTwo := ((hTaken.comp hOne).comp hAdvanced).comp hTwo
  have hTwoLinked := hTwo.sound.store.toLinked
  have hRegister := hTwoLinked.allocatable_of_holds hTwoHolds
  have hFront : ∀ instruction ∈ [Instruction.unary .dec register, .unary .store register],
      instruction.Ready two.options.registers (two.listing.size + 3) := by
    refine List.forall_mem_cons.mpr ⟨ready_of_allocatable hTwo.sound hRegister rfl _,
      List.forall_mem_cons.mpr ⟨ready_of_allocatable hTwo.sound hRegister rfl _, ?_⟩⟩
    exact fun _ hNone => absurd hNone List.not_mem_nil
  obtain ⟨hJumped, hBack⟩ := (hExtends.trans hToTwo.extends).jumpBack
    (Nat.le_trans hStart hToTwo.grows.size) hFront
  have hFreed := Turns.release hJumped.sound hTwoHolds
  have hHeld : (two.add ([.unary .dec register, .unary .store register] ++ [.jump start])).Holding
      [register] := hHolding.congr (by
    rw [show (two.add _).store = two.store from rfl, hTwoStore]
    exact congrArg Store.registers hOneStore)
  refine ensures_emitAll (.onStore (StoreAction.release_gives hRegister) ⟨?_, ?_⟩)
  · exact (hJumped.trans hFreed.extends).perm fun slot => by simp
  · refine ⟨⟨hFreed.sound, hHeld.release_head hJumped.sound List.not_mem_nil⟩,
      hTwoFlat.vacate hRegister _, hFreed.setting.trans hToTwo.setting, hToTwo.quiet.labels,
      hToTwo.quiet.depth, hToTwo.quiet.loops, ?_, ?_⟩
    · intro blueprint hFilled
      exact hToTwo.grows.filledBy (hBack blueprint (hFreed.grows.filledBy hFilled)).1
    · intro blueprint hFilled picture value rounds snapshot hValue hRounds hShows
      obtain ⟨hFilledTwo, hJumps⟩ := hBack blueprint (hFreed.grows.filledBy hFilled)
      have hKeepsValue : taken.Keeps picture cells.iterator.toNat value := by
        have hCell : taken.setting.cell? iterator = some (kind, handle, cells.iterator) := by
          rw [hTaken.setting]
          exact hIterator
        obtain ⟨entry, hEntry, -⟩ :=
          Option.map_eq_some_iff.mp (Setting.cell?_eq_some_iff.mp hCell).1
        exact fun there hThere => hThere.memory _ _ _ _ _ hCell
          (hTakenFlat.isFresh hTaken.sound hEntry) hValue
      -- The variable moves on, and the number of rounds is loaded behind it.
      let moved := (picture.hold register (direction.advance value)).setScalar iterator
        (direction.advance value)
      have hMoved : ((picture.hold register value).hold register
          (direction.advance value)).setScalar iterator (direction.advance value) = moved := by
        rw [Picture.hold_hold]
      have hCountStill : moved.scratch cells.counter = some (rounds + 1) := hRounds
      obtain ⟨steps, arrival, hPasses, hArrival⟩ := hToTwo.reaches picture
        (moved.hold register (rounds + 1))
        ⟨moved, ⟨picture.hold register value, ⟨picture, rfl, value, hKeepsValue, rfl⟩, value,
          picture.held_hold_self register value, hMoved.symm⟩, rounds + 1,
          keeps_of_scratch hCountStill, rfl⟩ blueprint hFilledTwo snapshot hShows
      have hContent := (hArrival.held register (rounds + 1)
        (Picture.held_hold_self _ _ _)).2
      have hLowered := hArrival.setHeld hTwoLinked hTwoHolds rounds
      have hScratch : two.setting.IsScratch cells.counter := by
        rw [hToTwo.setting]
        exact hCounter
      have hStored := hLowered.storeScratch hTwoLinked hScratch rounds
      have hRun : arrival.runBlock [.unary .dec register, .unary .store register] =
          some ((arrival.setRegister register rounds).setCell cells.counter.toNat rounds) := by
        have hPlace : (arrival.setRegister register rounds).pointer = cells.counter.toNat :=
          hLowered.pointer _ hTwoPointer
        simp only [Snapshot.runBlock, Snapshot.effect?, Instruction.unary, hContent,
          Nat.add_sub_cancel, Option.bind_some, hPlace, Snapshot.registers_setRegister_self]
      refine ⟨_, _, hPasses.trans (hJumps _ arrival _ hArrival hRun), ?_⟩
      have hEnd := shows_of_flat hTwo.sound hTwoFlat (hTwoFlat.vacate hRegister .free)
        (.of_eq hFreed.setting) hStored
      exact hEnd

end Context

/-! ### The end of the loop -/

def Setting.insideLoop (setting : Setting) (iterator : String) (cells : LoopCells)
    (owner handle : Handle) : Setting :=
  ((setting.claim cells.counter owner).claim cells.iterator handle).bindName iterator .iterator
    handle

/-- A setting in which a counting loop can be opened with given cells. -/
structure Setting.Admits (setting : Setting) (iterator : String) (cells : LoopCells)
    (owner handle : Handle) : Prop where
  fresh : setting.declared iterator = none
  counter : setting.Spare cells.counter [owner]
  variableCell : (setting.claim cells.counter owner).Spare cells.iterator [handle]

namespace Setting.Admits

variable {setting : Setting} {iterator : String} {cells : LoopCells} {owner handle : Handle}
  (hAdmits : setting.Admits iterator cells owner handle)

include hAdmits

private theorem cells_ne : cells.iterator ≠ cells.counter := by
  intro hSame
  have hFree := hAdmits.variableCell.owners cells.iterator (Nat.le_refl _) (Nat.lt_succ_self _)
  simp [Setting.claim, hSame] at hFree

private theorem handle_ne : handle ≠ owner := by
  rintro rfl
  have hFree := (hAdmits.variableCell.values handle List.mem_cons_self).1
  simp [Setting.claim] at hFree

theorem unnamed : setting.nameOf handle = none ∧ setting.nameOf owner = none :=
  ⟨(hAdmits.variableCell.values handle List.mem_cons_self).2,
    (hAdmits.counter.values owner List.mem_cons_self).2⟩

omit hAdmits in
theorem cell?_insideLoop : (setting.insideLoop iterator cells owner handle).cell? iterator =
    some (.iterator, handle, cells.iterator) :=
  Setting.cell?_eq_some_iff.mpr ⟨Function.update_self _ _ _, Function.update_self _ _ _⟩

private theorem disclaim_insideLoop :
    (((setting.insideLoop iterator cells owner handle).unbindName iterator handle).disclaim
      cells.iterator handle).disclaim cells.counter owner = setting := by
  have hFresh : ((setting.claim cells.counter owner).claim cells.iterator handle).declared
      iterator = none := hAdmits.fresh
  have hUnnamed : ((setting.claim cells.counter owner).claim cells.iterator handle).nameOf
      handle = none := hAdmits.unnamed.1
  rw [insideLoop, Setting.unbindName_bindName hFresh hUnnamed,
    Setting.disclaim_claim (hAdmits.variableCell.owners _ (Nat.le_refl _) (Nat.lt_succ_self _))
      (hAdmits.variableCell.values handle List.mem_cons_self).1,
    Setting.disclaim_claim (hAdmits.counter.owners _ (Nat.le_refl _) (Nat.lt_succ_self _))
      (hAdmits.counter.values owner List.mem_cons_self).1]

end Setting.Admits

namespace Context

variable {context : Context}

/-- The name of a loop variable that no register caches can be taken back. -/
theorem undeclare_ensures (hSound : context.Sound) (hFlat : context.Flat) {name : String}
    {kind : SymbolKind} {handle : Handle}
    (hBound : context.setting.declared name = some (kind, .value handle))
    (hUnknown : context.setting.known handle = none) :
    Ensures (Generating.onStore (StoreAction.undeclare name)) context fun _ after =>
      after = { context with store := context.store.unbindName name handle } ∧
        Advances context after ∧ after.setting = context.setting.unbindName name handle ∧
        ∀ picture scalar snapshot, (∀ other, other ≠ name → scalar other = picture.scalar other) →
          context.Shows picture snapshot →
          after.Shows { picture with scalar := scalar } snapshot := by
  have hUncached : ∀ register, context.store.occupant? register ≠ some handle := by
    intro register hOccupant
    rw [hFlat register] at hOccupant
    contradiction
  have hSetting : (context.store.unbindName name handle).setting =
      context.setting.unbindName name handle := Store.setting_unbindName hUnknown
  refine .onStore (StoreAction.undeclare_gives hBound) ⟨rfl, .onStore hSound
    (Store.sound_unbindName hSound.store hBound hUncached hUnknown) rfl ?_, hSetting, ?_⟩
  · intro other _ hLoose
    refine ⟨hLoose.live, ?_, by rw [hSetting]; exact hLoose.unplaced⟩
    rw [hSetting]
    simp only [Setting.unbindName, Function.update_apply]
    split
    · rfl
    · exact hLoose.unnamed
  · intro picture scalar snapshot hScalar hShows
    exact Coherent.unbindName hShows hSound.store.toLinked hSetting hUncached hBound hScalar

/-- Without owners in the loop segment nothing is given back at the end of the outermost
loop. -/
theorem freeLoopCells_ensures
    (hNone : ∀ address : Address, context.setting.layout.loop.first ≤ address →
      address ≤ context.setting.layout.loop.last → context.setting.owner address = none) :
    Ensures Generating.freeLoopCells context fun _ after => after = context := by
  have hRun := StoreAction.freeLoopCells_run hNone
  refine .get ?_
  rw [hRun]
  exact .modify_bind (.pure rfl)

structure ClosesLoop (origin : Setting) (before after : Context) (iterator : String)
    (cells : LoopCells) : Prop where
  keeps : ∃ store, after = { before with store := store, loops := before.loops - 1 }
  tidy : after.Tidy
  flat : after.Flat
  setting : after.setting = { origin with known := before.setting.known }
  shows : ∀ picture scalar snapshot, (∀ other, other ≠ iterator → scalar other = picture.scalar other) →
    before.Shows picture snapshot → after.Shows ({ picture with scalar := scalar }.forget []
      [cells.iterator.toNat, cells.counter.toNat]) snapshot

namespace ClosesLoop

variable {origin : Setting} {before after : Context} {iterator : String} {cells : LoopCells}
  (hCloses : ClosesLoop origin before after iterator cells)

include hCloses

private theorem depth : after.depth = before.depth := by
  obtain ⟨store, rfl⟩ := hCloses.keeps
  rfl

private theorem loops : after.loops = before.loops - 1 := by
  obtain ⟨store, rfl⟩ := hCloses.keeps
  rfl

private theorem labels : after.labels = before.labels := by
  obtain ⟨store, rfl⟩ := hCloses.keeps
  rfl

private theorem draft : after.draft = before.draft := by
  obtain ⟨store, rfl⟩ := hCloses.keeps
  rfl

private theorem known : after.setting.known = before.setting.known := by
  rw [hCloses.setting]

end ClosesLoop

theorem closeLoop_ensures (hTidy : context.Tidy) (hFlat : context.Flat) {origin : Setting}
    {iterator : String} {cells : LoopCells} {owner handle : Handle}
    (hAdmits : origin.Admits iterator cells owner handle)
    (hInside : (origin.insideLoop iterator cells owner handle).Resembles context.setting)
    (hUnknown : context.setting.known handle = none)
    (hVacant : context.loops - 1 = 0 → ∀ address : Address, origin.layout.loop.first ≤ address →
      address ≤ origin.layout.loop.last → origin.owner address = none) :
    Ensures (Generating.closeLoop iterator cells) context fun _ after =>
      ClosesLoop origin context after iterator cells := by
  have hOwner : (origin.insideLoop iterator cells owner handle).owner cells.iterator =
      some handle := Function.update_self _ _ _
  have hBound : context.setting.declared iterator = some (.iterator, .value handle) := by
    rw [hInside.declared]
    exact Function.update_self _ _ _
  refine .bind (undeclare_ensures hTidy.toSound hFlat hBound hUnknown) ?_
  rintro - unbound ⟨hUnbound, hUnbinds, hUnboundSetting, hUnboundShows⟩
  have hOwnerNow : unbound.setting.owner cells.iterator = some handle := by
    rw [hUnboundSetting, hInside]
    exact hOwner
  refine .bind (freeAt_ensures hUnbinds.sound hOwnerNow ?_ ?_) ?_
  · rw [hUnboundSetting]
    exact Function.update_self _ _ _
  · rw [hUnboundSetting, hInside]
    exact Nat.le_of_succ_le_succ hAdmits.variableCell.last
  rintro - freed ⟨one, hFreed, hFrees, hFreedSetting, hFreedRegisters, -, hFreedShows⟩
  have hOneSetting : freed.setting =
      (context.setting.unbindName iterator handle).disclaim cells.iterator handle := by
    rw [setting, hFreed, ← hUnboundSetting]
    exact hFreedSetting
  have hCounterNow : freed.setting.owner cells.counter = some owner := by
    rw [hOneSetting, hInside]
    exact (Function.update_of_ne hAdmits.cells_ne.symm _ _).trans
      ((Function.update_of_ne hAdmits.cells_ne.symm _ _).trans (Function.update_self _ _ _))
  refine .bind (freeAt_ensures hFrees.sound hCounterNow ?_ ?_) ?_
  · rw [hOneSetting, hInside]
    exact (Function.update_of_ne hAdmits.handle_ne.symm _ _).trans
      ((Function.update_of_ne hAdmits.handle_ne.symm _ _).trans hAdmits.unnamed.2)
  · rw [hOneSetting, hInside]
    exact Nat.le_of_succ_le_succ hAdmits.counter.last
  rintro - closed ⟨two, hClosed, hCloses, hClosedSetting, hClosedRegisters, -, hClosedShows⟩
  have hTwoSetting : two.setting = { origin with known := context.setting.known } := by
    have hBack := hAdmits.disclaim_insideLoop
    rw [hClosedSetting, hOneSetting, hInside]
    exact congrArg (fun found : Setting => { found with known := context.setting.known }) hBack
  have hRegisters : two.registers = context.store.registers := by
    rw [hClosedRegisters, hFreed]
    change one.registers = _
    rw [hFreedRegisters, hUnbound]
    rfl
  let after : Context := { context with store := two, loops := context.loops - 1 }
  have hAfter : { closed with loops := closed.loops - 1 } = after := by
    rw [hClosed, hFreed, hUnbound]
  have hSound : after.Sound := by
    have hThere := hCloses.sound
    rw [hClosed, hFreed, hUnbound] at hThere
    exact ⟨hThere.store, hThere.size, hThere.dynamics, hThere.distinct, hThere.recorded⟩
  have hFlatAfter : after.Flat := by
    intro register
    have hHere := hFlat register
    unfold Store.occupant? Store.register? at hHere ⊢
    rw [show after.store.registers = context.store.registers from hRegisters]
    exact hHere
  have hCloses : ClosesLoop origin context after iterator cells := by
    refine ⟨⟨two, rfl⟩, ⟨hSound, hTidy.holding.congr hRegisters⟩, hFlatAfter, hTwoSetting, ?_⟩
    intro picture scalar snapshot hScalar hHere
    have hLast := hClosedShows _ _ (hFreedShows _ _ (hUnboundShows picture scalar snapshot hScalar
      hHere))
    rw [Picture.forget_forget] at hLast
    rw [hClosed, hFreed, hUnbound] at hLast
    exact hLast
  refine .modify_bind ?_
  rw [hAfter]
  refine .get ?_
  by_cases hOutermost : after.loops = 0
  · rw [if_pos hOutermost]
    refine (freeLoopCells_ensures ?_).mono fun _ _ hSame => hSame ▸ hCloses
    rw [hCloses.setting]
    exact hVacant hOutermost
  · rw [if_neg hOutermost]
    exact .pure hCloses

end Context

/-! ### All rounds -/

namespace Outcome

private theorem countRounds_spares {name : String} {advance : Nat → Nat}
    {run : Nat → SourceState → Outcome}
    (hRun : ∀ value state last, run value state = .finished last →
      last.scalars name = state.scalars name)
    (rounds value : Nat) (state last : SourceState)
    (hFinished : countRounds advance run rounds value state = .finished last) :
    last.scalars name = state.scalars name := by
  induction rounds generalizing value state with
  | zero =>
      cases hFinished
      rfl
  | succ rounds inductionHypothesis =>
      unfold countRounds at hFinished
      cases hRound : run value state with
      | finished between =>
          rw [hRound] at hFinished
          rw [inductionHypothesis _ between hFinished, hRun value state between hRound]
      | _ =>
          rw [hRound] at hFinished
          contradiction

end Outcome

private theorem Behaviour.Spares.forLoop {bases : Bases} {body : List Command} {name : String}
    (hBody : Behaviour.Spares (fun bound scope => Command.executeAll bases bound scope body) name)
    (span : Source.Span) (iterator : String) (first last : Atom) (direction : Direction) :
    Behaviour.Spares (fun bound scope => Command.execute bases bound scope
      (.forLoop span iterator first last direction body)) name := by
  intro bound scope state after hRun
  simp only [Command.execute] at hRun
  split at hRun
  · exact Outcome.countRounds_spares
      (fun value => hBody bound ((iterator, value) :: scope)) _ _ state after hRun
  · contradiction

/-- Code that follows every round and leaves the loop after the last follows the loop. -/
theorem follows_countRounds {blueprint : Blueprint} {least : Nat} {first last : Int}
    {shows : Nat → Nat → SourceState → Snapshot → Prop} {post : SourceState → Snapshot → Prop}
    {advance : Nat → Nat} {run : Nat → SourceState → Outcome}
    (hRound : ∀ value rounds state start, shows value (rounds + 1) state start →
      Follows blueprint least first start first (shows (advance value) rounds) (run value state))
    (hLeave : ∀ value state start, shows value 0 state start →
      Follows blueprint least first start last post (.finished state))
    (rounds value : Nat) (state : SourceState) (start : Snapshot)
    (hShows : shows value rounds state start) :
    Follows blueprint least first start last post
      (Outcome.countRounds advance run rounds value state) := by
  induction rounds generalizing value state start with
  | zero => exact hLeave value state start hShows
  | succ rounds inductionHypothesis =>
      exact (hRound value rounds state start hShows).andThen fun between arrival hThere =>
        inductionHypothesis (advance value) between arrival hThere

namespace SourceState

private theorem loopPicture_step (state : SourceState) (scope : Scope)
    (scratch : Address → Option Nat) (iterator : String) (counter : Address)
    (value next rounds : Nat) :
    (((state.loopPicture scope scratch iterator counter value (rounds + 1)).setScalar iterator
      next).setScratch counter rounds).dropAll =
        state.loopPicture scope scratch iterator counter next rounds := by
  simp only [loopPicture, picture, Picture.setScalar, Picture.setScratch, Picture.dropAll,
    scalar_valuation_cons, Function.update_idem]

/-- Behind a loop its cells are forgotten. -/
theorem below_forget_loopPicture (state : SourceState) (scope : Scope)
    {scratch : Address → Option Nat} {cell counter : Address} (hCell : scratch cell = none)
    (hCounter : scratch counter = none) (iterator : String) (value rounds : Nat) :
    (state.picture scope scratch).Below
      ({ state.loopPicture scope scratch iterator counter value rounds with
        scalar := (state.valuation scope).scalar }.forget [] [cell.toNat, counter.toNat]) := by
  refine ⟨rfl, rfl, ?_, fun _ _ hHeld => absurd hHeld nofun, rfl, rfl⟩
  intro address found hFound
  have hFound : scratch address = some found := hFound
  have hDifferent : address ≠ cell ∧ address ≠ counter := by
    constructor
    · rintro rfl
      rw [hCell] at hFound
      contradiction
    · rintro rfl
      rw [hCounter] at hFound
      contradiction
  have hKept : address.toNat ∉ [cell.toNat, counter.toNat] := by
    simp only [List.mem_cons, List.not_mem_nil, or_false, UInt64.toNat_inj, not_or]
    exact hDifferent
  simp only [Picture.forget, if_neg hKept, loopPicture, picture,
    Function.update_of_ne hDifferent.2]
  exact hFound

end SourceState

namespace Setting.Admits

variable {setting : Setting} {iterator : String} {cells : LoopCells} {owner handle : Handle}
  (hAdmits : setting.Admits iterator cells owner handle)

include hAdmits

private theorem owner_counter : setting.owner cells.counter = none :=
  hAdmits.counter.owners _ (Nat.le_refl _) (Nat.lt_succ_self _)

private theorem owner_iterator : setting.owner cells.iterator = none :=
  (Function.update_of_ne hAdmits.cells_ne _ _).symm.trans
    (hAdmits.variableCell.owners _ (Nat.le_refl _) (Nat.lt_succ_self _))

private theorem declared_insideLoop {name : String} {kind : SymbolKind} {binding : Binding}
    (hDeclared : setting.declared name = some (kind, binding)) :
    (setting.insideLoop iterator cells owner handle).declared name = some (kind, binding) := by
  have hOther : name ≠ iterator := by
    rintro rfl
    rw [hAdmits.fresh] at hDeclared
    contradiction
  exact (Function.update_of_ne hOther _ _).trans hDeclared

omit hAdmits in
theorem hasBases_insideLoop {bases : Bases} (hBases : setting.HasBases bases) :
    (setting.insideLoop iterator cells owner handle).HasBases bases := by
  intro name kind ref hDeclared
  refine hBases name kind ref ?_
  by_cases hSame : name = iterator
  · rw [hSame] at hDeclared
    have hValue := (Function.update_self _ _ _).symm.trans hDeclared
    cases hValue
  · exact (Function.update_of_ne hSame _ _).symm.trans hDeclared

theorem isScratch_insideLoop (hFault : setting.layout.fault? = none) :
    (setting.insideLoop iterator cells owner handle).IsScratch cells.counter := by
  refine ⟨?_, owner, ?_, ?_⟩
  · have hOrdered := Layout.ordered_of_fault? hFault
    have hLast := hAdmits.counter.last
    have hLoopScalars := hOrdered.loopScalars
    have hScalars := hOrdered.scalars
    have hScalarsArrays := hOrdered.scalarsArrays
    simp only [List.length_singleton] at hLast
    change cells.counter < setting.layout.arrays.first
    rw [UInt64.lt_iff_toNat_lt]
    omega
  · exact (Function.update_of_ne hAdmits.cells_ne.symm _ _).trans (Function.update_self _ _ _)
  · exact (Function.update_of_ne hAdmits.handle_ne.symm _ _).trans hAdmits.unnamed.2

end Setting.Admits

namespace Context

variable {context : Context}

theorem OpensLoop.admits {before after : Context} {iterator : String} {cells : LoopCells}
    {owner handle : Handle} (hOpens : OpensLoop before after iterator cells owner handle) :
    before.setting.Admits iterator cells owner handle :=
  ⟨hOpens.fresh, hOpens.counter, hOpens.iteratorCell⟩

private theorem Scoped.insideLoop {scope : Scope} (hScoped : context.Scoped scope)
    {iterator : String} {cells : LoopCells} {owner handle : Handle}
    (hAdmits : context.setting.Admits iterator cells owner handle) {inside : Context}
    (hSetting : inside.setting = context.setting.insideLoop iterator cells owner handle)
    (value : Nat) : inside.Scoped ((iterator, value) :: scope) := by
  intro name hLookup
  rw [hSetting]
  by_cases hSame : name = iterator
  · rw [hSame]
    exact ⟨.value handle, Function.update_self _ _ _⟩
  · have hOther : (name == iterator) = false := beq_eq_false_iff_ne.mpr hSame
    rw [List.lookup_cons, hOther] at hLookup
    obtain ⟨binding, hDeclared⟩ := hScoped name hLookup
    exact ⟨binding, hAdmits.declared_insideLoop hDeclared⟩

/-- The contexts a counting loop goes through: before its test, behind it, behind its body, behind
the step, and where the loop is left. -/
structure Circles (before opened outside tested cleared stepped landed : Context)
    (iterator : String) (cells : LoopCells) (owner handle : Handle) (direction : Direction)
    (label : Label) (behaviour : Behaviour) : Prop where
  opens : OpensLoop before opened iterator cells owner handle
  enters : Turns opened outside Eq
  flat : outside.Flat
  pointer : outside.pointer = none
  tests : Branches (outside.atDepth (outside.depth + 1)) tested label (roundLeft cells.counter)
  body : Settles tested cleared behaviour
  steps : StepsBack cleared stepped iterator cells.counter direction outside.listing.size
  lands : Lands stepped landed label before.labels

namespace Circles

variable {before opened outside tested cleared stepped landed : Context} {iterator : String}
  {cells : LoopCells} {owner handle : Handle} {direction : Direction} {label : Label}
  {behaviour : Behaviour}
  (hCircles : Circles before opened outside tested cleared stepped landed iterator cells owner
    handle direction label behaviour)

include hCircles

private theorem setting_outside :
    outside.setting = before.setting.insideLoop iterator cells owner handle :=
  hCircles.enters.setting.trans hCircles.opens.setting

private theorem setting_tested :
    tested.setting = before.setting.insideLoop iterator cells owner handle :=
  hCircles.tests.setting.trans hCircles.setting_outside

private theorem setting_landed : landed.setting = cleared.setting :=
  hCircles.lands.setting.trans hCircles.steps.setting

private theorem resembles_landed :
    (before.setting.insideLoop iterator cells owner handle).Resembles landed.setting := by
  rw [hCircles.setting_landed, ← hCircles.setting_tested]
  exact hCircles.body.extended.cells

private theorem inside : 0 < tested.depth := by
  rw [hCircles.tests.depth]
  exact Nat.succ_pos _

private theorem depth_landed : landed.depth = before.depth + 1 := by
  rw [hCircles.lands.depth, hCircles.steps.depth, hCircles.body.depth, hCircles.tests.depth,
    ← hCircles.opens.depth, ← hCircles.enters.quiet.depth]
  rfl

private theorem loops_landed : landed.loops = before.loops + 1 := by
  rw [hCircles.lands.loops, hCircles.steps.loops, hCircles.body.loops, hCircles.tests.loops,
    ← hCircles.opens.loops, ← hCircles.enters.quiet.loops]
  rfl

private theorem known_landed {other : Handle} {number : Int}
    (hKnown : landed.setting.known other = some number) :
    before.setting.known other = some number := by
  have hInner := (hCircles.body.forgets hCircles.inside).known other number
    (by rw [← hCircles.setting_landed]; exact hKnown)
  rw [hCircles.setting_tested] at hInner
  exact hInner

private theorem known_handle : landed.setting.known handle = none := by
  cases hKnown : landed.setting.known handle with
  | none => rfl
  | some number =>
      have hBefore := hCircles.known_landed hKnown
      rw [Store.known_eq_none_of_unnamed hCircles.opens.admits.unnamed.1] at hBefore
      contradiction

private theorem spares {name : String} {other : Handle} {number : Int}
    (hDeclared : before.setting.declared name = some (.scalar, .value other))
    (hKnown : landed.setting.known other = some number) : behaviour.Spares name := by
  refine (hCircles.body.forgets hCircles.inside).spares name other number ?_
    (by rw [← hCircles.setting_landed]; exact hKnown)
  rw [hCircles.setting_tested]
  exact hCircles.opens.admits.declared_insideLoop hDeclared

section Filled

variable {blueprint : Blueprint} (hFilled : landed.draft.FilledBy blueprint)

include hFilled

private theorem filled_cleared : cleared.draft.FilledBy blueprint :=
  hCircles.steps.filled blueprint (hCircles.lands.fills blueprint hFilled).1

private theorem filled_outside : outside.draft.FilledBy blueprint :=
  hCircles.tests.extended.grows.filledBy
    (hCircles.body.extended.grows.filledBy (hCircles.filled_cleared hFilled))

/-- A round with its test and its step. -/
theorem follows_round {scope : Scope} (hScoped : before.Scoped scope)
    (scratch : Address → Option Nat) (bound value rounds : Nat) (state : SourceState)
    (start : Snapshot)
    (hShows : outside.Shows (state.loopPicture scope scratch iterator cells.counter value
      (rounds + 1)) start) :
    Follows blueprint bound outside.listing.size start outside.listing.size
      (fun last finish => outside.Shows (last.loopPicture scope scratch iterator cells.counter
        (direction.advance value) rounds) finish)
      (behaviour bound ((iterator, value) :: scope) state) := by
  have hFilledCleared := hCircles.filled_cleared hFilled
  have hLeft : roundLeft cells.counter (state.loopPicture scope scratch iterator cells.counter value
      (rounds + 1)) = some true := by
    rw [roundLeft, show (state.loopPicture scope scratch iterator cells.counter value
      (rounds + 1)).scratch cells.counter = some (rounds + 1) from Function.update_self _ _ _]
    rfl
  refine hCircles.tests.follows (hCircles.body.extended.grows.filledBy hFilledCleared)
    (hCircles.lands.fills blueprint hFilled).2 hShows hLeft ?_ fun hFalse => absurd hFalse (by decide)
  intro _ arrival hArrival
  refine hCircles.body.followsInside hCircles.inside
    (hScoped.insideLoop hCircles.opens.admits hCircles.setting_tested value) hFilledCleared bound
    state _ hArrival ?_
  intro last between hBetween
  have hValue : (last.loopPicture scope scratch iterator cells.counter value
      (rounds + 1)).scalar iterator = some value := by
    change (last.valuation ((iterator, value) :: scope)).scalar iterator = some value
    rw [SourceState.scalar_valuation_cons]
    exact Function.update_self _ _ _
  obtain ⟨steps, finish, hPasses, hFinish⟩ := hCircles.steps.passes blueprint
    (hCircles.lands.fills blueprint hFilled).1 _ value rounds between hValue
    (Function.update_self _ _ _) hBetween
  rw [SourceState.loopPicture_step] at hFinish
  have hSame : stepped.setting.Resembles outside.setting := by
    rw [hCircles.steps.setting, hCircles.setting_outside, ← hCircles.setting_tested]
    exact hCircles.body.extended.cells.symm
  have hAgain := shows_of_flat hCircles.steps.tidy.toSound hCircles.steps.flat hCircles.flat hSame
    hFinish
  rw [← hCircles.pointer] at hAgain
  exact ⟨steps, finish, hPasses, hAgain⟩

/-- The way out of the loop when no round is left. -/
theorem follows_leave {scope : Scope} (scratch : Address → Option Nat) (bound value : Nat)
    (state : SourceState) (start : Snapshot)
    (hShows : outside.Shows (state.loopPicture scope scratch iterator cells.counter value 0)
      start) :
    Follows blueprint bound outside.listing.size start landed.listing.size
      (fun last finish => landed.Shows (last.loopPicture scope scratch iterator cells.counter
        value 0) finish) (.finished state) := by
  have hFilledCleared := hCircles.filled_cleared hFilled
  have hLeft : roundLeft cells.counter (state.loopPicture scope scratch iterator cells.counter value
      0) = some false := by
    rw [roundLeft, show (state.loopPicture scope scratch iterator cells.counter value
      0).scratch cells.counter = some 0 from Function.update_self _ _ _]
    rfl
  rw [hCircles.lands.size]
  refine hCircles.tests.follows (hCircles.body.extended.grows.filledBy hFilledCleared)
    (hCircles.lands.fills blueprint hFilled).2 hShows hLeft (fun hTrue => absurd hTrue (by decide)) ?_
  intro _ arrival hArrival
  have hSame : tested.setting.Resembles landed.setting := by
    rw [hCircles.setting_tested]
    exact hCircles.resembles_landed
  have hEnd := shows_of_flat hCircles.tests.extended.sound hCircles.tests.flat
    (hCircles.lands.flat hCircles.steps.flat) hSame hArrival
  rw [← hCircles.lands.pointer] at hEnd
  exact ⟨0, arrival, .refl _ _, hEnd⟩

end Filled

variable {closed : Context} (hCloses : ClosesLoop before.setting landed closed iterator cells)

include hCloses

private theorem depth_closed : closed.depth - 1 = before.depth := by
  rw [hCloses.depth, hCircles.depth_landed]
  rfl

private theorem labels_closed : closed.labels = before.labels :=
  hCloses.labels.trans hCircles.lands.labels

private theorem loops_closed : closed.loops = before.loops := by
  rw [hCloses.loops, hCircles.loops_landed]
  rfl

private theorem extends_closed (hDone : Extends [] opened landed) :
    Extends [] before (closed.atDepth (closed.depth - 1)) := by
  obtain ⟨store, hClosed⟩ := hCloses.keeps
  refine ⟨hCloses.tidy.toSound.atDepth _, ?_, ?_, ?_, ?_⟩
  · rw [hClosed]
    exact hDone.options.trans hCircles.opens.options
  · rw [hClosed]
    exact hDone.placements.trans hCircles.opens.placements
  · change before.setting.Resembles closed.setting
    unfold Setting.Resembles
    rw [hCloses.setting]
  · have hGrows := hDone.grows
    rw [hCircles.opens.options] at hGrows
    change Draft.Grows _ _ _ closed.draft
    rw [hCloses.draft]
    exact hCircles.opens.grows.trans hGrows

private theorem forgets_closed {whole : Behaviour}
    (hSpares : ∀ name, behaviour.Spares name → whole.Spares name) :
    Forgets before (closed.atDepth (closed.depth - 1)) whole := by
  have hKnownLanded : ∀ other number, closed.setting.known other = some number →
      landed.setting.known other = some number := by
    intro other number hKnown
    rw [hCloses.known] at hKnown
    exact hKnown
  refine ⟨fun other number hKnown => hCircles.known_landed (hKnownLanded other number hKnown), ?_⟩
  intro name other number hDeclared hKnown
  exact hSpares name (hCircles.spares hDeclared (hKnownLanded other number hKnown))

/-- From the test before the first round to the end of the loop. -/
theorem follows_rounds {blueprint : Blueprint} (hFilled : landed.draft.FilledBy blueprint)
    {scope : Scope} (hScoped : before.Scoped scope) {scratch : Address → Option Nat}
    (hIterator : scratch cells.iterator = none) (hCounter : scratch cells.counter = none)
    (bound rounds value : Nat) (state : SourceState) (start : Snapshot)
    (hShows : outside.Shows (state.loopPicture scope scratch iterator cells.counter value rounds)
      start) :
    Follows blueprint bound outside.listing.size start closed.listing.size
      (fun last finish => closed.Shows (last.picture scope scratch) finish)
      (Outcome.countRounds direction.advance
        (fun value => behaviour bound ((iterator, value) :: scope)) rounds value state) := by
  rw [show closed.listing.size = landed.listing.size from congrArg (·.listing.size) hCloses.draft]
  let shows : Nat → Nat → SourceState → Snapshot → Prop := fun value rounds state =>
    outside.Shows (state.loopPicture scope scratch iterator cells.counter value rounds)
  have hRound : ∀ value rounds state start, shows value (rounds + 1) state start →
      Follows blueprint bound outside.listing.size start outside.listing.size
        (shows (direction.advance value) rounds)
        (behaviour bound ((iterator, value) :: scope) state) :=
    fun value rounds state start hThere =>
      hCircles.follows_round hFilled hScoped scratch bound value rounds state start hThere
  refine follows_countRounds hRound ?_ rounds value state start hShows
  intro value last arrival hArrival
  refine (hCircles.follows_leave hFilled scratch bound value last arrival hArrival).append ?_
  intro last finish hFinish
  refine ⟨0, finish, .refl _ _, ?_⟩
  have hEnd := hCloses.shows _ (last.valuation scope).scalar finish ?_ hFinish
  · exact hEnd.restrict (last.below_forget_loopPicture scope hIterator hCounter iterator value 0)
  · intro other hOther
    change _ = (last.valuation ((iterator, value) :: scope)).scalar other
    rw [SourceState.scalar_valuation_cons, Function.update_of_ne hOther]

end Circles

theorem forLoop_ensures {bases : Bases} {body : List Command}
    (hBody : Renders bases (Generating.compileCommands body) fun bound scope =>
      Command.executeAll bases bound scope body)
    (hPrepared : context.Prepared bases) (span : Source.Span) {iterator : String}
    (hName : iterator ≠ "") (first last : Atom) (direction : Direction) :
    Ensures (Generating.compileCommand (.forLoop span iterator first last direction body)) context
      fun _ after => Compiles context after fun bound scope =>
        Command.execute bases bound scope
          (.forLoop span iterator first last direction body) := by
  rw [Generating.compileCommand]
  refine .bind (openLoop_ensures hPrepared.toTidy hPrepared.bases span.first hName first last
    direction) ?_
  rintro cells opened ⟨owner, handle, hOpens, hOpening⟩
  have hAdmits := hOpens.admits
  refine enterLoop_ensures hOpens.tidy ?_
  intro outside hOutside hOutsideTidy hOutsideFlat hPointer
  have hOutsideSetting : outside.setting =
      context.setting.insideLoop iterator cells owner handle :=
    hOutside.setting.trans hOpens.setting
  refine ensures_nested (.bind (testLoop_ensures (hOutsideTidy.atDepth (outside.depth + 1))
    hOutsideFlat cells) ?_)
  rintro - tested ⟨label, hBranches, hTested⟩
  have hTestedSetting : tested.setting =
      context.setting.insideLoop iterator cells owner handle :=
    hBranches.setting.trans hOutsideSetting
  have hTestedLoops : tested.loops = context.loops + 1 :=
    hBranches.loops.trans (hOutside.quiet.loops.trans hOpens.loops)
  have hTestedPrepared : tested.Prepared bases := by
    refine ⟨hTested, ?_, fun hNone => ?_⟩
    · rw [hTestedSetting]
      exact Setting.Admits.hasBases_insideLoop hPrepared.bases
    · rw [hTestedLoops] at hNone
      contradiction
  refine hBody.settles hTestedPrepared ?_
  intro cleared hCleared
  have hClearedSetting : (context.setting.insideLoop iterator cells owner handle).Resembles
      cleared.setting := hTestedSetting ▸ hCleared.extended.cells
  have hIterator : cleared.setting.cell? iterator = some (.iterator, handle, cells.iterator) := by
    rw [hClearedSetting.cell?]
    exact Setting.Admits.cell?_insideLoop
  have hCounter : cleared.setting.IsScratch cells.counter :=
    hClearedSetting.isScratch (hAdmits.isScratch_insideLoop hPrepared.toSound.store.layout)
  have hExtends : Extends (label.slots ++ []) opened cleared :=
    (hOutside.extends.trans (hBranches.extended.ofDepth.trans hCleared.extended)).perm
      fun slot => by simp
  refine .bind (stepLoop_ensures hExtends hCleared.tidy hCleared.flat hIterator hCounter direction
    (Nat.le_trans hBranches.extended.grows.size hCleared.extended.grows.size)) ?_
  rintro - stepped ⟨hStepped, hSteps⟩
  have hLabels : stepped.labels = label :: context.labels := by
    rw [hSteps.labels, hCleared.labels, hBranches.labels, ← hOpens.labels, ← hOutside.quiet.labels]
    rfl
  refine .bind (landHere_ensures hLabels hBranches.slot hStepped fun _ _ => List.not_mem_nil) ?_
  rintro - landed ⟨hLanded, hDone⟩
  have hCircles : Circles context opened outside tested cleared stepped landed iterator cells owner
      handle direction label fun bound scope => Command.executeAll bases bound scope body :=
    ⟨hOpens, hOutside, hOutsideFlat, hPointer, hBranches, hCleared, hSteps, hLanded⟩
  have hLandedTidy : landed.Tidy :=
    ⟨hDone.sound, hSteps.tidy.holding.congr (by rw [hLanded.store])⟩
  refine (closeLoop_ensures hLandedTidy (hLanded.flat hSteps.flat) hAdmits
    hCircles.resembles_landed hCircles.known_handle ?_).mono ?_
  · rw [hCircles.loops_landed]
    exact hPrepared.vacant
  rintro - closed hCloses
  have hDepth : closed.depth - 1 = context.depth := hCircles.depth_closed hCloses
  have hExtended : Extends [] context (closed.atDepth (closed.depth - 1)) :=
    hCircles.extends_closed hCloses hDone
  have hForgets : Forgets context (closed.atDepth (closed.depth - 1)) fun bound scope =>
      Command.execute bases bound scope (.forLoop span iterator first last direction body) :=
    hCircles.forgets_closed hCloses fun name hSpares =>
      .forLoop hSpares span iterator first last direction
  have hLabels : closed.labels = context.labels := hCircles.labels_closed hCloses
  have hLoops : closed.loops = context.loops := hCircles.loops_closed hCloses
  refine ⟨hExtended, hLabels, hDepth, hLoops, fun _ => hForgets, ?_⟩
  intro scope hScoped blueprint hFilled bound state scratch start hKnows hShows
  refine hForgets.follows hExtended.cells hDepth hScoped hKnows ?_
  have hFilledLanded : landed.draft.FilledBy blueprint := hCloses.draft ▸ hFilled
  simp only [Command.execute]
  split
  · rename_i low high hLow hHigh
    obtain ⟨steps, entry, hPasses, hEntry⟩ := (hOpening scope state scratch low high hKnows hLow
      hHigh).trans (hOutside.reaches _ _ rfl) hOutside.grows blueprint
        (hCircles.filled_outside hFilledLanded) start hShows
    exact ((hCircles.follows_rounds hCloses hFilledLanded hScoped
      (hShows.scratch_eq_none hAdmits.owner_iterator)
      (hShows.scratch_eq_none hAdmits.owner_counter) bound _ low state entry hEntry).prepend
        hPasses).weaken (Nat.le_add_left _ _)
  · trivial

end Context

end RegisterCompiler
