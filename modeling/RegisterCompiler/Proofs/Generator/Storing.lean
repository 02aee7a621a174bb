/-
Operands that are printed or written.

Reading a scalar leaves it cached.  Writing a scalar makes the register that has the
new value its cache and its memory cell out of date, which keeps the store sound: the
register it was cached in before is given up first.  What is known about a value while
a program is compiled does not concern the machine.
-/

import RegisterCompiler.Proofs.Generator.Operand

set_option autoImplicit false

namespace RegisterCompiler

open Generating (Ensures)

def Operand.write? (picture : Picture) (value : Nat) : Operand → Option Picture
  | .constant _ => some picture
  | .scalar cell => some (picture.setScalar cell.name value)
  | .element address => some (picture.setCell address value)
  | .dynamic base index =>
      (picture.scalar index.name).map fun offset => picture.setCell (base + offset) value

namespace Picture

theorem below_dropAll {weaker picture : Picture} (hScalar : weaker.scalar = picture.scalar)
    (hCell : weaker.cell = picture.cell) (hScratch : weaker.scratch = picture.scratch)
    (hInput : weaker.input = picture.input) (hOutput : weaker.output = picture.output) :
    weaker.dropAll.Below picture :=
  ⟨hScalar, hCell, fun address value hValue => by rw [← hScratch]; exact hValue,
    fun _ _ hNone => by contradiction, hInput, hOutput⟩

end Picture

namespace Store

/-- A store that is sound apart from a value that is in no register. -/
structure SoundExcept (store : Store) (handle : Handle) : Prop extends Linked store where
  uncached : ∀ register, store.occupant? register ≠ some handle
  others : ∀ name entry, store.symbols.lookup? name = some entry → entry.fresh = false →
    entry.binding = .value handle ∨
      ∃ other register, entry.binding = .value other ∧ store.occupant? register = some other

private theorem Sound.except {store : Store} (hSound : store.Sound) {handle : Handle}
    (hUncached : ∀ register, store.occupant? register ≠ some handle) : store.SoundExcept handle :=
  ⟨hSound.toLinked, hUncached, fun name entry hEntry hStale =>
    .inr (hSound.stale name entry hEntry hStale)⟩

/-- A register that caches a value may be emptied, even if the value is nowhere else. -/
theorem Sound.except_vacate {store : Store} (hSound : store.Sound) {register : Int}
    {handle : Handle} (hOccupant : store.occupant? register = some handle) :
    (store.vacate register .free).SoundExcept handle := by
  have hRegister := hSound.allocatable_of_occupant? hOccupant
  refine ⟨linked_vacate hRegister .free hSound.toLinked (.inl rfl), ?_, ?_⟩
  · intro other hOther
    rw [occupant?_vacate hRegister] at hOther
    split at hOther
    · contradiction
    · rename_i hDifferent
      exact hDifferent (hSound.occupant?_injective hOther hOccupant)
  · intro name entry hEntry hStale
    rw [symbols_vacate] at hEntry
    obtain ⟨other, place, hBinding, hPlace⟩ := hSound.stale name entry hEntry hStale
    by_cases hSame : place = register
    · rw [hSame, hOccupant] at hPlace
      rw [← Option.some.inj hPlace] at hBinding
      exact .inl hBinding
    · refine .inr ⟨other, place, hBinding, ?_⟩
      rw [occupant?_vacate hRegister, if_neg hSame]
      exact hPlace

def recache (store : Store) (register : Int) (cell : ScalarCell) : Store :=
  (store.occupy register cell.handle).noteFresh cell.name false

section Recache

variable {store : Store} {register : Int} {cell : ScalarCell}

private theorem setting_recache (hRegister : store.Allocatable register) :
    (store.recache register cell).setting = store.setting := by
  have hOccupied := (sameContent_occupy hRegister cell.handle).setting_eq
  have hNoted := (sameContent_noteFresh (store.occupy register cell.handle) cell.name
    false).setting_eq
  exact hNoted.trans hOccupied

private theorem sound_recache (hStore : store.SoundExcept cell.handle)
    (hHolds : store.Holds register) (hPlaced : cell.Placed store.setting) :
    (store.recache register cell).Sound := by
  have hLinked := hStore.toLinked
  have hRegister := hLinked.allocatable_of_holds hHolds
  obtain ⟨kind, address, hCell, -⟩ := hPlaced
  obtain ⟨hDeclared, -⟩ := Setting.cell?_eq_some_iff.mp hCell
  obtain ⟨hName, value, -, hValue, -⟩ := hLinked.cells _ _ _ hDeclared
  have hOccupied := sound_occupy hRegister hLinked (occupant?_of_holds hHolds) hStore.uncached
    (Option.isSome_of_eq_some hName) (Option.isSome_of_eq_some hValue) hStore.others
  refine sound_noteFresh hOccupied cell.name false ?_
  intro _ entry hEntry
  obtain ⟨found, hFound, hBinding⟩ := Option.map_eq_some_iff.mp hDeclared
  rw [show (store.occupy register cell.handle).symbols.lookup? cell.name =
    store.symbols.lookup? cell.name from rfl, hFound] at hEntry
  refine ⟨cell.handle, register, ?_, by rw [occupant?_occupy hRegister, if_pos rfl]⟩
  rw [← Option.some.inj hEntry]
  exact congrArg Prod.snd hBinding

end Recache

end Store

/-- The register that becomes the cache of a name has its new value. -/
theorem Coherent.recache {store : Store} {pointer : Option Nat} {picture : Picture}
    {snapshot : Snapshot} (hCoherent : Coherent store pointer picture snapshot)
    (hLinked : store.Linked) {register : Int} {cell : ScalarCell} {value : Nat}
    (hHeld : picture.held register = some value) (hPlaced : cell.Placed store.setting)
    (hUncached : ∀ place, store.occupant? place ≠ some cell.handle) :
    Coherent (store.recache register cell) pointer
      ((picture.setScalar cell.name value).drop register) snapshot := by
  obtain ⟨hHolds, hContent⟩ := hCoherent.held register value hHeld
  obtain ⟨kind, address, hCell, -⟩ := hPlaced
  obtain ⟨hDeclared, -⟩ := Setting.cell?_eq_some_iff.mp hCell
  have hName := (hLinked.cells _ _ _ hDeclared).1
  have hNoted : Coherent (store.noteFresh cell.name false) pointer picture snapshot :=
    hCoherent.noteFresh fun hTrue => absurd hTrue Bool.false_ne_true
  have hSetting := (Store.sameContent_noteFresh store cell.name false).setting_eq
  have hStale : (store.noteFresh cell.name false).symbols.isFresh cell.name = false := by
    simp only [Store.noteFresh, SymbolTable.isFresh_setFresh, if_true, Bool.and_false]
  have hElsewhere : ∀ place handle,
      (store.noteFresh cell.name false).occupant? place = some handle →
      (store.noteFresh cell.name false).setting.nameOf handle ≠ some cell.name := by
    intro place handle hOccupant hNamed
    rw [hSetting] at hNamed
    obtain ⟨found, hFound⟩ := hLinked.names handle cell.name hNamed
    rw [hDeclared] at hFound
    cases hFound
    exact hUncached place hOccupant
  have hWritten := hNoted.setScalar hStale hElsewhere value
  -- Noting that the cell is out of date and caching the name are independent.
  refine hWritten.occupy (hLinked.allocatable_of_holds hHolds) ?_ ?_
  · intro name found hNamed hFound
    rw [hSetting, hName] at hNamed
    rw [← Option.some.inj hNamed] at hFound
    simp only [Picture.setScalar, Function.update_self, Option.some.injEq] at hFound
    rw [hContent, hFound]
  · intro name otherKind place hOther hFresh
    rw [hSetting] at hOther
    have hNamed := (hLinked.cells _ _ _ (Setting.cell?_eq_some_iff.mp hOther).1).1
    rw [hName] at hNamed
    rw [← Option.some.inj hNamed, hStale] at hFresh
    contradiction

namespace Context

variable {context : Context}

/-! ### Reading -/

/-- A held register with the value of a name may cache it for the rest of the command. -/
theorem bindRead_ensures (hSound : context.Sound) {register : Int} {cell : ScalarCell}
    (hHolds : context.store.Holds register) (hPlaced : cell.Placed context.setting)
    (hUncached : ∀ place, context.store.occupant? place ≠ some cell.handle) :
    Ensures (do
      Generating.onStore (StoreAction.bind register cell.handle)
      Generating.onStore (StoreAction.setState register .inUse)
      return register) context fun found after =>
        found = register ∧ Works context after ∧ after.store.Allocatable register ∧
          ∀ (picture : Picture) value, picture.scalar cell.name = some value →
            Reaches context after (context.Shows (picture.hold register value)) fun snapshot =>
              after.Shows picture.dropAll snapshot ∧ snapshot.registers register = value := by
  have hLinked := hSound.store.toLinked
  have hRegister := hLinked.allocatable_of_holds hHolds
  obtain ⟨entry, value, -, -, hValue, hName⟩ := hSound.lookup?_of_placed hPlaced
  have hFree : value.register = none := by
    cases hBound : value.register with
    | none => rfl
    | some place => exact absurd ((hSound.occupant?_iff hValue place).mpr hBound) (hUncached place)
  have hOccupied : (context.store.occupy register cell.handle).Sound := by
    refine Store.sound_occupy hRegister hLinked (Store.occupant?_of_holds hHolds) hUncached
      (Option.isSome_of_eq_some hName) (Option.isSome_of_eq_some hValue) ?_
    intro name found hFound hStale
    exact .inr (hSound.store.stale name found hFound hStale)
  have hOccupant : (context.store.occupy register cell.handle).occupant? register =
      some cell.handle := by
    rw [Store.occupant?_occupy hRegister, if_pos rfl]
  have hSame := Store.sameContent_occupy hRegister cell.handle
  have hSize : (context.store.occupy register cell.handle).registers.size =
      context.store.registers.size := by
    simp only [Store.occupy, Store.setRegister, Array.set!_eq_setIfInBounds,
      Array.size_setIfInBounds]
  have hCached : Works context
      { context with store := context.store.occupy register cell.handle } :=
    ⟨.onStore hSound hOccupied hSize fun _ _ hLoose => hSame.loose hLoose, hSame.setting_eq⟩
  have hMarked := Turns.mark hCached.sound hOccupant (.inr rfl : RegisterState.inUse = .busy ∨ _)
  refine .onStore_bind (StoreAction.bind_gives hRegister (Store.occupant?_of_holds hHolds) hValue
    hFree) (.onStore_bind (StoreAction.setState_gives hOccupied.toLinked hOccupant (.inr rfl))
      (.pure ⟨rfl, hCached.trans hMarked.toWorks, ?_, ?_⟩))
  · exact hMarked.sound.store.allocatable_of_occupant?
      ((Store.occupant?_mark hOccupant .inUse register).trans hOccupant)
  · intro picture number hNumber
    refine .still rfl ?_
    intro snapshot hShows
    have hHeld := (hShows.held register number (Function.update_self _ _ _)).2
    refine ⟨?_, hHeld⟩
    refine Coherent.mark (Coherent.restrict (hShows.occupy hRegister ?_ ?_)
      (Picture.below_dropAll rfl rfl rfl rfl rfl)) hOccupant .inUse
    · intro name found hNamed hFound
      rw [show context.store.setting.nameOf cell.handle = some cell.name from hName] at hNamed
      rw [← Option.some.inj hNamed] at hFound
      rw [hHeld, ← Option.some.inj (hNumber.symm.trans hFound)]
    · intro name kind address hCell hFresh
      have hNamed := (hLinked.cells _ _ _ (Setting.cell?_eq_some_iff.mp hCell).1).1
      rw [show context.store.setting.nameOf cell.handle = some cell.name from hName] at hNamed
      rw [← Option.some.inj hNamed] at hCell hFresh
      rw [hShows.memory _ _ _ _ number hCell hFresh hNumber, hHeld]

theorem readOperand_ensures (hSound : context.Sound) {registers : List Int}
    (hHolding : context.Holding registers) (hFew : registers.length < 4) {operand : Operand}
    (hPlaced : operand.Placed context.setting) :
    Ensures (Generating.readOperand operand) context fun register after =>
      Works context after ∧ after.store.Allocatable register ∧
        ∀ picture value, operand.value? picture = some value →
          Reaches context after (context.Shows picture) fun snapshot =>
            after.Shows picture.dropAll snapshot ∧ snapshot.registers register = value := by
  have hTake : Ensures (Generating.take operand) context fun register after =>
      Works context after ∧ after.store.Allocatable register ∧
        ∀ picture value, operand.value? picture = some value →
          Reaches context after (context.Shows picture) fun snapshot =>
            after.Shows picture.dropAll snapshot ∧ snapshot.registers register = value := by
    refine (take_ensures hSound hHolding hFew hPlaced).mono ?_
    rintro register after ⟨hTurns, hHeld, -⟩
    refine ⟨hTurns.toWorks, hTurns.sound.store.allocatable_of_holds
      ((hHeld.held register).mp List.mem_cons_self), ?_⟩
    intro picture value hValue
    refine (hTurns.reaches picture _ ⟨value, hValue, rfl⟩).mono (fun _ hShows => hShows) ?_
    intro snapshot hShows
    exact ⟨hShows.restrict (Picture.below_dropAll rfl rfl rfl rfl rfl),
      (hShows.held register value (Function.update_self _ _ _)).2⟩
  cases operand with
  | constant value => exact hTake
  | element address => exact hTake
  | dynamic base index => exact hTake
  | scalar cell =>
      obtain ⟨entry, value, -, -, hValue, hName⟩ := hSound.lookup?_of_placed hPlaced
      refine .value_bind hValue ?_
      cases hRegister : value.register with
      | some register =>
          have hOccupant := (hSound.occupant?_iff hValue register).mpr hRegister
          have hMarked := Turns.mark hSound hOccupant (.inr rfl : RegisterState.inUse = .busy ∨ _)
          refine .onStore_bind (StoreAction.setState_gives hSound.store.toLinked hOccupant
            (.inr rfl)) (.pure ⟨hMarked.toWorks, hMarked.sound.store.allocatable_of_occupant?
              ((Store.occupant?_mark hOccupant .inUse register).trans hOccupant), ?_⟩)
          intro picture number hNumber
          refine .still rfl ?_
          intro snapshot hShows
          exact ⟨(hShows.mark hOccupant .inUse).restrict
            (Picture.below_dropAll rfl rfl rfl rfl rfl),
            hShows.cache register cell.handle cell.name number hOccupant hName hNumber⟩
      | none =>
          have hUncached : ∀ place, context.store.occupant? place ≠ some cell.handle := by
            intro place hOccupant
            rw [hSound.occupant?_iff hValue, hRegister] at hOccupant
            contradiction
          refine .bind (loadScalar_ensures hSound hHolding hFew hPlaced hUncached) ?_
          rintro register loaded ⟨⟨hTurns, hHeld, -⟩, hStill⟩
          refine (bindRead_ensures hTurns.sound ((hHeld.held register).mp List.mem_cons_self)
            (by rw [hTurns.setting]; exact hPlaced) hStill).mono ?_
          rintro _ after ⟨rfl, hWorks, hAllocatable, hReaches⟩
          refine ⟨hTurns.toWorks.trans hWorks, hAllocatable, ?_⟩
          intro picture number hNumber
          exact (hTurns.reaches picture _ ⟨number, hNumber, rfl⟩).trans
            (hReaches picture number hNumber) hWorks.grows

/-! ### Writing -/

/-- A context whose store lacks one value of a name becomes sound when the name is cached. -/
theorem recache_ensures {register : Int} {cell : ScalarCell}
    (hStore : context.store.SoundExcept cell.handle)
    (hSize : (context.store.registers.size : Int) = context.options.registers)
    (hDynamics : ∀ handle ∈ context.dynamics, context.store.Loose handle)
    (hDistinct : context.dynamics.Nodup)
    (hRecorded : ∀ emission, context.emissions emission → emission.line < context.listing.size)
    (hHolds : context.store.Holds register) (hPlaced : cell.Placed context.setting) :
    Ensures (do
      Generating.onStore (StoreAction.bind register cell.handle)
      Generating.onStore (StoreAction.setFresh cell.name false)) context fun _ after =>
        Turns context after fun start finish => ∃ value, start.held register = some value ∧
          finish = (start.setScalar cell.name value).drop register := by
  have hLinked := hStore.toLinked
  have hRegister := hLinked.allocatable_of_holds hHolds
  have hSound := Store.sound_recache hStore hHolds hPlaced
  have hLoose : ∀ handle, context.store.Loose handle →
      (context.store.recache register cell).Loose handle := by
    intro handle hHandle
    exact (Store.sameContent_noteFresh _ _ _).loose
      ((Store.sameContent_occupy hRegister cell.handle).loose hHandle)
  have hSameSize : ((context.store.recache register cell).registers.size : Int) =
      context.options.registers := by
    simp only [Store.recache, Store.noteFresh, Store.occupy, Store.setRegister,
      Array.set!_eq_setIfInBounds, Array.size_setIfInBounds]
    exact hSize
  obtain ⟨kind, address, hCell, hAddress⟩ := hPlaced
  obtain ⟨hDeclared, -⟩ := Setting.cell?_eq_some_iff.mp hCell
  obtain ⟨-, found, -, hFound, -⟩ := hLinked.cells _ _ _ hDeclared
  have hFree : found.register = none := by
    cases hBound : found.register with
    | none => rfl
    | some place =>
        exact absurd ((hLinked.occupants place cell.handle).mpr ⟨found, hFound, hBound⟩)
          (hStore.uncached place)
  refine .onStore_bind (StoreAction.bind_gives hRegister (Store.occupant?_of_holds hHolds) hFound
    hFree) (.onStore (StoreAction.setFresh_gives _ _ _) ⟨⟨⟨⟨hSound, hSameSize, ?_, hDistinct,
      hRecorded⟩, ⟨rfl, rfl, rfl, rfl, rfl⟩, .refl _ _⟩, Store.setting_recache hRegister⟩, ?_⟩)
  · exact fun handle hHandle => hLoose handle (hDynamics handle hHandle)
  · rintro start _ ⟨value, hHeld, rfl⟩
    exact .still rfl fun snapshot hShows =>
      hShows.recache hLinked hHeld ⟨kind, address, hCell, hAddress⟩ hStore.uncached

/-- The register with the new value of a name becomes its cache. -/
theorem storeScalar_ensures (hSound : context.Sound) {register : Int} {cell : ScalarCell}
    (hHolds : context.store.Holds register) (hPlaced : cell.Placed context.setting) :
    Ensures (Generating.storeOperand (.scalar cell) register) context fun _ after =>
      Turns context after fun start finish => ∃ value, start.held register = some value ∧
        finish = (start.setScalar cell.name value).dropAll := by
  obtain ⟨entry, value, -, -, hValue, hName⟩ := hSound.lookup?_of_placed hPlaced
  have hLinked := hSound.store.toLinked
  refine .value_bind hValue ?_
  cases hPrevious : value.register with
  | none =>
      refine (recache_ensures (hSound.store.except ?_) hSound.size hSound.dynamics hSound.distinct
        hSound.recorded
        hHolds hPlaced).mono ?_
      · intro place hOccupant
        rw [hSound.occupant?_iff hValue, hPrevious] at hOccupant
        contradiction
      · rintro - after hTurns
        refine hTurns.mono ?_
        rintro start _ ⟨number, hHeld, rfl⟩
        exact ⟨_, ⟨number, hHeld, rfl⟩, Picture.below_dropAll rfl rfl rfl rfl rfl⟩
  | some previous =>
      have hOccupant := (hSound.occupant?_iff hValue previous).mpr hPrevious
      have hDifferent : previous ≠ register := by
        rintro rfl
        rw [Store.occupant?_of_holds hHolds] at hOccupant
        contradiction
      have hRegister := hLinked.allocatable_of_occupant? hOccupant
      have hSame := Store.sameContent_vacate previous .free hLinked
      have hHoldsStill : (context.store.vacate previous .free).Holds register := by
        rw [Store.Holds, Store.register?_vacate hRegister, if_neg hDifferent.symm]
        exact hHolds
      simp only [if_pos hDifferent]
      refine .onStore_bind (StoreAction.release_gives hRegister) ?_
      refine (@recache_ensures { context with store := context.store.vacate previous .free }
        register cell (hSound.store.except_vacate hOccupant) ?_ ?_ hSound.distinct hSound.recorded
        hHoldsStill ?_).mono ?_
      · rw [Store.size_vacate]
        exact hSound.size
      · exact fun handle hHandle => hSame.loose (hSound.dynamics handle hHandle)
      · rw [show Context.setting { context with store := context.store.vacate previous .free } = _
          from hSame.setting_eq]
        exact hPlaced
      · rintro - after ⟨⟨⟨hAfter, hQuiet, hGrows⟩, hSetting⟩, hReaches⟩
        refine ⟨⟨⟨hAfter, ⟨hQuiet.options, hQuiet.labels, hQuiet.depth, hQuiet.loops,
          hQuiet.placements⟩, hGrows⟩, hSetting.trans hSame.setting_eq⟩, ?_⟩
        rintro start _ ⟨number, hHeld, rfl⟩
        have hHeldStill : (start.drop previous).held register = some number := by
          rw [Picture.held_drop_of_ne start hDifferent.symm]
          exact hHeld
        refine Reaches.mono (hReaches (start.drop previous) _ ⟨number, hHeldStill, rfl⟩) ?_ ?_
        · exact fun snapshot hShows => hShows.vacate hLinked hRegister .free
        · exact fun snapshot hShows =>
            hShows.restrict (Picture.below_dropAll rfl rfl rfl rfl rfl)

private theorem Turns.storeElement (hSound : context.Sound) {register : Int}
    (hHolds : context.store.Holds register) {address : Nat}
    (hStart : context.setting.arraysStart ≤ address) (hPointer : context.pointer = some address) :
    Turns context (context.add [.unary .store register]) fun start finish =>
      ∃ value, start.held register = some value ∧ finish = start.setCell address value := by
  refine .unary hSound hHolds rfl ?_
  rintro start _ snapshot ⟨value, hValue, rfl⟩ hShows
  refine ⟨_, ?_, hShows.storeCell hSound.store.toLinked hStart value⟩
  have hPlace := hShows.pointer _ hPointer
  have hContent := (hShows.held register value hValue).2
  simp only [Snapshot.effect?, Instruction.unary, hPlace, hContent]

private theorem storeDynamic_ensures (hSound : context.Sound) {register : Int}
    {registers : List Int} (hHolding : context.Holding (register :: registers))
    (hFew : registers.length < 3) (hNodup : (register :: registers).Nodup) {base : Nat}
    {index : ScalarCell} (hPlaced : (Operand.dynamic base index).Placed context.setting) :
    Ensures (Generating.storeOperand (.dynamic base index) register) context fun _ after =>
      Turns context after fun start finish => ∃ value written, start.held register = some value ∧
        (Operand.dynamic base index).write? start value = some written ∧
        finish = written.dropAll := by
  obtain ⟨hBase, hIndex⟩ := hPlaced
  refine .bind (acquire_ensures hSound hHolding (by rw [List.length_cons]; omega)) ?_
  rintro pointing taken ⟨hTaken, hHeld, hNew, -⟩
  have hHolds := (hHeld.held pointing).mp List.mem_cons_self
  refine .bind (computeAddress_ensures hTaken.sound hHolds base
    (by rw [hTaken.setting]; exact hIndex)) ?_
  rintro - found ⟨hWorks, hRegisters, hReaches⟩
  have hStill := hHeld.congr hRegisters
  have hHoldsStill := (hStill.held register).mp (List.mem_cons_of_mem _ List.mem_cons_self)
  have hReady : ∀ instruction ∈ [Instruction.unary .store register],
      instruction.Ready found.options.registers (found.listing.size + 1) := by
    intro instruction hInstruction
    rw [List.mem_singleton.mp hInstruction]
    exact ready_of_allocatable hWorks.sound
      (hWorks.sound.store.allocatable_of_holds hHoldsStill) rfl _
  have hStored := Works.add hWorks.sound hReady
  have hHeldStored : (found.add [.unary .store register]).Holding
      ([pointing, register] ++ registers) := hStill.congr rfl
  refine ensures_emitAll ((releaseAll_ensures hStored.sound hHeldStored
    (List.nodup_cons.mpr ⟨hNew, hNodup⟩)).mono ?_)
  rintro - after ⟨hFreed, -, -⟩
  refine ⟨((hTaken.toWorks.trans hWorks).trans hStored).trans hFreed.toWorks, ?_⟩
  rintro start _ ⟨value, written, hValue, hWritten, rfl⟩
  obtain ⟨offset, hOffset, rfl⟩ := Option.map_eq_some_iff.mp hWritten
  have hStore : Reaches found (found.add [.unary .store register])
      (fun snapshot => found.Shows (start.hold pointing (base + offset)) snapshot ∧
        snapshot.pointer = base + offset)
      ((found.add [.unary .store register]).Shows
        ((start.hold pointing (base + offset)).setCell (base + offset) value)) := by
    refine .add hWorks.sound hReady (fun _ hHere => ⟨_, hHere.1⟩) ?_
    rintro snapshot ⟨hShows, hPointer⟩
    have hOther : register ≠ pointing := fun hSame => hNew (hSame ▸ List.mem_cons_self)
    have hHeldValue : (start.hold pointing (base + offset)).held register = some value := by
      rw [Picture.held_hold_of_ne start hOther]
      exact hValue
    refine ⟨snapshot.setCell (base + offset) value, ?_, hShows.storeCell
      hWorks.sound.store.toLinked ?_ value⟩
    · simp only [Snapshot.runBlock, Snapshot.effect?, Instruction.unary, hPointer,
        (hShows.held register value hHeldValue).2, Option.bind_some]
    · change found.setting.arraysStart ≤ base + offset
      rw [hWorks.setting, hTaken.setting]
      exact Nat.le_trans hBase (Nat.le_add_right _ _)
  refine ((((hTaken.reaches start start rfl).trans (hReaches start offset hOffset)
    hWorks.grows).trans hStore hStored.grows).trans (hFreed.reaches _ _ rfl) hFreed.grows).mono
      (fun _ hShows => hShows) ?_
  intro snapshot hShows
  refine hShows.restrict (Picture.below_dropAll rfl rfl ?_ rfl rfl)
  simp [Picture.forget, Picture.setCell, Picture.hold]

/-- Writing an operand gives it the value of a held register. -/
theorem storeOperand_ensures (hSound : context.Sound) {register : Int} {registers : List Int}
    (hHolding : context.Holding (register :: registers)) (hFew : registers.length < 3)
    (hNodup : (register :: registers).Nodup) {operand : Operand}
    (hPlaced : operand.Placed context.setting) (hVariable : operand.constant? = none) :
    Ensures (Generating.storeOperand operand register) context fun _ after =>
      Turns context after fun start finish => ∃ value written, start.held register = some value ∧
        operand.write? start value = some written ∧ finish = written.dropAll := by
  have hHolds := (hHolding.held register).mp List.mem_cons_self
  cases operand with
  | constant value => contradiction
  | scalar cell =>
      refine (storeScalar_ensures hSound hHolds hPlaced).mono ?_
      rintro - after hTurns
      refine hTurns.mono ?_
      rintro start _ ⟨value, written, hHeld, hWritten, rfl⟩
      rw [← Option.some.inj hWritten]
      exact ⟨_, ⟨value, hHeld, rfl⟩, rfl, rfl, fun _ _ hFound => hFound, fun _ _ hFound => hFound,
        rfl, rfl⟩
  | element address =>
      refine .bind (pointTo_ensures hSound address) ?_
      rintro - aimed ⟨hAimed, hStore, hPointer⟩
      have hHoldsAimed : aimed.store.Holds register := by
        rw [hStore]
        exact hHolds
      have hStored := Turns.storeElement hAimed.sound hHoldsAimed
        (by rw [hAimed.setting]; exact hPlaced) hPointer
      have hFreed := Turns.release hStored.sound hHoldsAimed
      refine ensures_emitAll (.onStore (StoreAction.release_gives
        (hStored.sound.store.allocatable_of_holds hHoldsAimed)) ?_)
      refine ⟨(hAimed.toWorks.trans hStored.toWorks).trans hFreed.toWorks, ?_⟩
      rintro start _ ⟨value, written, hHeld, hWritten, rfl⟩
      rw [← Option.some.inj hWritten]
      refine ((((hAimed.reaches start start rfl).trans (hStored.reaches start _ ⟨value, hHeld, rfl⟩)
        hStored.grows)).trans (hFreed.reaches _ _ rfl) hFreed.grows).mono (fun _ hShows => hShows) ?_
      exact fun snapshot hShows => hShows.restrict (Picture.below_dropAll rfl rfl rfl rfl rfl)
  | dynamic base index => exact storeDynamic_ensures hSound hHolding hFew hNodup hPlaced

end Context

/-! ### What is known about values -/

def ScalarCell.IsVariable (setting : Setting) (cell : ScalarCell) : Prop :=
  ∃ kind, setting.declared cell.name = some (kind, .value cell.handle) ∧ kind ≠ .iterator

def Operand.learned (setting : Setting) (known : Option Nat) : Operand → Setting
  | .scalar cell => setting.learn cell.handle (known.map Int.ofNat)
  | _ => setting

namespace Context

variable {context : Context}

def Updates (update : Value → Value) (known : Option Int) : Prop :=
  ∀ (value : Value) scalar, value.payload = .plain scalar → scalar.symbolic = false →
    ∃ changed, update value = { value with payload := .plain changed } ∧
      (update value).known? = known

private theorem updates_setCurrent (number : Int) :
    Updates (·.setCurrent (some number)) (some number) := by
  rintro ⟨payload, register, chunk⟩ scalar rfl hKnown
  exact ⟨{ scalar with current := some number }, rfl, by
    simp [Value.setCurrent, Value.mapPlain, Value.known?, Value.isSymbolic, Value.plain?, hKnown]⟩

private theorem updates_markSymbolic (text : String) :
    Updates (fun known => ((known.setCurrent none).extendExpression text).markSymbolic) none := by
  rintro ⟨payload, register, chunk⟩ scalar rfl -
  exact ⟨_, rfl, by
    simp [Value.setCurrent, Value.extendExpression, Value.markSymbolic, Value.mapPlain,
      Value.known?, Value.isSymbolic, Value.plain?]⟩

private theorem learn_ensures (hSound : context.Sound) {cell : ScalarCell}
    (hVariable : cell.IsVariable context.setting) {update : Value → Value} {known : Option Int}
    (hUpdate : Updates update known) :
    ∃ middle after value,
      (StoreAction.forgetSymbolic cell.handle).Gives context.store () middle ∧
      (StoreAction.change cell.handle update).Gives middle value after ∧
      Advances context { context with store := after } ∧
      after.setting = context.setting.learn cell.handle known ∧
      after.registers = context.store.registers ∧ after.symbols = context.store.symbols := by
  obtain ⟨kind, hDeclared, hKind⟩ := hVariable
  obtain ⟨hName, value, -, hValue, hPayload, -⟩ := hSound.store.cells _ _ _ hDeclared
  obtain ⟨scalar, hPlain⟩ := hPayload hKind
  have hNamed := Option.isSome_of_eq_some hName
  let forgotten : PlainVariable := { scalar with symbolic := false, expression := "" }
  have hForget : value.forgetExpression = { value with payload := .plain forgotten } := by
    simp only [Value.forgetExpression, Value.mapPlain, hPlain, forgotten]
  obtain ⟨hMiddle, hMiddleSetting⟩ := Store.sound_learn hSound.store hValue hNamed hForget
  have hGet : (context.store.arena.modify cell.handle Value.forgetExpression).get? cell.handle =
      some { value with payload := .plain forgotten } := by
    rw [Arena.get?_modify, if_pos rfl, hValue, Option.map_some, hForget]
  obtain ⟨changed, hChanged, hKnown⟩ := hUpdate { value with payload := .plain forgotten } forgotten
    rfl rfl
  obtain ⟨hAfter, hAfterSetting⟩ := @Store.sound_learn
    { context.store with
      arena := context.store.arena.modify cell.handle Value.forgetExpression } hMiddle cell.handle
    { value with payload := .plain forgotten } hGet (by rw [hMiddleSetting]; exact hNamed) update
    changed hChanged
  have hSetting := hAfterSetting.trans (congrArg
    (fun setting => Setting.learn setting cell.handle _) hMiddleSetting)
  have hLearned : (context.setting.learn cell.handle value.forgetExpression.known?).learn cell.handle
      (update { value with payload := .plain forgotten }).known? =
        context.setting.learn cell.handle known := by
    simp only [Setting.learn, Function.update_idem, hKnown]
  refine ⟨_, _, _, StoreAction.forgetSymbolic_gives hValue hPlain,
    StoreAction.change_gives hGet update, .onStore hSound hAfter rfl ?_,
    hSetting.trans hLearned, rfl, rfl⟩
  intro handle _ hLoose
  have hOther : handle ≠ cell.handle := by
    rintro rfl
    rw [hLoose.unnamed] at hNamed
    contradiction
  refine ⟨?_, ?_, ?_⟩
  · rw [Arena.get?_modify, if_neg hOther, Arena.get?_modify, if_neg hOther]
    exact hLoose.live
  · exact hLoose.unnamed
  · rw [hSetting, hLearned]
    exact hLoose.unplaced

/-- Learning something about an operand does not concern the machine. -/
theorem learnValue_ensures (hSound : context.Sound) {operand : Operand}
    (hVariable : ∀ cell, operand = .scalar cell → cell.IsVariable context.setting)
    (value : Option Nat) (text : String) :
    Ensures (Generating.learnValue operand value text) context fun _ after =>
      Advances context after ∧
        after.setting = operand.learned context.setting
          (if context.depth = 0 then value else none) ∧
        ∀ picture, Reaches context after (context.Shows picture) (after.Shows picture) := by
  have hStay : Ensures (pure () : Generating Unit) context fun _ after => Advances context after ∧
      after.setting = context.setting ∧
        ∀ picture, Reaches context after (context.Shows picture) (after.Shows picture) :=
    .pure ⟨.refl hSound, rfl, fun _ => .still rfl fun _ hShows => hShows⟩
  cases operand with
  | constant number => exact hStay
  | element address => exact hStay
  | dynamic base index => exact hStay
  | scalar cell =>
      have hLearn : ∀ {update : Value → Value} {known : Option Int}, Updates update known →
          ∃ middle after found,
            (StoreAction.forgetSymbolic cell.handle).Gives context.store () middle ∧
            (StoreAction.change cell.handle update).Gives middle found after ∧
            Advances context { context with store := after } ∧
            after.setting = context.setting.learn cell.handle known ∧
            ∀ picture, Reaches context { context with store := after } (context.Shows picture)
              (Context.Shows { context with store := after } picture) := by
        intro update known hUpdate
        obtain ⟨middle, after, found, hForget, hChange, hAdvances, hSetting, hRegisters,
          hSymbols⟩ := learn_ensures hSound (hVariable cell rfl) hUpdate
        refine ⟨middle, after, found, hForget, hChange, hAdvances, hSetting, ?_⟩
        intro picture
        refine .still rfl ?_
        intro snapshot hShows
        exact hShows.congr_store hRegisters hSymbols (fun _ => by rw [hSetting]; rfl)
          (by rw [hSetting]; rfl) (fun _ _ _ hScratch => by rw [hSetting]; exact hScratch)
      unfold Generating.learnValue
      cases value with
      | none =>
          obtain ⟨middle, after, found, hForget, hChange, hAdvances, hSetting, hReaches⟩ :=
            hLearn (updates_markSymbolic text)
          refine .onStore_bind hForget (.onStore_bind hChange (.pure ⟨hAdvances, ?_, hReaches⟩))
          rw [ite_self]
          exact hSetting
      | some number =>
          by_cases hDepth : context.depth = 0
          · obtain ⟨middle, after, found, hForget, hChange, hAdvances, hSetting, hReaches⟩ :=
              hLearn (updates_setCurrent number)
            refine .onStore_bind hForget (.get ?_)
            rw [if_pos hDepth]
            refine .onStore_bind hChange (.pure ⟨hAdvances, ?_, hReaches⟩)
            rw [if_pos hDepth]
            exact hSetting
          · obtain ⟨middle, after, found, hForget, hChange, hAdvances, hSetting, hReaches⟩ :=
              hLearn (updates_markSymbolic text)
            refine .onStore_bind hForget (.get ?_)
            rw [if_neg hDepth]
            refine .onStore_bind hChange (.pure ⟨hAdvances, ?_, hReaches⟩)
            rw [if_neg hDepth]
            exact hSetting

end Context

end RegisterCompiler
