/-
Operands and their values.

An operand is placed when its cells are where the setting says they are; its value is
then given by a picture.  Taking an operand leaves its value in a held register, aiming
at it leaves the pointer on a cell with its value, and storing a held register gives
the operand a new value.
-/

import RegisterCompiler.Proofs.Generator.Scratch

set_option autoImplicit false

namespace RegisterCompiler

open Generating (Ensures)

def ScalarCell.Placed (setting : Setting) (cell : ScalarCell) : Prop :=
  ∃ kind address, setting.cell? cell.name = some (kind, cell.handle, address) ∧
    address.toNat = cell.address

namespace Operand

def Placed (setting : Setting) : Operand → Prop
  | constant _ => True
  | scalar cell => cell.Placed setting
  | element address => setting.arraysStart ≤ address
  | dynamic base index => setting.arraysStart ≤ base ∧ index.Placed setting

def value? (picture : Picture) : Operand → Option Nat
  | constant value => some value
  | scalar cell => picture.scalar cell.name
  | element address => picture.cell address
  | dynamic base index => (picture.scalar index.name).bind fun offset => picture.cell (base + offset)

end Operand

namespace Context

variable {context : Context}

/-- A picture says nothing about a register that is not among the held ones. -/
theorem Holding.held_eq_none {registers : List Int} (hHolding : context.Holding registers)
    {register : Int} (hOutside : register ∉ registers) {picture : Picture} {snapshot : Snapshot}
    (hShows : context.Shows picture snapshot) : picture.held register = none := by
  cases hHeld : picture.held register with
  | none => rfl
  | some value =>
      exact absurd ((hHolding.held register).mpr (hShows.held register value hHeld).1) hOutside

/-! ### Bringing a cell up to date -/

theorem Sound.lookup?_of_placed {cell : ScalarCell} (hSound : context.Sound)
    (hPlaced : cell.Placed context.setting) :
    ∃ entry value, context.store.symbols.lookup? cell.name = some entry ∧
      entry.binding = .value cell.handle ∧ context.store.arena.get? cell.handle = some value ∧
      context.setting.nameOf cell.handle = some cell.name := by
  obtain ⟨kind, address, hCell, -⟩ := hPlaced
  obtain ⟨hDeclared, -⟩ := Setting.cell?_eq_some_iff.mp hCell
  obtain ⟨hName, value, -, hValue, -⟩ := hSound.store.cells _ _ _ hDeclared
  obtain ⟨entry, hEntry, hBinding⟩ := Option.map_eq_some_iff.mp hDeclared
  exact ⟨entry, value, hEntry, congrArg Prod.snd hBinding, hValue, hName⟩

private theorem Sound.isFresh_of_uncached {cell : ScalarCell} (hSound : context.Sound)
    (hPlaced : cell.Placed context.setting)
    (hUncached : ∀ register, context.store.occupant? register ≠ some cell.handle) :
    context.store.symbols.isFresh cell.name = true := by
  obtain ⟨entry, value, hEntry, hBinding, hValue, -⟩ := hSound.lookup?_of_placed hPlaced
  rw [SymbolTable.isFresh, hEntry]
  cases hFresh : entry.fresh with
  | true => exact hFresh
  | false =>
      obtain ⟨handle, register, hBound, hOccupant⟩ :=
        hSound.store.stale cell.name entry hEntry hFresh
      rw [hBinding] at hBound
      cases hBound
      exact absurd hOccupant (hUncached register)

/-- A cell that contains a value in every machine that shows a picture. -/
def Keeps (context : Context) (picture : Picture) (address value : Nat) : Prop :=
  ∀ snapshot, Coherent context.store none picture snapshot → snapshot.memory address = some value

/-- The cell of a name that is up to date has the value of the name. -/
theorem keeps_of_isFresh {cell : ScalarCell} (hPlaced : cell.Placed context.setting)
    (hFresh : context.store.symbols.isFresh cell.name = true) {picture : Picture} {value : Nat}
    (hValue : picture.scalar cell.name = some value) :
    context.Keeps picture cell.address value := by
  intro snapshot hShows
  obtain ⟨kind, address, hCell, hAddress⟩ := hPlaced
  rw [← hAddress]
  exact hShows.memory cell.name kind cell.handle address value hCell hFresh hValue

private theorem keeps_of_cell {picture : Picture} {address value : Nat}
    (hStart : context.setting.arraysStart ≤ address) (hValue : picture.cell address = some value) :
    context.Keeps picture address value :=
  fun _ hShows => hShows.cells address value hStart hValue

private theorem refresh_ensures {cell : ScalarCell} (hSound : context.Sound)
    (hPlaced : cell.Placed context.setting) :
    Ensures (Generating.refresh cell) context fun _ after =>
      Turns context after Eq ∧ after.store.registers = context.store.registers ∧
        after.store.symbols.isFresh cell.name = true := by
  refine .get ?_
  by_cases hFresh : context.store.symbols.isFresh cell.name = true
  · rw [if_pos hFresh]
    exact .pure ⟨.refl hSound, rfl, hFresh⟩
  · rw [if_neg hFresh]
    obtain ⟨entry, value, hEntry, hBinding, hValue, hName⟩ := hSound.lookup?_of_placed hPlaced
    refine .value_bind hValue ?_
    cases hRegister : value.register with
    | none =>
        refine absurd (hSound.isFresh_of_uncached hPlaced ?_) hFresh
        intro register hOccupant
        obtain ⟨found, hFound, hBound⟩ := (hSound.store.occupants register cell.handle).mp hOccupant
        rw [hValue] at hFound
        rw [← Option.some.inj hFound, hRegister] at hBound
        contradiction
    | some register =>
        have hOccupant := (hSound.store.occupants register cell.handle).mpr
          ⟨value, hValue, hRegister⟩
        refine (saveOccupant_ensures hSound hOccupant hValue).mono ?_
        rintro - after ⟨hTurns, hRegisters, -, hSaved⟩
        exact ⟨hTurns, hRegisters, hSaved cell.name hName⟩

/-! ### Loading cells -/

structure Takes (before after : Context) (registers : List Int) (register : Int)
    (content : Picture → Option Nat) : Prop where
  turns : Turns before after fun start finish =>
    ∃ value, content start = some value ∧ finish = start.hold register value
  holding : after.Holding (register :: registers)
  new : register ∉ registers

/-- Loads the cell the pointer is on into a held register. -/
theorem Turns.load (hSound : context.Sound) {register : Int}
    (hHolds : context.store.Holds register) {address : Nat}
    (hPointer : context.pointer = some address) :
    Turns context (context.add [.unary .load register]) fun start finish =>
      ∃ value, context.Keeps start address value ∧ finish = start.hold register value := by
  refine .unary hSound hHolds rfl ?_
  rintro start _ snapshot ⟨value, hKeeps, rfl⟩ hShows
  refine ⟨snapshot.setRegister register value, ?_,
    hShows.setHeld hSound.store.toLinked hHolds value⟩
  have hCell : snapshot.memory snapshot.pointer = some value := by
    rw [hShows.pointer address hPointer]
    exact hKeeps snapshot hShows.forgetPointer
  simp only [Snapshot.effect?, Instruction.unary, hCell, Option.map_some]

theorem loadInto_ensures (hSound : context.Sound) {register : Int}
    (hHolds : context.store.Holds register) (address : Nat) :
    Ensures (Generating.loadInto register address) context fun _ after =>
      Turns context after (fun start finish => ∃ value,
        context.Keeps start address value ∧ finish = start.hold register value) ∧
        after.store = context.store ∧ after.pointer = some address := by
  refine .bind (pointTo_ensures hSound address) ?_
  rintro - aimed ⟨hAimed, hStore, hPointer⟩
  have hLoaded := Turns.load hAimed.sound (by rw [hStore]; exact hHolds) hPointer
  refine .modify ⟨hAimed.trans hLoaded ?_, hStore, hPointer⟩
  rintro start finish ⟨value, hKeeps, rfl⟩
  exact ⟨start, rfl, value, by rw [Keeps, hStore]; exact hKeeps, rfl⟩

/-- A newly held register gets the content of a cell. -/
theorem loadCell_ensures (hSound : context.Sound) {registers : List Int}
    (hHolding : context.Holding registers) (hFew : registers.length < 4) (address : Nat)
    (content : Picture → Option Nat)
    (hContent : ∀ middle : Context, middle.Sound → middle.setting = context.setting →
      (∀ register handle, middle.store.occupant? register = some handle →
        context.store.occupant? register = some handle) →
      ∀ picture value, content picture = some value → middle.Keeps picture address value) :
    Ensures (Generating.loadCell address) context fun register after =>
      Takes context after registers register content ∧
        ∀ other handle, after.store.occupant? other = some handle →
          context.store.occupant? other = some handle := by
  refine .bind (acquire_ensures hSound hHolding hFew) ?_
  rintro register taken ⟨hTaken, hHeld, hNew, hOthers⟩
  have hHolds := (hHeld.held register).mp List.mem_cons_self
  refine .bind (loadInto_ensures hTaken.sound hHolds address) ?_
  rintro - after ⟨hLoaded, hStore, -⟩
  have hOccupants : ∀ other handle, taken.store.occupant? other = some handle →
      context.store.occupant? other = some handle := by
    intro other handle hOccupant
    have hOther : other ≠ register := by
      rintro rfl
      rw [Store.occupant?_of_holds hHolds] at hOccupant
      contradiction
    rw [Store.occupant?, ← hOthers other hOther]
    exact hOccupant
  refine .pure ⟨⟨hTaken.trans hLoaded ?_, hHeld.congr (congrArg Store.registers hStore), hNew⟩,
    by rw [hStore]; exact hOccupants⟩
  rintro start _ ⟨value, hValue, rfl⟩
  exact ⟨start, rfl, value,
    hContent taken hTaken.sound hTaken.setting hOccupants start value hValue, rfl⟩

theorem loadScalar_ensures (hSound : context.Sound) {registers : List Int}
    (hHolding : context.Holding registers) (hFew : registers.length < 4) {cell : ScalarCell}
    (hPlaced : cell.Placed context.setting)
    (hUncached : ∀ register, context.store.occupant? register ≠ some cell.handle) :
    Ensures (Generating.loadCell cell.address) context fun register after =>
      Takes context after registers register (fun picture => picture.scalar cell.name) ∧
        ∀ other, after.store.occupant? other ≠ some cell.handle := by
  refine (loadCell_ensures hSound hHolding hFew cell.address (fun picture => picture.scalar cell.name)
    ?_).mono ?_
  rotate_left
  · rintro register after ⟨hTakes, hOccupants⟩
    exact ⟨hTakes, fun other hOccupant => hUncached other (hOccupants other _ hOccupant)⟩
  intro middle hMiddle hSetting hOccupants picture value hValue
  have hStill : cell.Placed middle.setting := by
    rw [hSetting]
    exact hPlaced
  refine keeps_of_isFresh hStill (hMiddle.isFresh_of_uncached hStill ?_) hValue
  intro register hOccupant
  exact hUncached register (hOccupants register cell.handle hOccupant)

/-! ### Taking operands -/

theorem Sound.occupant?_iff {handle : Handle} {value : Value} (hSound : context.Sound)
    (hValue : context.store.arena.get? handle = some value) (register : Int) :
    context.store.occupant? register = some handle ↔ value.register = some register := by
  rw [hSound.store.occupants]
  constructor
  · rintro ⟨found, hFound, hRegister⟩
    rw [hValue] at hFound
    rw [Option.some.inj hFound]
    exact hRegister
  · intro hRegister
    exact ⟨value, hValue, hRegister⟩

/-- A register that caches a name whose cell is up to date may be held instead. -/
theorem Turns.handOver (hSound : context.Sound) {register : Int} {cell : ScalarCell}
    (hOccupant : context.store.occupant? register = some cell.handle)
    (hName : context.setting.nameOf cell.handle = some cell.name)
    (hFresh : context.store.symbols.isFresh cell.name = true) :
    Turns context
      { context with store := (context.store.vacate register .free).vacate register .inUse }
      fun start finish => ∃ value, start.scalar cell.name = some value ∧
        finish = start.hold register value := by
  have hRegister := hSound.store.allocatable_of_occupant? hOccupant
  have hFreed : Turns context { context with store := context.store.vacate register .free }
      fun start finish => finish = start.drop register := by
    refine .vacate hSound hRegister (.inl rfl) ?_
    intro handle name hFound hNamed
    rw [hOccupant] at hFound
    rw [← Option.some.inj hFound, hName] at hNamed
    rw [← Option.some.inj hNamed]
    exact hFresh
  have hEmpty : (context.store.vacate register .free).register? register = some ⟨.free, none⟩ := by
    rw [Store.register?_vacate hRegister, if_pos rfl]
  have hReserved := Turns.reserve hFreed.sound hEmpty (by have := hRegister.1; omega)
  refine ⟨hFreed.toWorks.trans hReserved.toWorks, ?_⟩
  rintro start _ ⟨value, hValue, rfl⟩
  refine .still rfl ?_
  intro snapshot hShows
  -- The register keeps the value it cached, although the picture forgets the cache first.
  have hContent := hShows.cache register cell.handle cell.name value hOccupant hName hValue
  have hAllocatable := Store.allocatable_vacate register .free hRegister
  have hVacated := (hShows.vacate hSound.store.toLinked hRegister .free).vacate
    hFreed.sound.store.toLinked hAllocatable .inUse
  have hHolds : ((context.store.vacate register .free).vacate register .inUse).Holds register := by
    rw [Store.Holds, Store.register?_vacate hAllocatable, if_pos rfl]
  have hNoted := hVacated.noteHeld hHolds hContent
  rw [Picture.hold_drop, Picture.hold_drop] at hNoted
  exact hNoted

private theorem takeScalar_ensures (hSound : context.Sound) {registers : List Int}
    (hHolding : context.Holding registers) (hFew : registers.length < 4) {cell : ScalarCell}
    (hPlaced : cell.Placed context.setting) :
    Ensures (Generating.takeScalar cell) context fun register after =>
      Takes context after registers register fun picture => picture.scalar cell.name := by
  obtain ⟨entry, value, hEntry, hBinding, hValue, hName⟩ := hSound.lookup?_of_placed hPlaced
  refine .value_bind hValue ?_
  cases hRegister : value.register with
  | none =>
      refine (loadScalar_ensures hSound hHolding hFew hPlaced ?_).mono fun _ _ hTakes => hTakes.1
      intro register hOccupant
      rw [hSound.occupant?_iff hValue, hRegister] at hOccupant
      contradiction
  | some register =>
      have hOccupant := (hSound.occupant?_iff hValue register).mpr hRegister
      refine .bind (saveOccupant_ensures hSound hOccupant hValue) ?_
      rintro - saved ⟨hSaved, hRegisters, -, hFresh⟩
      have hSame : ∀ other, saved.store.register? other = context.store.register? other := by
        intro other
        simp only [Store.register?, hRegisters]
      have hStill : saved.store.occupant? register = some cell.handle := by
        rw [Store.occupant?, hSame]
        exact hOccupant
      obtain ⟨state, hFound⟩ := Store.occupant?_eq_some_iff.mp hStill
      have hBusy : state = .busy := by
        rcases hSaved.sound.store.states register _ hFound with ⟨-, hNone⟩ | ⟨hBusy, -⟩ | hUsed
        · contradiction
        · exact hBusy
        · refine absurd ?_ (hHolding.spare register cell.handle)
          rw [← hSame, hFound, ← hUsed]
      refine .get ?_
      rw [if_pos (by rw [Store.registerState, hFound, hBusy]; rfl)]
      have hAllocatable := hSaved.sound.store.allocatable_of_occupant? hStill
      have hAgain := Store.allocatable_vacate register .free hAllocatable
      have hTurns := Turns.handOver hSaved.sound hStill (by rw [hSaved.setting]; exact hName)
        (hFresh cell.name hName)
      refine .onStore_bind (StoreAction.release_gives hAllocatable)
        (.onStore_bind (StoreAction.reserve_gives hAgain)
          (.pure ⟨hSaved.after_still hTurns, hHolding.cons ?_, ?_⟩))
      · intro other
        rw [Store.register?_vacate hAgain, Store.register?_vacate hAllocatable, hSame]
        split <;> rfl
      · rw [hHolding.held, Store.Holds, ← hSame, hFound]
        simp

/-- The address of a dynamic element gets into a held register and into the pointer. -/
theorem computeAddress_ensures (hSound : context.Sound) {register : Int}
    (hHolds : context.store.Holds register) (base : Nat) {index : ScalarCell}
    (hPlaced : index.Placed context.setting) :
    Ensures (Generating.computeAddress register base index) context fun _ after =>
      Works context after ∧ after.store.registers = context.store.registers ∧
        ∀ picture offset, picture.scalar index.name = some offset →
          Reaches context after (context.Shows picture) fun snapshot =>
            after.Shows (picture.hold register (base + offset)) snapshot ∧
              snapshot.pointer = base + offset := by
  refine .bind (refresh_ensures hSound hPlaced) ?_
  rintro - fresh ⟨hFresh, hRegisters, hUpToDate⟩
  have hHoldsFresh : fresh.store.Holds register := by
    rw [Store.Holds, Store.register?, hRegisters]
    exact hHolds
  have hBuilt := Turns.buildConstant hFresh.sound hHoldsFresh base
  have hNonzero := hFresh.sound.store.toLinked.ne_zero_of_holds hHoldsFresh
  refine ensures_buildConstant hNonzero (.bind (pointTo_ensures hBuilt.sound index.address) ?_)
  rintro - aimed ⟨hAimed, hStore, hPointer⟩
  have hHoldsAimed : aimed.store.Holds register := by
    rw [hStore]
    exact hHoldsFresh
  have hStill : index.Placed aimed.setting := by
    rw [hAimed.setting, hBuilt.setting, hFresh.setting]
    exact hPlaced
  have hReady : ∀ instruction ∈ [Instruction.unary .add register, .unary .copy register],
      instruction.Ready aimed.options.registers (aimed.listing.size + 2) := by
    have hAllocatable := hAimed.sound.store.allocatable_of_holds hHoldsAimed
    refine List.forall_mem_cons.mpr ⟨ready_of_allocatable hAimed.sound hAllocatable rfl _,
      List.forall_mem_cons.mpr ⟨ready_of_allocatable hAimed.sound hAllocatable rfl _, ?_⟩⟩
    exact fun _ hNone => absurd hNone List.not_mem_nil
  have hAdded : Works aimed { aimed.add [.unary .add register, .unary .copy register] with
      pointer := none } :=
    ⟨⟨⟨hAimed.sound.store, hAimed.sound.size, hAimed.sound.dynamics, hAimed.sound.distinct,
      (hAimed.sound.add _).recorded⟩, ⟨rfl, rfl, rfl, rfl, rfl⟩, grows_add hAimed.sound hReady⟩, rfl⟩
  have hBefore : Turns context aimed fun start finish => finish = start.hold register base :=
    (hFresh.after_still hBuilt).before_still hAimed
  refine ensures_emitAll (.modify ⟨hBefore.toWorks.trans hAdded, ?_, ?_⟩)
  · rw [← hRegisters]
    exact congrArg Store.registers hStore
  · intro picture offset hOffset
    refine (hBefore.reaches picture _ rfl).trans (.add hAimed.sound hReady
      (fun _ hShows => ⟨_, hShows⟩) ?_) hAdded.grows
    intro start hStart
    have hCell : start.memory start.pointer = some offset := by
      rw [hStart.pointer _ hPointer]
      have hStillFresh : aimed.store.symbols.isFresh index.name = true := by
        rw [hStore]
        exact hUpToDate
      have hStillOffset : (picture.hold register base).scalar index.name = some offset := hOffset
      exact keeps_of_isFresh hStill hStillFresh hStillOffset start hStart.forgetPointer
    have hContent : start.registers register = base :=
      (hStart.held register base (Function.update_self _ _ _)).2
    let moved := (start.setRegister register (base + offset)).setRegister 0 (base + offset)
    have hRun : start.runBlock [.unary .add register, .unary .copy register] = some moved := by
      simp only [Snapshot.runBlock, Snapshot.effect?, Instruction.unary, hCell, hContent,
        Option.map_some, Option.bind_some, Snapshot.registers_setRegister_self, moved]
    refine ⟨moved, hRun, ?_, Snapshot.registers_setRegister_self _ _ _⟩
    have hMoved := ((hStart.setHeld hAimed.sound.store.toLinked hHoldsAimed (base + offset)).setPointer
      hAimed.sound.store.toLinked (base + offset)).forgetPointer
    rw [Picture.hold_hold] at hMoved
    exact hMoved

theorem take_ensures (hSound : context.Sound) {registers : List Int}
    (hHolding : context.Holding registers) (hFew : registers.length < 4) {operand : Operand}
    (hPlaced : operand.Placed context.setting) :
    Ensures (Generating.take operand) context fun register after =>
      Takes context after registers register operand.value? := by
  cases operand with
  | constant value =>
      refine .bind (acquire_ensures hSound hHolding hFew) ?_
      rintro register taken ⟨hTaken, hHeld, hNew, -⟩
      have hHolds := (hHeld.held register).mp List.mem_cons_self
      have hBuilt := Turns.buildConstant hTaken.sound hHolds value
      have hNonzero := hTaken.sound.store.toLinked.ne_zero_of_holds hHolds
      refine ensures_buildConstant hNonzero
        (.pure ⟨hTaken.trans hBuilt ?_, hHeld.congr rfl, hNew⟩)
      rintro start _ ⟨found, hFound, rfl⟩
      obtain rfl := Option.some.inj hFound
      exact ⟨start, rfl, rfl⟩
  | scalar cell => exact takeScalar_ensures hSound hHolding hFew hPlaced
  | element address =>
      refine (loadCell_ensures hSound hHolding hFew address (fun picture => picture.cell address)
        ?_).mono fun _ _ hTakes => hTakes.1
      intro middle _ hSetting _ picture value hValue
      exact keeps_of_cell (by rw [hSetting]; exact hPlaced) hValue
  | dynamic base index =>
      obtain ⟨hBase, hIndex⟩ := hPlaced
      refine .bind (acquire_ensures hSound hHolding hFew) ?_
      rintro register taken ⟨hTaken, hHeld, hNew, -⟩
      have hHolds := (hHeld.held register).mp List.mem_cons_self
      refine .bind (computeAddress_ensures hTaken.sound hHolds base
        (by rw [hTaken.setting]; exact hIndex)) ?_
      rintro - found ⟨hWorks, hRegisters, hReaches⟩
      have hStill := hHeld.congr hRegisters
      have hHoldsStill := (hStill.held register).mp List.mem_cons_self
      have hReady : ∀ instruction ∈ [Instruction.unary .load register],
          instruction.Ready found.options.registers (found.listing.size + 1) := by
        intro instruction hInstruction
        rw [List.mem_singleton.mp hInstruction]
        exact ready_of_allocatable hWorks.sound
          (hWorks.sound.store.allocatable_of_holds hHoldsStill) rfl _
      have hLoaded := Works.add hWorks.sound hReady
      refine ensures_emitAll (.pure ⟨⟨(hTaken.toWorks.trans hWorks).trans hLoaded, ?_⟩,
        hStill.congr rfl, hNew⟩)
      rintro start _ ⟨value, hValue, rfl⟩
      obtain ⟨offset, hOffset, hCell⟩ := Option.bind_eq_some_iff.mp hValue
      refine ((hTaken.reaches start start rfl).trans (hReaches start offset hOffset)
        hWorks.grows).trans (.add hWorks.sound hReady (fun _ hHere => ⟨_, hHere.1⟩) ?_) hLoaded.grows
      rintro snapshot ⟨hShows, hPointer⟩
      have hMemory : snapshot.memory snapshot.pointer = some value := by
        rw [hPointer]
        refine hShows.cells _ value ?_ hCell
        change found.setting.arraysStart ≤ base + offset
        rw [hWorks.setting, hTaken.setting]
        exact Nat.le_trans hBase (Nat.le_add_right _ _)
      refine ⟨snapshot.setRegister register value, ?_, ?_⟩
      · simp only [Snapshot.runBlock, Snapshot.effect?, Instruction.unary, hMemory,
          Option.map_some, Option.bind_some]
      · have hHeldNow := hShows.setHeld hWorks.sound.store.toLinked hHoldsStill value
        rw [Picture.hold_hold] at hHeldNow
        exact hHeldNow

/-! ### Aiming at operands -/

end Context

def Setting.Borrowed (base setting : Setting) : Option Address → Prop
  | none => setting = base
  | some cell => ∃ handle, base.Spare cell [handle] ∧ setting = base.claimRun cell [handle]

namespace Context

variable {context : Context}

theorem Turns.storeScratch (hSound : context.Sound) {register : Int}
    (hHolds : context.store.Holds register) {cell : Address}
    (hScratch : context.setting.IsScratch cell) (hPointer : context.pointer = some cell.toNat) :
    Turns context (context.add [.unary .store register]) fun start finish =>
      ∃ value, start.held register = some value ∧ finish = start.setScratch cell value := by
  refine .unary hSound hHolds rfl ?_
  rintro start _ snapshot ⟨value, hValue, rfl⟩ hShows
  refine ⟨_, ?_, hShows.storeScratch hSound.store.toLinked hScratch value⟩
  have hPlace := hShows.pointer _ hPointer
  have hContent := (hShows.held register value hValue).2
  simp only [Snapshot.effect?, Instruction.unary, hPlace, hContent]

/-- A lent cell is a scratch cell. -/
theorem isScratch_of_lent (hSound : context.Sound) {base : Setting} {start : Address}
    {handles : List Handle} (hSpare : base.Spare start handles)
    (hLent : context.setting = base.claimRun start handles) {address : Address}
    (hFirst : start.toNat ≤ address.toNat)
    (hLast : address.toNat < start.toNat + handles.length) :
    context.setting.IsScratch address := by
  have hOrdered := Layout.ordered_of_fault? hSound.store.layout
  have hLayout : context.store.space.layout = base.layout := by
    change context.setting.layout = base.layout
    rw [hLent, Setting.claimRun_eq_update]
  have hLow := hOrdered.loopScalars
  have hScalars := hOrdered.scalars
  have hArrays := hOrdered.scalarsArrays
  rw [hLayout] at hLow hScalars hArrays
  rw [hLent]
  exact Setting.isScratch_claimRun_self hSpare (by unfold Setting.arraysStart; omega) hFirst hLast

/-- A picture says nothing about a cell that is lent. -/
theorem scratch_eq_none_of_spare {start : Address} {handles : List Handle}
    (hSpare : context.setting.Spare start handles) {address : Address}
    (hFirst : start.toNat ≤ address.toNat) (hLast : address.toNat < start.toNat + handles.length)
    {picture : Picture} {snapshot : Snapshot} (hShows : context.Shows picture snapshot) :
    picture.scratch address = none := by
  cases hFound : picture.scratch address with
  | none => rfl
  | some value =>
      obtain ⟨⟨-, handle, hOwner, -⟩, -⟩ := hShows.scratch address value hFound
      rw [hSpare.owners address hFirst hLast] at hOwner
      contradiction

private theorem aimAtConstant_ensures (hSound : context.Sound) {registers : List Int}
    (hHolding : context.Holding registers) (hFew : registers.length < 4) (value : Nat) :
    Ensures (Generating.aimAt (.constant value)) context fun borrowed after =>
      Advances context after ∧ context.setting.Borrowed after.setting borrowed ∧
        after.Holding registers ∧ ∀ picture, Reaches context after (context.Shows picture)
          fun snapshot => after.Shows picture snapshot ∧
            snapshot.memory snapshot.pointer = some value := by
  refine .bind (acquire_ensures hSound hHolding hFew) ?_
  rintro register taken ⟨hTaken, hHeld, hNew, -⟩
  have hHolds := (hHeld.held register).mp List.mem_cons_self
  have hBuilt := Turns.buildConstant hTaken.sound hHolds value
  have hNonzero := hTaken.sound.store.toLinked.ne_zero_of_holds hHolds
  refine ensures_buildConstant hNonzero
    (.bind (takeScratch_ensures hBuilt.sound (by decide) (by decide)) ?_)
  rintro cell _ ⟨store, handles, rfl, hLength, hLent, hSpare, hSetting, hRegisters, hSymbols⟩
  obtain ⟨handle, rfl⟩ := List.length_eq_one_iff.mp hLength
  refine .bind (pointTo_ensures hLent.sound cell.toNat) ?_
  rintro - aimed ⟨hAimed, hStore, hPointer⟩
  have hScratch : aimed.setting.IsScratch cell :=
    isScratch_of_lent hAimed.sound hSpare (hAimed.setting.trans hSetting) (Nat.le_refl _)
      (by simp)
  have hHeldAimed : aimed.Holding (register :: registers) :=
    (hHeld.congr rfl).congr (by rw [hStore]; exact hRegisters)
  have hHoldsAimed := (hHeldAimed.held register).mp List.mem_cons_self
  have hStored := Turns.storeScratch hAimed.sound hHoldsAimed hScratch hPointer
  have hHeldStored : (aimed.add [.unary .store register]).Holding (register :: registers) :=
    hHeldAimed.congr rfl
  have hFreed := Turns.release hStored.sound ((hHeldStored.held register).mp List.mem_cons_self)
  have hBase := hBuilt.setting.trans hTaken.setting
  refine ensures_emitAll (.onStore_bind (StoreAction.release_gives
    (hStored.sound.store.allocatable_of_holds ((hHeldStored.held register).mp List.mem_cons_self)))
    (.pure ⟨?_, ?_, hHeldStored.release_head hStored.sound hNew, ?_⟩))
  · exact ((((hTaken.toAdvances.trans hBuilt.toAdvances).trans hLent).trans hAimed.toAdvances).trans
      hStored.toAdvances).trans hFreed.toAdvances
  · rw [hBase] at hSpare hSetting
    exact ⟨handle, hSpare, hFreed.setting.trans (hStored.setting.trans
      (hAimed.setting.trans hSetting))⟩
  · intro picture
    refine .assume ?_
    intro known hKnown
    have hNotHeld := hHolding.held_eq_none hNew hKnown
    have hSpareHere : context.setting.Spare cell [handle] := by
      rw [hBase] at hSpare
      exact hSpare
    have hNotUsed := scratch_eq_none_of_spare hSpareHere (Nat.le_refl _) (by simp) hKnown
    have hLends : Reaches (taken.add (constantCode register value)) _
        ((taken.add (constantCode register value)).Shows (picture.hold register value)) _ :=
      .still rfl fun _ hShows => Shows.lend hBuilt.sound hSpare hSetting hRegisters hSymbols hShows
    refine ((((((hTaken.reaches picture picture rfl).trans (hBuilt.reaches picture _ rfl)
      hBuilt.grows).trans hLends hLent.grows).trans (hAimed.reaches _ _ rfl) hAimed.grows).trans
      (hStored.reaches _ _ ⟨value, Function.update_self _ _ _, rfl⟩) hStored.grows).trans
      (hFreed.reaches _ _ rfl) hFreed.grows).mono (fun _ hShows => hShows) ?_
    intro snapshot hShows
    constructor
    · refine hShows.restrict ⟨rfl, rfl, ?_, ?_, rfl, rfl⟩
      · intro address found hFound
        have hOther : address ≠ cell := by
          rintro rfl
          rw [hNotUsed] at hFound
          contradiction
        simp only [Picture.drop, Picture.setScratch, Picture.hold, Function.update_of_ne hOther]
        exact hFound
      · intro other found hFound
        have hOther : other ≠ register := by
          rintro rfl
          rw [hNotHeld] at hFound
          contradiction
        simp only [Picture.drop, Picture.setScratch, Picture.hold, Function.update_of_ne hOther]
        exact hFound
    · rw [hShows.pointer _ hPointer]
      exact (hShows.scratch cell value (Function.update_self _ _ _)).2

/-- Aiming at an operand leaves the pointer on a cell with its value. -/
theorem aimAt_ensures (hSound : context.Sound) {registers : List Int}
    (hHolding : context.Holding registers) (hFew : registers.length < 4) {operand : Operand}
    (hPlaced : operand.Placed context.setting) :
    Ensures (Generating.aimAt operand) context fun borrowed after =>
      Advances context after ∧ context.setting.Borrowed after.setting borrowed ∧
        after.Holding registers ∧ ∀ picture value, operand.value? picture = some value →
          Reaches context after (context.Shows picture) fun snapshot =>
            after.Shows picture snapshot ∧ snapshot.memory snapshot.pointer = some value := by
  cases operand with
  | constant value =>
      refine (aimAtConstant_ensures hSound hHolding hFew value).mono ?_
      rintro borrowed after ⟨hAdvances, hBorrowed, hHeld, hReaches⟩
      refine ⟨hAdvances, hBorrowed, hHeld, ?_⟩
      intro picture found hFound
      obtain rfl := Option.some.inj hFound
      exact hReaches picture
  | scalar cell =>
      refine .bind (refresh_ensures hSound hPlaced) ?_
      rintro - fresh ⟨hFresh, hRegisters, hUpToDate⟩
      refine .bind (pointTo_ensures hFresh.sound cell.address) ?_
      rintro - aimed ⟨hAimed, hStore, hPointer⟩
      have hTurns := hFresh.after_still hAimed
      refine .pure ⟨hTurns.toAdvances, hTurns.setting,
        hHolding.congr (by rw [hStore]; exact hRegisters), ?_⟩
      intro picture value hValue
      refine (hTurns.reaches picture picture rfl).mono (fun _ hShows => hShows) ?_
      intro snapshot hShows
      refine ⟨hShows, ?_⟩
      rw [hShows.pointer _ hPointer]
      exact keeps_of_isFresh (by rw [hTurns.setting]; exact hPlaced)
        (by rw [hStore]; exact hUpToDate) hValue snapshot hShows.forgetPointer
  | element address =>
      refine .bind (pointTo_ensures hSound address) ?_
      rintro - aimed ⟨hAimed, hStore, hPointer⟩
      refine .pure ⟨hAimed.toAdvances, hAimed.setting, hHolding.congr (by rw [hStore]), ?_⟩
      intro picture value hValue
      refine (hAimed.reaches picture picture rfl).mono (fun _ hShows => hShows) ?_
      intro snapshot hShows
      refine ⟨hShows, ?_⟩
      rw [hShows.pointer _ hPointer]
      refine hShows.cells address value ?_ hValue
      rw [hStore]
      exact hPlaced
  | dynamic base index =>
      obtain ⟨hBase, hIndex⟩ := hPlaced
      refine .bind (acquire_ensures hSound hHolding hFew) ?_
      rintro register taken ⟨hTaken, hHeld, hNew, -⟩
      have hHolds := (hHeld.held register).mp List.mem_cons_self
      refine .bind (computeAddress_ensures hTaken.sound hHolds base
        (by rw [hTaken.setting]; exact hIndex)) ?_
      rintro - found ⟨hWorks, hRegisters, hReaches⟩
      have hStill := hHeld.congr hRegisters
      have hHoldsStill := (hStill.held register).mp List.mem_cons_self
      have hFreed := Turns.release hWorks.sound hHoldsStill
      have hSetting := hWorks.setting.trans hTaken.setting
      refine .onStore_bind (StoreAction.release_gives
        (hWorks.sound.store.allocatable_of_holds hHoldsStill)) (.pure
          ⟨(hTaken.toAdvances.trans hWorks.toAdvances).trans hFreed.toAdvances,
            hFreed.setting.trans hSetting, hStill.release_head hWorks.sound hNew, ?_⟩)
      intro picture value hValue
      obtain ⟨offset, hOffset, hCell⟩ := Option.bind_eq_some_iff.mp hValue
      refine .assume ?_
      intro known hKnown
      have hNotHeld := hHolding.held_eq_none hNew hKnown
      refine ((hTaken.reaches picture picture rfl).trans (hReaches picture offset hOffset)
        hWorks.grows).trans (.still rfl ?_) hFreed.grows
      rintro snapshot ⟨hShows, hPointer⟩
      have hVacated := hShows.vacate hWorks.sound.store.toLinked
        (hWorks.sound.store.allocatable_of_holds hHoldsStill) .free
      rw [Picture.drop_hold, Picture.drop_eq_self hNotHeld] at hVacated
      refine ⟨hVacated, ?_⟩
      rw [hPointer]
      refine hShows.cells _ value ?_ hCell
      change found.setting.arraysStart ≤ base + offset
      rw [hSetting]
      exact Nat.le_trans hBase (Nat.le_add_right _ _)

/-- Giving a borrowed cell back restores the setting. -/
theorem freeBorrowed_ensures (hSound : context.Sound) {base : Setting} {borrowed : Option Address}
    (hBorrowed : base.Borrowed context.setting borrowed) :
    Ensures (Generating.freeBorrowed borrowed) context fun _ after =>
      Advances context after ∧ after.setting = base ∧
        after.store.registers = context.store.registers ∧
        ∀ picture, (∀ cell, borrowed = some cell → picture.scratch cell = none) →
          Reaches context after (context.Shows picture) (after.Shows picture) := by
  cases borrowed with
  | none => exact .pure ⟨.refl hSound, hBorrowed, rfl, fun _ _ => .still rfl fun _ hShows => hShows⟩
  | some cell =>
      obtain ⟨handle, hSpare, hLent⟩ := hBorrowed
      refine (returnScratch_ensures hSound hSpare hLent).mono ?_
      rintro - _ ⟨store, rfl, hAdvances, hSetting, hRegisters, -, hShowsLater⟩
      refine ⟨hAdvances, hSetting, hRegisters, ?_⟩
      intro picture hUnused
      refine .still rfl ?_
      intro snapshot hShows
      refine (hShowsLater picture snapshot hShows).restrict ⟨rfl, rfl, ?_, ?_, rfl, rfl⟩
      · intro address value hValue
        have hOther : address.toNat ≠ cell.toNat := by
          intro hSame
          rw [UInt64.toNat_inj.mp hSame, hUnused cell rfl] at hValue
          contradiction
        simp [Picture.forget, hOther, hValue]
      · intro register value hValue
        simp [Picture.forget, hValue]

/-- A picture says nothing about a borrowed cell. -/
theorem scratch_eq_none_of_borrowed {setting : Setting} {borrowed : Option Address}
    (hBorrowed : context.setting.Borrowed setting borrowed) {picture : Picture}
    {snapshot : Snapshot} (hShows : context.Shows picture snapshot) :
    ∀ cell, borrowed = some cell → picture.scratch cell = none := by
  rintro cell rfl
  obtain ⟨handle, hSpare, -⟩ := hBorrowed
  exact scratch_eq_none_of_spare hSpare (Nat.le_refl _) (by simp) hShows

end Context

end RegisterCompiler
