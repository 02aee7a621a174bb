/-
The code of counting loops.

A counting loop has two cells: one of its variable, which gets a name while the loop is
compiled, and one of the number of rounds that are left, which stays a scratch cell.  Every
round counts the second one down, so the body, which may change neither, is run as often as
the bounds said at the start.
-/

import RegisterCompiler.Proofs.Generator.Branching

set_option autoImplicit false

namespace RegisterCompiler

open Generating (Ensures LoopCells)

/-! ### Cells that get and lose a name -/

namespace Store

theorem known_eq_none_of_unnamed {store : Store} {handle : Handle}
    (hUnnamed : store.setting.nameOf handle = none) : store.setting.known handle = none := by
  have hNone : store.symbols.byValue.lookup handle = none := hUnnamed
  simp only [setting, hNone, Option.isSome_none, Bool.false_eq_true, if_false]

private theorem isFresh_bindName_of_ne (store : Store) {name other : String} (hOther : other ≠ name)
    (kind : SymbolKind) (handle : Handle) :
    (store.bindName name kind handle).symbols.isFresh other = store.symbols.isFresh other := by
  simp only [SymbolTable.isFresh, lookup?_bindName, if_neg hOther]

private theorem isFresh_unbindName_of_ne (store : Store) {name other : String}
    (hOther : other ≠ name) (handle : Handle) :
    (store.unbindName name handle).symbols.isFresh other = store.symbols.isFresh other := by
  simp only [SymbolTable.isFresh, lookup?_unbindName, if_neg hOther]

end Store

namespace Coherent

variable {store : Store} {pointer : Option Nat} {picture : Picture} {snapshot : Snapshot}
  {name : String} {kind : SymbolKind} {handle : Handle} {address : Address}

/-- The cell of a name that is not cached may be written, which gives the name a new value. -/
theorem overwriteName (hCoherent : Coherent store pointer picture snapshot)
    (hLinked : store.Linked) (hCell : store.setting.cell? name = some (kind, handle, address))
    (hUncached : ∀ register, store.occupant? register ≠ some handle) (value : Nat) :
    Coherent store pointer (picture.setScalar name value)
      (snapshot.setCell address.toNat value) where
  pointer := hCoherent.pointer
  memory := by
    intro other otherKind otherHandle place found hOther hFresh hFound
    simp only [Picture.setScalar, Function.update_apply] at hFound
    split at hFound
    · rename_i hSame
      rw [hSame, hCell] at hOther
      cases hOther
      cases hFound
      exact Snapshot.memory_setCell_self _ _ _
    · rename_i hDifferent
      have hPlace : place.toNat ≠ address.toNat := by
        intro hEqual
        rw [UInt64.toNat_inj.mp hEqual] at hOther
        exact hDifferent (hLinked.name_eq_of_cell? hOther hCell).1
      rw [Snapshot.memory_setCell_of_ne _ hPlace]
      exact hCoherent.memory other otherKind otherHandle place found hOther hFresh hFound
  cache := by
    intro register other found number hOccupant hName hNumber
    have hDifferent : found ≠ name := by
      rintro rfl
      obtain ⟨otherKind, hDeclared⟩ := hLinked.names other found hName
      rw [(Setting.cell?_eq_some_iff.mp hCell).1] at hDeclared
      cases hDeclared
      exact hUncached register hOccupant
    simp only [Picture.setScalar, Function.update_of_ne hDifferent] at hNumber
    exact hCoherent.cache register other found number hOccupant hName hNumber
  mirror := by
    intro register other found otherKind place hOccupant hOther hFresh
    have hPlace : place.toNat ≠ address.toNat := by
      intro hEqual
      rw [UInt64.toNat_inj.mp hEqual] at hOther
      rw [(hLinked.name_eq_of_cell? hOther hCell).2] at hOccupant
      exact hUncached register hOccupant
    rw [Snapshot.memory_setCell_of_ne _ hPlace]
    exact hCoherent.mirror register other found otherKind place hOccupant hOther hFresh
  cells := hCoherent.cells_setName hLinked hCell value
  scratch := hCoherent.scratch_setName hLinked hCell value
  held := hCoherent.held
  input := hCoherent.input
  output := hCoherent.output

/-- A scratch cell may get a name, which then has the value of the cell. -/
theorem bindName (hCoherent : Coherent store pointer picture snapshot) (hLinked : store.Linked)
    (hSetting : (store.bindName name kind handle).setting =
      store.setting.bindName name kind handle)
    (hNew : store.setting.declared name = none) (hChunk : store.setting.chunk handle = some address)
    (hUnnamed : store.setting.nameOf handle = none) {value : Nat}
    (hValue : picture.scratch address = some value) :
    Coherent (store.bindName name kind handle) pointer
      ((picture.forget [] [address.toNat]).setScalar name value) snapshot where
  pointer := hCoherent.pointer
  memory := by
    intro other otherKind otherHandle place found hOther hFresh hFound
    obtain ⟨hDeclared, hPlace⟩ := Setting.cell?_eq_some_iff.mp hOther
    rw [hSetting] at hDeclared hPlace
    simp only [Setting.bindName, Picture.setScalar, Picture.forget, Function.update_apply]
      at hDeclared hPlace hFound
    split at hFound
    · rename_i hSame
      rw [if_pos hSame] at hDeclared
      cases hDeclared
      cases hFound
      rw [hChunk] at hPlace
      cases hPlace
      exact (hCoherent.scratch address value hValue).2
    · rename_i hDifferent
      rw [if_neg hDifferent] at hDeclared
      rw [Store.isFresh_bindName_of_ne _ hDifferent] at hFresh
      exact hCoherent.memory other otherKind otherHandle place found
        (Setting.cell?_eq_some_iff.mpr ⟨hDeclared, hPlace⟩) hFresh hFound
  cache := by
    intro register other found number hOccupant hName hNumber
    rw [hSetting] at hName
    have hOther : other ≠ handle := by
      rintro rfl
      have hNamed := hLinked.occupantNames register other hOccupant
      rw [hUnnamed] at hNamed
      contradiction
    simp only [Setting.bindName, Function.update_of_ne hOther] at hName
    have hDifferent : found ≠ name := by
      rintro rfl
      obtain ⟨otherKind, hDeclared⟩ := hLinked.names other found hName
      rw [hNew] at hDeclared
      contradiction
    simp only [Picture.setScalar, Function.update_of_ne hDifferent] at hNumber
    exact hCoherent.cache register other found number hOccupant hName hNumber
  mirror := by
    intro register other found otherKind place hOccupant hOther hFresh
    obtain ⟨hDeclared, hPlace⟩ := Setting.cell?_eq_some_iff.mp hOther
    rw [hSetting] at hDeclared hPlace
    simp only [Setting.bindName, Function.update_apply] at hDeclared hPlace
    split at hDeclared
    · cases hDeclared
      have hNamed := hLinked.occupantNames register handle hOccupant
      rw [hUnnamed] at hNamed
      contradiction
    · rename_i hDifferent
      rw [Store.isFresh_bindName_of_ne _ hDifferent] at hFresh
      exact hCoherent.mirror register other found otherKind place hOccupant
        (Setting.cell?_eq_some_iff.mpr ⟨hDeclared, hPlace⟩) hFresh
  cells := by
    rw [hSetting]
    exact hCoherent.cells
  scratch := by
    intro place found hFound
    simp only [Picture.setScalar, Picture.forget, List.mem_singleton] at hFound
    split at hFound
    · contradiction
    · rename_i hPlace
      obtain ⟨⟨hLow, owner, hOwner, hName⟩, hMemory⟩ := hCoherent.scratch place found hFound
      have hOther : owner ≠ handle := by
        rintro rfl
        rw [(hLinked.owners place owner).mp hOwner] at hChunk
        exact hPlace (by rw [Option.some.inj hChunk])
      rw [hSetting]
      exact ⟨⟨hLow, owner, hOwner, (Function.update_of_ne hOther _ _).trans hName⟩, hMemory⟩
  held := hCoherent.held
  input := hCoherent.input
  output := hCoherent.output

/-- A name that is not cached may be removed, and nothing has to be known about it. -/
theorem unbindName (hCoherent : Coherent store pointer picture snapshot) (hLinked : store.Linked)
    (hSetting : (store.unbindName name handle).setting = store.setting.unbindName name handle)
    (hUncached : ∀ register, store.occupant? register ≠ some handle)
    (hBound : store.setting.declared name = some (kind, .value handle))
    {scalar : String → Option Nat} (hScalar : ∀ other, other ≠ name →
      scalar other = picture.scalar other) :
    Coherent (store.unbindName name handle) pointer { picture with scalar := scalar } snapshot where
  pointer := hCoherent.pointer
  memory := by
    intro other otherKind otherHandle place found hOther hFresh hFound
    obtain ⟨hDeclared, hPlace⟩ := Setting.cell?_eq_some_iff.mp hOther
    rw [hSetting] at hDeclared hPlace
    simp only [Setting.unbindName, Function.update_apply] at hDeclared hPlace
    split at hDeclared
    · contradiction
    · rename_i hDifferent
      rw [Store.isFresh_unbindName_of_ne _ hDifferent] at hFresh
      exact hCoherent.memory other otherKind otherHandle place found
        (Setting.cell?_eq_some_iff.mpr ⟨hDeclared, hPlace⟩) hFresh
        ((hScalar other hDifferent).symm.trans hFound)
  cache := by
    intro register other found number hOccupant hName hNumber
    have hOther : other ≠ handle := by
      rintro rfl
      exact hUncached register hOccupant
    rw [hSetting] at hName
    simp only [Setting.unbindName, Function.update_of_ne hOther] at hName
    have hDifferent : found ≠ name := by
      rintro rfl
      obtain ⟨otherKind, hDeclared⟩ := hLinked.names other found hName
      rw [hBound] at hDeclared
      cases hDeclared
      exact hOther rfl
    exact hCoherent.cache register other found number hOccupant hName
      ((hScalar found hDifferent).symm.trans hNumber)
  mirror := by
    intro register other found otherKind place hOccupant hOther hFresh
    obtain ⟨hDeclared, hPlace⟩ := Setting.cell?_eq_some_iff.mp hOther
    rw [hSetting] at hDeclared hPlace
    simp only [Setting.unbindName, Function.update_apply] at hDeclared hPlace
    split at hDeclared
    · contradiction
    · rename_i hDifferent
      rw [Store.isFresh_unbindName_of_ne _ hDifferent] at hFresh
      exact hCoherent.mirror register other found otherKind place hOccupant
        (Setting.cell?_eq_some_iff.mpr ⟨hDeclared, hPlace⟩) hFresh
  cells := by
    rw [hSetting]
    exact hCoherent.cells
  scratch := by
    intro place found hFound
    obtain ⟨⟨hLow, owner, hOwner, hName⟩, hMemory⟩ := hCoherent.scratch place found hFound
    rw [hSetting]
    refine ⟨⟨hLow, owner, hOwner, ?_⟩, hMemory⟩
    simp only [Setting.unbindName, Function.update_apply]
    split
    · rfl
    · exact hName
  held := hCoherent.held
  input := hCoherent.input
  output := hCoherent.output

end Coherent

/-! ### Opening a loop -/

def Operand.rounds? (direction : Direction) (first last : Operand) (picture : Picture) :
    Option Nat :=
  (first.value? picture).bind fun start =>
    (last.value? picture).map fun stop => direction.rounds start stop

private theorem Operand.rounds?_eq_some_iff {direction : Direction} {first last : Operand}
    {picture : Picture} {rounds : Nat} :
    rounds? direction first last picture = some rounds ↔ ∃ start stop,
      first.value? picture = some start ∧ last.value? picture = some stop ∧
        direction.rounds start stop = rounds := by
  unfold rounds?
  rw [Option.bind_eq_some_iff]
  constructor
  · rintro ⟨start, hStart, hRest⟩
    obtain ⟨stop, hStop, hResult⟩ := Option.map_eq_some_iff.mp hRest
    exact ⟨start, stop, hStart, hStop, hResult⟩
  · rintro ⟨start, stop, hStart, hStop, hResult⟩
    exact ⟨start, hStart, Option.map_eq_some_iff.mpr ⟨stop, hStop, hResult⟩⟩

@[simp]
theorem Operand.value?_setScratch (operand : Operand) (picture : Picture) (cell : Address)
    (value : Nat) : operand.value? (picture.setScratch cell value) = operand.value? picture := by
  cases operand <;> rfl

private theorem Picture.drop_setScratch_hold (picture : Picture) {register : Int}
    (hNone : picture.held register = none) (cell : Address) (value : Nat) :
    ((picture.hold register value).setScratch cell value).drop register =
      picture.setScratch cell value := by
  have hHeld : Function.update (Function.update picture.held register (some value)) register none =
      picture.held := by
    rw [Function.update_idem, ← hNone, Function.update_eq_self]
  simp only [Picture.drop, Picture.setScratch, Picture.hold, hHeld]

namespace Context

variable {context : Context}

private theorem Turns.inc (hSound : context.Sound) {register : Int}
    (hHolds : context.store.Holds register) :
    Turns context (context.add [.unary .inc register]) fun start finish =>
      ∃ value, start.held register = some value ∧ finish = start.hold register (value + 1) := by
  refine .unary hSound hHolds rfl ?_
  rintro start _ snapshot ⟨value, hValue, rfl⟩ hShows
  refine ⟨_, ?_, hShows.setHeld hSound.store.toLinked hHolds _⟩
  simp only [Snapshot.effect?, Instruction.unary, (hShows.held register value hValue).2]

/-- The distance of two operands plus one, zero if they are in the wrong order. -/
theorem distanceInclusive_ensures (hSound : context.Sound) (hHolding : context.Holding [])
    {low high : Operand} (hLow : low.Placed context.setting) (hHigh : high.Placed context.setting) :
    Ensures (do
      let register ← Generating.take high
      Generating.emit (.unary .inc register)
      Generating.decreaseBy register low
      return register) context fun register after =>
        Takes context after [] register fun picture =>
          Operand.rounds? .up low high picture := by
  refine .bind (take_ensures hSound hHolding (by decide) hHigh) ?_
  intro register taken hTakes
  have hHolds := (hTakes.holding.held register).mp List.mem_cons_self
  have hRaised := Turns.inc hTakes.turns.sound hHolds
  refine ensures_emitAll (.bind (decreaseBy_ensures hRaised.sound (hTakes.holding.add _)
    (by simp) List.mem_cons_self (by rw [hRaised.setting, hTakes.turns.setting]; exact hLow)) ?_)
  intro _ after hAlters
  refine .pure ⟨hTakes.turns.trans (hRaised.comp hAlters.turns) ?_, hAlters.holding, hTakes.new⟩
  rintro picture _ ⟨rounds, hRounds, rfl⟩
  obtain ⟨start, stop, hStart, hStop, rfl⟩ := Operand.rounds?_eq_some_iff.mp hRounds
  refine ⟨_, ⟨stop, hStop, rfl⟩, _, ⟨stop, picture.held_hold_self register stop, rfl⟩, stop + 1,
    start, Picture.held_hold_self _ _ _, ?_, ?_⟩
  · rw [Operand.value?_hold, Operand.value?_hold]
    exact hStart
  · rw [Picture.hold_hold, Picture.hold_hold]
    rfl

private theorem countRounds_ensures (hSound : context.Sound) (hHolding : context.Holding [])
    {first last : Operand} (hFirst : first.Placed context.setting)
    (hLast : last.Placed context.setting) (direction : Direction) :
    Ensures (Generating.countRounds first last direction) context fun register after =>
      Takes context after [] register (Operand.rounds? direction first last) := by
  cases direction with
  | up => exact distanceInclusive_ensures hSound hHolding hFirst hLast
  | down =>
      refine (distanceInclusive_ensures hSound hHolding hLast hFirst).mono ?_
      intro register after hTakes
      refine hTakes.imp fun picture rounds hRounds => ?_
      obtain ⟨start, stop, hStart, hStop, rfl⟩ := Operand.rounds?_eq_some_iff.mp hRounds
      exact Operand.rounds?_eq_some_iff.mpr ⟨stop, start, hStop, hStart, rfl⟩

private theorem storeCell_ensures (hSound : context.Sound) {register : Int}
    (hHolding : context.Holding [register]) {cell : Address}
    (hScratch : context.setting.IsScratch cell) :
    Ensures (Generating.storeCell cell register) context fun _ after =>
      Turns context after (fun start finish => ∃ value, start.held register = some value ∧
        finish = (start.setScratch cell value).drop register) ∧ after.Holding [] := by
  refine .bind (pointTo_ensures hSound cell.toNat) ?_
  rintro - aimed ⟨hAimed, hStore, hPointer⟩
  have hHeld : aimed.Holding [register] := hHolding.congr (by rw [hStore])
  have hHolds := (hHeld.held register).mp List.mem_cons_self
  have hStored := Turns.storeScratch hAimed.sound hHolds
    (by rw [hAimed.setting]; exact hScratch) hPointer
  have hFreed := Turns.release hStored.sound hHolds
  refine ensures_emitAll (.onStore (StoreAction.release_gives
    (hStored.sound.store.allocatable_of_holds hHolds)) ⟨hAimed.after_still
      ((hStored.comp hFreed).imp ?_), (hHeld.add _).release_head hStored.sound List.not_mem_nil⟩)
  rintro start _ ⟨value, hValue, rfl⟩
  exact ⟨_, ⟨value, hValue, rfl⟩, rfl⟩

private theorem placed_claim (hSound : context.Sound) {cell : Address} {handle : Handle}
    (hSpare : context.setting.Spare cell [handle]) {operand : Operand}
    (hPlaced : operand.Placed context.setting) :
    operand.Placed (context.setting.claim cell handle) := by
  have hCell : ∀ name, (context.setting.claim cell handle).cell? name =
      context.setting.cell? name :=
    Setting.cell?_claimRun (fun other hOther => (hSpare.values other hOther).2)
      fun other kind found hDeclared => (hSound.store.cells other kind found hDeclared).1
  have hScalar : ∀ place : ScalarCell, place.Placed context.setting →
      place.Placed (context.setting.claim cell handle) := by
    intro place hPlace
    unfold ScalarCell.Placed at hPlace ⊢
    rw [hCell]
    exact hPlace
  cases operand with
  | constant value => trivial
  | scalar place => exact hScalar place hPlaced
  | element address => exact hPlaced
  | dynamic base index => exact ⟨hPlaced.1, hScalar index hPlaced.2⟩

/-- A step that takes a loop cell for a value without a name. -/
structure Lends (before after : Context) (cell : Address) (handle : Handle) : Prop where
  advances : Advances before after
  spare : before.setting.Spare cell [handle]
  setting : after.setting = before.setting.claim cell handle
  registers : after.store.registers = before.store.registers
  symbols : after.store.symbols = before.store.symbols
  same : after = { before with store := after.store }

namespace Lends

variable {before after : Context} {cell : Address} {handle : Handle}

private theorem isScratch (hLends : Lends before after cell handle) :
    after.setting.IsScratch cell :=
  isScratch_of_lent hLends.advances.sound hLends.spare hLends.setting (Nat.le_refl _)
    (Nat.lt_succ_self _)

private theorem reaches (hLends : Lends before after cell handle) (hSound : before.Sound)
    (picture : Picture) : Reaches before after (before.Shows picture) (after.Shows picture) := by
  refine .still (by rw [hLends.same]) fun snapshot hShows => ?_
  have hLent : Coherent after.store before.pointer picture snapshot :=
    Shows.lend hSound hLends.spare hLends.setting hLends.registers hLends.symbols hShows
  have hPointer : after.pointer = before.pointer := by rw [hLends.same]
  rw [Shows, hPointer]
  exact hLent

end Lends

private theorem takeCell_ensures (hSound : context.Sound) :
    Ensures (Generating.takeScratch 1) context fun cell after =>
      ∃ handle, Lends context after cell handle := by
  refine (takeScratch_ensures hSound (by decide) (by decide)).mono ?_
  rintro cell _ ⟨store, handles, rfl, hLength, hAdvances, hSpare, hSetting, hRegisters, hSymbols⟩
  obtain ⟨handle, rfl⟩ := List.length_eq_one_iff.mp hLength
  exact ⟨handle, hAdvances, hSpare, hSetting, hRegisters, hSymbols, rfl⟩

/-- The cell of a variable is taken, unless the loop segment is full. -/
theorem placeIterator_ensures (hSound : context.Sound) {handle : Handle}
    (hLoose : context.store.Loose handle)
    (hUnknown : (context.store.arena.get? handle).bind Value.known? = none)
    (hNew : handle ∉ context.dynamics) :
    Ensures (Generating.placeIterator handle) context fun cell after =>
      Lends context after cell handle := by
  have hAll : ∀ other ∈ [handle], context.store.Loose other := by
    intro other hOther
    rw [List.mem_singleton.mp hOther]
    exact hLoose
  have hBlank : ∀ other ∈ [handle], (context.store.arena.get? other).bind Value.known? = none := by
    intro other hOther
    rw [List.mem_singleton.mp hOther]
    exact hUnknown
  have hShort : [handle].length < UInt64.size := by
    change 1 < UInt64.size
    decide
  rcases StoreAction.allocateRun_run hSound.store (List.cons_ne_nil handle []) hShort hAll
    hBlank (List.pairwise_singleton _ handle) with ⟨range, wanted, hRefuses⟩ |
      ⟨cell, store, hGives, hStore, hSpare, hClaimed, hRegisters, hSymbols, hLive⟩
  · obtain ⟨value, arena, hFree, -⟩ := Store.free_of_loose hSound.store hLoose
    have hRefused : (StoreAction.allocate .loop handle).Refuses context.store _ :=
      (StoreAction.run_allocate_loop handle context.store).trans hRefuses
    exact .tryCatch_refuses hRefused (.onStore_bind (StoreAction.free_gives hFree) rfl)
  · have hTaken : (StoreAction.allocate .loop handle).Gives context.store cell store :=
      (StoreAction.run_allocate_loop handle context.store).trans hGives
    refine .tryCatch_onStore hTaken ⟨.onStore hSound hStore (by rw [hRegisters]) ?_, hSpare,
      hClaimed, hRegisters, hSymbols, rfl⟩
    intro other hOther hFound
    have hDifferent : other ∉ [handle] := by
      intro hMem
      rw [List.mem_singleton.mp hMem] at hOther
      exact hNew hOther
    refine ⟨by rw [hLive]; exact hFound.live, ?_, ?_⟩
    · rw [hClaimed]
      exact hFound.unnamed
    · rw [hClaimed, Setting.chunk_claimRun_of_not_mem _ _ hDifferent]
      exact hFound.unplaced

/-- A new value without a name changes nothing that is shown. -/
theorem createValue_ensures (hSound : context.Sound) (payload : Payload) :
    Ensures (Generating.onStore (StoreAction.create payload)) context fun handle after =>
      Turns context after Eq ∧ after.store.registers = context.store.registers ∧
        after.store.symbols = context.store.symbols ∧ after.store.Loose handle ∧
        after.store.arena.get? handle = some (.ofPayload payload) ∧ handle ∉ after.dynamics := by
  have hNew := Arena.get?_create_before hSound.store.arena payload
  refine .onStore (StoreAction.create_gives context.store payload) ⟨?_, rfl, rfl,
    Store.loose_create hSound.store payload, Arena.get?_create_self hSound.store.arena payload, ?_⟩
  · refine .onStore hSound (Store.sound_create hSound.store payload) rfl
      (Store.setting_create hSound.store payload) ?_ ?_
    · exact fun handle hLoose => (Store.Loose.create hSound.store payload hLoose).1
    · intro start finish snapshot hEqual hShows
      subst hEqual
      exact hShows.congr_setting rfl rfl (Store.setting_create hSound.store payload)
  · intro hMem
    have hLive := (hSound.dynamics _ hMem).live
    rw [hNew] at hLive
    contradiction

structure Deposits (before after : Context) (cell : Address) (handle : Handle)
    (content : Picture → Option Nat) : Prop where
  advances : Advances before after
  holding : after.Holding []
  spare : before.setting.Spare cell [handle]
  setting : after.setting = before.setting.claim cell handle
  reaches : ∀ picture value, content picture = some value →
    Reaches before after (before.Shows picture) (after.Shows (picture.setScratch cell value))

private theorem depositRounds_ensures (hSound : context.Sound) (hHolding : context.Holding [])
    {first last : Operand} (hFirst : first.Placed context.setting)
    (hLast : last.Placed context.setting) (direction : Direction)
    {next : Address → Generating LoopCells} {post : LoopCells → Context → Prop}
    (hNext : ∀ after cell owner,
      Deposits context after cell owner (Operand.rounds? direction first last) →
      Ensures (next cell) after post) :
    Ensures (do
      let rounds ← Generating.countRounds first last direction
      let cell ← Generating.takeScratch 1
      Generating.storeCell cell rounds
      next cell) context post := by
  refine .bind (countRounds_ensures hSound hHolding hFirst hLast direction) ?_
  intro register taken hTakes
  refine .bind (takeCell_ensures hTakes.turns.sound) ?_
  rintro cell lent ⟨owner, hLends⟩
  refine .bind (storeCell_ensures hLends.advances.sound (hTakes.holding.congr hLends.registers)
    hLends.isScratch) ?_
  rintro - stored ⟨hStored, hEmpty⟩
  have hSame : taken.setting = context.setting := hTakes.turns.setting
  refine hNext stored cell owner ⟨?_, hEmpty, hSame ▸ hLends.spare, ?_, ?_⟩
  · exact (hTakes.turns.toAdvances.trans hLends.advances).trans hStored.toAdvances
  · rw [hStored.setting, hLends.setting, hSame]
  · intro picture value hValue
    refine .assume fun snapshot hShows => ?_
    have hNone : picture.held register = none :=
      hHolding.held_eq_none List.not_mem_nil hShows
    rw [← picture.drop_setScratch_hold hNone cell value]
    refine ((hTakes.turns.reaches picture _ ⟨value, hValue, rfl⟩).trans
      (hLends.reaches hTakes.turns.sound _) hLends.advances.grows).trans ?_ hStored.grows
    exact hStored.reaches _ _ ⟨value, picture.held_hold_self register value, rfl⟩

private theorem depositStart_ensures (hSound : context.Sound) (hHolding : context.Holding [])
    {operand : Operand} (hPlaced : operand.Placed context.setting) (iterator : String)
    {next : Handle → Address → Generating LoopCells} {post : LoopCells → Context → Prop}
    (hNext : ∀ after cell handle, Deposits context after cell handle operand.value? →
      Ensures (next handle cell) after post) :
    Ensures (do
      let handle ← Generating.onStore (StoreAction.create (.plain (.unknown iterator)))
      let cell ← Generating.placeIterator handle
      let initial ← Generating.take operand
      Generating.storeCell cell initial
      next handle cell) context post := by
  refine .bind (createValue_ensures hSound _) ?_
  rintro handle created ⟨hCreated, hRegisters, -, hLoose, hValue, hNew⟩
  have hBlank : (created.store.arena.get? handle).bind Value.known? = none := by
    rw [hValue]
    rfl
  refine .bind (placeIterator_ensures hCreated.sound hLoose hBlank hNew) ?_
  intro cell lent hLends
  have hThere : operand.Placed lent.setting := by
    rw [hLends.setting]
    exact placed_claim hCreated.sound hLends.spare (by rw [hCreated.setting]; exact hPlaced)
  have hNoneHeld : lent.Holding [] := (hHolding.congr hRegisters).congr hLends.registers
  refine .bind (take_ensures hLends.advances.sound hNoneHeld (by decide) hThere) ?_
  intro register taken hTakes
  refine .bind (storeCell_ensures hTakes.turns.sound hTakes.holding
    (by rw [hTakes.turns.setting]; exact hLends.isScratch)) ?_
  rintro - stored ⟨hStored, hEmpty⟩
  have hSame : created.setting = context.setting := hCreated.setting
  refine hNext stored cell handle ⟨?_, hEmpty, hSame ▸ hLends.spare, ?_, ?_⟩
  · exact ((hCreated.toAdvances.trans hLends.advances).trans hTakes.turns.toAdvances).trans
      hStored.toAdvances
  · rw [hStored.setting, hTakes.turns.setting, hLends.setting, hSame]
  · intro picture value hValue
    refine .assume fun snapshot hShows => ?_
    have hNone : picture.held register = none :=
      hHolding.held_eq_none List.not_mem_nil hShows
    rw [← picture.drop_setScratch_hold hNone cell value]
    refine (((hCreated.reaches picture picture rfl).trans (hLends.reaches hCreated.sound _)
      hLends.advances.grows).trans (hTakes.turns.reaches picture _ ⟨value, hValue, rfl⟩)
        hTakes.turns.grows).trans ?_ hStored.grows
    exact hStored.reaches _ _ ⟨value, picture.held_hold_self register value, rfl⟩

structure OpensLoop (before after : Context) (iterator : String) (cells : LoopCells)
    (owner handle : Handle) : Prop where
  tidy : after.Tidy
  options : after.options = before.options
  labels : after.labels = before.labels
  depth : after.depth = before.depth
  loops : after.loops = before.loops + 1
  placements : after.placements = before.placements
  grows : Draft.Grows before.options.registers [] before.draft after.draft
  fresh : before.setting.declared iterator = none
  counter : before.setting.Spare cells.counter [owner]
  iteratorCell : (before.setting.claim cells.counter owner).Spare cells.iterator [handle]
  setting : after.setting = ((before.setting.claim cells.counter owner).claim cells.iterator
    handle).bindName iterator .iterator handle

/-- The cells of a loop differ, and the one of the variable had no owner before. -/
theorem Deposits.cells_ne {between after : Context} {counter cell : Address}
    {owner handle : Handle} {first second : Picture → Option Nat}
    (hCounter : Deposits context between counter owner first)
    (hVariable : Deposits between after cell handle second) :
    cell ≠ counter ∧ context.setting.owner cell = none := by
  have hFree : between.setting.owner cell = none :=
    hVariable.spare.owners cell (Nat.le_refl _) (Nat.lt_succ_self _)
  rw [hCounter.setting] at hFree
  have hDifferent : cell ≠ counter := by
    intro hSame
    rw [hSame] at hFree
    simp [Setting.claim] at hFree
  exact ⟨hDifferent, (Function.update_of_ne hDifferent _ _).symm.trans hFree⟩

end Context

namespace SourceState

def loopPicture (state : SourceState) (scope : Scope) (scratch : Address → Option Nat)
    (iterator : String) (counter : Address) (value rounds : Nat) : Picture :=
  state.picture ((iterator, value) :: scope) (Function.update scratch counter (some rounds))

theorem scalar_valuation_cons (state : SourceState) (scope : Scope) (iterator : String)
    (value : Nat) : (state.valuation ((iterator, value) :: scope)).scalar =
      Function.update (state.valuation scope).scalar iterator (some value) := by
  funext name
  simp only [valuation, Function.update_apply, List.lookup_cons]
  by_cases hSame : name = iterator
  · simp [hSame]
  · have hOther : (name == iterator) = false := beq_eq_false_iff_ne.mpr hSame
    simp [hSame, hOther]

/-- The variable of a loop gets its name when its first value is in its cell. -/
theorem loopPicture_eq (state : SourceState) (scope : Scope) (scratch : Address → Option Nat)
    (iterator : String) {counter cell : Address} (hCells : cell ≠ counter)
    (hScratch : scratch cell = none) (value rounds : Nat) :
    (((((state.picture scope scratch).setScratch counter rounds).setScratch cell value).forget []
      [cell.toNat]).setScalar iterator value).dropAll =
        state.loopPicture scope scratch iterator counter value rounds := by
  have hCleared : (fun address : Address => if address.toNat ∈ [cell.toNat] then none else
      Function.update (Function.update scratch counter (some rounds)) cell (some value) address) =
        Function.update scratch counter (some rounds) := by
    funext address
    by_cases hSame : address = cell
    · rw [hSame, if_pos List.mem_cons_self, Function.update_of_ne hCells, hScratch]
    · have hOther : address.toNat ∉ [cell.toNat] := by
        rw [List.mem_singleton, UInt64.toNat_inj]
        exact hSame
      rw [if_neg hOther, Function.update_of_ne hSame]
  simp only [loopPicture, picture, Picture.setScratch, Picture.setScalar, Picture.forget,
    Picture.dropAll, hCleared, scalar_valuation_cons]

end SourceState

namespace Context

variable {context : Context}

/-- The variable of a loop gets its name. -/
theorem declareIterator_ensures (hSound : context.Sound) (hHolding : context.Holding [])
    {iterator : String} (hName : iterator ≠ "") (hNew : context.setting.declared iterator = none)
    {cell : Address} {handle : Handle} (hChunk : context.setting.chunk handle = some cell)
    (hUnnamed : context.setting.nameOf handle = none)
    (hLoop : cell.toNat ≤ context.setting.layout.loop.last.toNat) :
    Ensures (Generating.onStore (StoreAction.declare iterator .iterator (.value handle))) context
      fun _ after => Advances context after ∧ after.Holding [] ∧
        after.setting = context.setting.bindName iterator .iterator handle ∧
        ∀ picture value, picture.scratch cell = some value →
          Reaches context after (context.Shows picture)
            (after.Shows ((picture.forget [] [cell.toNat]).setScalar iterator value)) := by
  have hLinked := hSound.store.toLinked
  have hOrdered := Layout.ordered_of_fault? hLinked.layout
  have hLow : cell < context.store.space.layout.arrays.first := by
    rw [UInt64.lt_iff_toNat_lt]
    have hLast : cell.toNat ≤ context.store.space.layout.loop.last.toNat := hLoop
    have hLoopScalars := hOrdered.loopScalars
    have hScalars := hOrdered.scalars
    have hScalarsArrays := hOrdered.scalarsArrays
    omega
  have hSetting : (context.store.bindName iterator .iterator handle).setting =
      context.setting.bindName iterator .iterator handle :=
    Store.setting_bindName hLinked hChunk hUnnamed
  refine .onStore (StoreAction.declare_value_gives hName hNew .iterator handle)
    ⟨.onStore hSound ?_ rfl ?_, hHolding.congr rfl, hSetting, ?_⟩
  · exact Store.sound_bindName hSound.store hNew hChunk hLow hUnnamed fun hKind =>
      absurd rfl hKind
  · intro other _ hLoose
    have hOther : other ≠ handle := by
      intro hSame
      have hNone : context.setting.chunk handle = none := hSame ▸ hLoose.unplaced
      rw [hChunk] at hNone
      contradiction
    refine ⟨hLoose.live, ?_, ?_⟩
    · rw [hSetting]
      exact (Function.update_of_ne hOther _ _).trans hLoose.unnamed
    · rw [hSetting]
      exact hLoose.unplaced
  · intro picture value hValue
    refine .still rfl fun snapshot hShows => ?_
    exact Coherent.bindName hShows hLinked hSetting hNew hChunk hUnnamed hValue

theorem Shows.scratch_eq_none {picture : Picture} {snapshot : Snapshot}
    (hShows : context.Shows picture snapshot) {cell : Address}
    (hFree : context.setting.owner cell = none) : picture.scratch cell = none := by
  cases hHere : picture.scratch cell with
  | none => rfl
  | some value =>
      obtain ⟨⟨-, other, hOwner, -⟩, -⟩ := hShows.scratch cell value hHere
      rw [hFree] at hOwner
      contradiction

/-- Opening a loop leaves the number of rounds and the first value of the variable in its
cells. -/
theorem openLoop_ensures (hTidy : context.Tidy) {bases : Bases}
    (hBases : context.setting.HasBases bases) (position : Source.Position) {iterator : String}
    (hName : iterator ≠ "") (first last : Atom) (direction : Direction) :
    Ensures (Generating.openLoop position iterator first last direction) context
      fun cells after => ∃ owner handle, OpensLoop context after iterator cells owner handle ∧
        ∀ scope (state : SourceState) scratch start stop,
          context.Knows (state.valuation scope).scalar →
          first.value? bases (state.valuation scope) = some start →
          last.value? bases (state.valuation scope) = some stop →
          Reaches context after (context.Shows (state.picture scope scratch))
            (after.Shows (state.loopPicture scope scratch iterator cells.counter start
              (direction.rounds start stop))) := by
  refine .get ?_
  cases hLookup : context.store.symbols.lookup? iterator with
  | some entry => exact .bind (.refuse _ _) fun _ _ hFalse => hFalse
  | none =>
      have hNew : context.setting.declared iterator = none := by
        simp only [setting, Store.setting, hLookup, Option.map_none]
      refine .bind (resolve_ensures hTidy.toSound hBases first) ?_
      rintro startOperand one ⟨hOne, hStart⟩
      refine .bind (resolve_ensures hOne.sound (by rw [hOne.setting]; exact hBases) last) ?_
      rintro stopOperand two ⟨hTwo, hStop⟩
      have hFound : Turns context two Eq := hOne.toTurns.after_still hTwo.toTurns
      have hStartPlaced : startOperand.Placed two.setting := by
        rw [hTwo.setting]
        exact hOne.placed
      refine depositRounds_ensures hTwo.sound ((hTidy.holding.congr hOne.registers).congr
        hTwo.registers) hStartPlaced hTwo.placed direction ?_
      intro counted counter owner hCounter
      have hStartThere : startOperand.Placed counted.setting := by
        rw [hCounter.setting]
        exact placed_claim hTwo.sound hCounter.spare hStartPlaced
      refine depositStart_ensures hCounter.advances.sound hCounter.holding hStartThere iterator ?_
      intro placed cell handle hVariable
      have hBase : two.setting = context.setting := hFound.setting
      have hClaimed : placed.setting =
          (context.setting.claim counter owner).claim cell handle := by
        rw [hVariable.setting, hCounter.setting, hBase]
      have hSpare : (context.setting.claim counter owner).Spare cell [handle] := by
        rw [← hBase, ← hCounter.setting]
        exact hVariable.spare
      have hChunk : placed.setting.chunk handle = some cell := by
        rw [hClaimed]
        exact Function.update_self _ _ _
      have hLoop : cell.toNat ≤ placed.setting.layout.loop.last.toNat := by
        rw [hClaimed]
        exact Nat.le_of_succ_le_succ hSpare.last
      refine .bind (declareIterator_ensures hVariable.advances.sound hVariable.holding hName
        (by rw [hClaimed]; exact hNew) hChunk
        (by rw [hClaimed]; exact (hSpare.values handle List.mem_cons_self).2) hLoop) ?_
      rintro - named ⟨hNamed, hNamedHolding, hNamedSetting, hNamedReaches⟩
      refine .bind (tidyUp_ensures hNamed.sound) ?_
      rintro - tidied ⟨hTidied, hTidiedTidy, -, -, -⟩
      have hAdvances : Advances context tidied :=
        (((hFound.toAdvances.trans hCounter.advances).trans hVariable.advances).trans hNamed).trans
          hTidied.toAdvances
      refine .modify_bind (.pure ⟨owner, handle, ?_, ?_⟩)
      · exact {
          tidy := ⟨⟨hTidiedTidy.store, hTidiedTidy.size, hTidiedTidy.dynamics,
            hTidiedTidy.distinct, hTidiedTidy.recorded⟩, hTidiedTidy.holding.congr rfl⟩
          options := hAdvances.quiet.options
          labels := hAdvances.quiet.labels
          depth := hAdvances.quiet.depth
          loops := congrArg (· + 1) hAdvances.quiet.loops
          placements := hAdvances.quiet.placements
          grows := hAdvances.grows
          fresh := hNew
          counter := hBase ▸ hCounter.spare
          iteratorCell := hSpare
          setting := (hTidied.setting.trans hNamedSetting).trans (by rw [hClaimed]) }
      · intro scope state scratch start stop hKnows hFirst hLast
        refine .assume fun snapshot hShows => ?_
        obtain ⟨hCells, hFree⟩ := hCounter.cells_ne hVariable
        have hScratch : scratch cell = none := hShows.scratch_eq_none (hBase ▸ hFree)
        have hStartValue : startOperand.value? (state.picture scope scratch) = some start :=
          (hStart _ hKnows).trans hFirst
        have hStopValue : stopOperand.value? (state.picture scope scratch) = some stop :=
          (hStop _ (hKnows.congr hOne.toWorks)).trans hLast
        have hRounds : Operand.rounds? direction startOperand stopOperand
            (state.picture scope scratch) = some (direction.rounds start stop) :=
          Operand.rounds?_eq_some_iff.mpr ⟨start, stop, hStartValue, hStopValue, rfl⟩
        rw [← state.loopPicture_eq scope scratch iterator hCells hScratch]
        refine ((((hFound.reaches _ _ rfl).trans (hCounter.reaches _ _ hRounds)
          hCounter.advances.grows).trans (hVariable.reaches _ start ?_)
            hVariable.advances.grows).trans (hNamedReaches _ start ?_) hNamed.grows).trans
              (hTidied.reaches _ _ rfl) hTidied.grows
        · rw [Operand.value?_setScratch]
          exact hStartValue
        · exact Function.update_self _ _ _

end Context

end RegisterCompiler
