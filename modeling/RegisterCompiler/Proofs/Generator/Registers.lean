/-
Registers during code generation.

Moving the pointer, saving a cached value, taking and giving up registers change no
value.  Four registers can be held at once.  A context whose registers were cleared
caches nothing, so all its values are in memory.
-/

import Mathlib.Data.List.Perm.Subperm
import RegisterCompiler.Proofs.Generator.Work

set_option autoImplicit false

namespace RegisterCompiler

open Generating (Ensures)

namespace Context

variable {context : Context}

/-! ### The pointer and numbers -/

theorem pointTo_ensures (hSound : context.Sound) (address : Nat) :
    Ensures (Generating.pointTo address) context fun _ after =>
      Turns context after Eq ∧ after.store = context.store ∧ after.pointer = some address := by
  have hReady := ready_pointerCode (fun opcode hShape => ready_pointer hSound hShape
    (context.listing.size + (pointerCode context.pointer address).length)) context.pointer address
  have hWorks : Works context
      { context.add (pointerCode context.pointer address) with pointer := some address } :=
    have hAdded := hSound.add (pointerCode context.pointer address)
    ⟨⟨⟨hAdded.store, hAdded.size, hAdded.dynamics, hAdded.distinct, hAdded.recorded⟩,
      ⟨rfl, rfl, rfl, rfl, rfl⟩, grows_add hSound hReady⟩, rfl⟩
  refine .get ?_
  refine ensures_emitAll (.modify ⟨⟨hWorks, ?_⟩, rfl, rfl⟩)
  rintro picture _ rfl
  refine .add hSound hReady (fun _ hShows => ⟨picture, hShows⟩) ?_
  intro start hStart
  exact ⟨_, Snapshot.runBlock_pointerCode hStart.pointer address,
    hStart.setPointer hSound.store.toLinked address⟩

/-- Code on a held register. -/
theorem Turns.unary (hSound : context.Sound) {register : Int}
    (hHolds : context.store.Holds register) {opcode : Opcode} (hShape : opcode.shape = .register)
    {effect : Picture → Picture → Prop}
    (hEffect : ∀ start finish snapshot, effect start finish → context.Shows start snapshot →
      ∃ after, snapshot.effect? (.unary opcode register) = some after ∧
        context.Shows finish after) :
    Turns context (context.add [.unary opcode register]) effect := by
  refine .add hSound ?_ ?_
  · intro instruction hInstruction
    rw [List.mem_singleton.mp hInstruction]
    exact ready_of_allocatable hSound (hSound.store.allocatable_of_holds hHolds) hShape _
  · intro start finish snapshot hStart hShows
    obtain ⟨after, hAfter, hFinish⟩ := hEffect start finish snapshot hStart hShows
    exact ⟨after, by simp only [Snapshot.runBlock, hAfter, Option.bind_some], hFinish⟩

theorem Turns.buildConstant (hSound : context.Sound) {register : Int}
    (hHolds : context.store.Holds register) (value : Nat) :
    Turns context (context.add (constantCode register value)) fun start finish =>
      finish = start.hold register value := by
  refine .add hSound ?_ ?_
  · exact ready_constantCode (fun opcode hShape => ready_of_allocatable hSound
      (hSound.store.allocatable_of_holds hHolds) hShape _) value
  · rintro start _ snapshot rfl hShows
    exact ⟨_, Snapshot.runBlock_constantCode register value snapshot,
      hShows.setHeld hSound.store.toLinked hHolds value⟩

/-- Repeating an instruction that applies a function to a held register. -/
theorem Turns.repeatUnary (hSound : context.Sound) {register : Int}
    (hHolds : context.store.Holds register) {opcode : Opcode} (hShape : opcode.shape = .register)
    {count : Nat} (operation : Nat → Nat)
    (hBlock : ∀ snapshot : Snapshot,
      snapshot.runBlock (List.replicate count (.unary opcode register)) =
        some (snapshot.setRegister register (operation (snapshot.registers register)))) :
    Turns context (context.add (List.replicate count (.unary opcode register)))
      fun start finish => ∃ value, start.held register = some value ∧
        finish = start.hold register (operation value) := by
  refine .add hSound ?_ ?_
  · exact ready_replicate (ready_of_allocatable hSound
      (hSound.store.allocatable_of_holds hHolds) hShape _) count
  · rintro start _ snapshot ⟨value, hValue, rfl⟩ hShows
    refine ⟨_, hBlock snapshot, ?_⟩
    rw [(hShows.held register value hValue).2]
    exact hShows.setHeld hSound.store.toLinked hHolds _

/-! ### Giving up registers -/

/-- A register whose value is in memory may be emptied. -/
theorem Turns.vacate (hSound : context.Sound) {register : Int}
    (hRegister : context.store.Allocatable register) {state : RegisterState}
    (hState : state = .free ∨ state = .inUse)
    (hFresh : ∀ handle name, context.store.occupant? register = some handle →
      context.setting.nameOf handle = some name → context.store.symbols.isFresh name = true) :
    Turns context { context with store := context.store.vacate register state }
      fun start finish => finish = start.drop register := by
  have hLinked := hSound.store.toLinked
  have hSame := Store.sameContent_vacate register state hLinked
  refine .onStore hSound (Store.sound_vacate hRegister state hSound.store hState hFresh)
    (Store.size_vacate _ _ _) hSame.setting_eq (fun _ hLoose => hSame.loose hLoose) ?_
  rintro start _ snapshot rfl hShows
  exact hShows.vacate hLinked hRegister state

theorem Turns.release (hSound : context.Sound) {register : Int}
    (hHolds : context.store.Holds register) :
    Turns context { context with store := context.store.vacate register .free }
      fun start finish => finish = start.drop register := by
  refine .vacate hSound (hSound.store.allocatable_of_holds hHolds) (.inl rfl) ?_
  intro handle name hOccupant
  rw [Store.occupant?_of_holds hHolds] at hOccupant
  contradiction

/-- The name that a register caches, with its cell. -/
theorem Sound.cached (hSound : context.Sound) {register : Int} {handle : Handle}
    (hOccupant : context.store.occupant? register = some handle) :
    ∃ name entry kind address value, context.setting.nameOf handle = some name ∧
      context.store.symbols.lookup? name = some entry ∧ entry.name = name ∧
      context.setting.cell? name = some (kind, handle, address) ∧
      context.store.arena.get? handle = some value ∧ value.chunk = some address := by
  have hLinked := hSound.store.toLinked
  obtain ⟨name, hName⟩ := Option.isSome_iff_exists.mp (hLinked.occupantNames register handle hOccupant)
  obtain ⟨kind, hDeclared⟩ := hLinked.names handle name hName
  obtain ⟨entry, hEntry, -⟩ := Option.map_eq_some_iff.mp hDeclared
  obtain ⟨-, value, address, hValue, -, hChunk, -⟩ := hLinked.cells name kind handle hDeclared
  refine ⟨name, entry, kind, address, value, hName, hEntry, hLinked.entryNames name entry hEntry,
    Setting.cell?_eq_some_iff.mpr ⟨hDeclared, ?_⟩, hValue, hChunk⟩
  simp only [setting, Store.setting, hValue, Option.bind_some, hChunk]

/-- Storing a cached value brings the cell of its name up to date. -/
theorem Turns.save (hSound : context.Sound) {register : Int} {handle : Handle}
    (hOccupant : context.store.occupant? register = some handle) {name : String}
    (hName : context.setting.nameOf handle = some name) {kind : SymbolKind} {address : Address}
    (hCell : context.setting.cell? name = some (kind, handle, address))
    (hPointer : context.pointer = some address.toNat) :
    Turns context { context.add [.unary .store register] with
      store := context.store.noteFresh name true } Eq := by
  have hLinked := hSound.store.toLinked
  have hSame := Store.sameContent_noteFresh context.store name true
  have hReady : ∀ instruction ∈ [Instruction.unary .store register],
      instruction.Ready context.options.registers (context.listing.size + 1) := by
    intro instruction hInstruction
    rw [List.mem_singleton.mp hInstruction]
    exact ready_of_allocatable hSound (hLinked.allocatable_of_occupant? hOccupant) rfl _
  have hStore : (context.store.noteFresh name true).Sound :=
    Store.sound_noteFresh hSound.store name true (fun hFalse => absurd hFalse (by decide))
  refine ⟨⟨⟨⟨hStore, hSound.size, fun found hFound => hSame.loose (hSound.dynamics found hFound),
    hSound.distinct, (hSound.add _).recorded⟩, ⟨rfl, rfl, rfl, rfl, rfl⟩, grows_add hSound hReady⟩,
    hSame.setting_eq⟩, ?_⟩
  rintro picture _ rfl
  refine .add hSound hReady (fun _ hShows => ⟨picture, hShows⟩) ?_
  intro start hStart
  have hPlace : start.pointer = address.toNat := hStart.pointer _ hPointer
  have hValue : ∀ found, picture.scalar name = some found → start.registers register = found :=
    fun found hFound => hStart.cache register handle name found hOccupant hName hFound
  have hStored : start.runBlock [.unary .store register] =
      some (start.setCell address.toNat (start.registers register)) := by
    rw [← hPlace]
    rfl
  have hCached : ∀ other, context.store.occupant? other = some handle →
      start.registers other = start.registers register := by
    intro other hOther
    rw [hLinked.occupant?_injective hOther hOccupant]
  refine ⟨_, hStored, ?_⟩
  refine (hStart.storeName hLinked hCell hValue hCached).noteFresh ?_
  intro _ otherKind otherHandle otherAddress hOther
  rw [hCell] at hOther
  cases hOther
  rw [Snapshot.memory_setCell_self]
  refine ⟨fun found hFound => by rw [hValue found hFound], ?_⟩
  exact fun other hOther => congrArg some (hCached other hOther).symm

theorem saveOccupant_ensures (hSound : context.Sound) {register : Int} {handle : Handle}
    {value : Value} (hOccupant : context.store.occupant? register = some handle)
    (hValue : context.store.arena.get? handle = some value) :
    Ensures (Generating.saveOccupant register handle value) context fun _ after =>
      Turns context after Eq ∧ after.store.registers = context.store.registers ∧
        after.store.arena = context.store.arena ∧
        ∀ name, context.setting.nameOf handle = some name →
          after.store.symbols.isFresh name = true := by
  obtain ⟨name, entry, kind, address, found, hName, hEntry, hNamed, hCell, hFound, hChunk⟩ :=
    hSound.cached hOccupant
  rw [hValue] at hFound
  obtain rfl := Option.some.inj hFound
  have hLookup : context.store.symbols.lookupValue? context.store.arena handle = some entry := by
    unfold SymbolTable.lookupValue?
    rw [show context.store.symbols.byValue.lookup handle = some name from hName]
    exact hEntry
  have hOnly : ∀ other, context.setting.nameOf handle = some other → other = name := by
    intro other hOther
    rw [hName] at hOther
    exact (Option.some.inj hOther).symm
  refine .get ?_
  simp only [hLookup, Option.map_some, hNamed, Option.some.injEq, hChunk]
  by_cases hFresh : context.store.symbols.isFresh name = true
  · rw [if_pos hFresh]
    refine .pure ⟨.refl hSound, rfl, rfl, ?_⟩
    intro other hOther
    rw [hOnly other hOther]
    exact hFresh
  · rw [if_neg hFresh]
    refine .bind (pointTo_ensures hSound address.toNat) ?_
    rintro - aimed ⟨hTurns, hStore, hPointer⟩
    rw [← hTurns.setting] at hCell hName
    rw [← hStore] at hOccupant
    have hSaved := Turns.save hTurns.sound hOccupant hName hCell hPointer
    refine ensures_emitAll (.onStore (StoreAction.setFresh_gives _ name true)
      ⟨hTurns.after_still hSaved, ?_, ?_, ?_⟩)
    · simp only [add, Store.noteFresh, hStore]
    · simp only [add, Store.noteFresh, hStore]
    · intro other hOther
      rw [hOnly other hOther]
      simp only [add, Store.noteFresh, SymbolTable.isFresh_setFresh, if_true, hStore, hEntry,
        Option.isSome_some, Bool.and_self]

/-- A register that caches a value may be cleared: the value is saved first. -/
theorem clear_ensures (hSound : context.Sound) {register : Int} {handle : Handle} {value : Value}
    (hOccupant : context.store.occupant? register = some handle)
    (hValue : context.store.arena.get? handle = some value) :
    Ensures (do
      Generating.saveOccupant register handle value
      Generating.onStore (StoreAction.release register)) context fun _ after =>
        Turns context after Eq ∧ ∀ other, after.store.register? other =
          if other = register then some ⟨.free, none⟩ else context.store.register? other := by
  refine .bind (saveOccupant_ensures hSound hOccupant hValue) ?_
  rintro - saved ⟨hSaved, hRegisters, -, hFresh⟩
  have hRegister? : ∀ other, saved.store.register? other = context.store.register? other := by
    intro other
    simp only [Store.register?, hRegisters]
  have hStill : saved.store.occupant? register = some handle := by
    rw [Store.occupant?, hRegister?]
    exact hOccupant
  have hRegister := hSaved.sound.store.allocatable_of_occupant? hStill
  have hVacated : Turns saved { saved with store := saved.store.vacate register .free }
      fun start finish => finish = start.drop register := by
    refine .vacate hSaved.sound hRegister (.inl rfl) ?_
    intro found name hFound hName
    rw [hStill] at hFound
    rw [← Option.some.inj hFound, hSaved.setting] at hName
    exact hFresh name hName
  refine .onStore (StoreAction.release_gives hRegister) ⟨⟨hSaved.toWorks.trans hVacated.toWorks, ?_⟩,
    ?_⟩
  · rintro picture _ rfl
    refine .trans (hSaved.reaches picture picture rfl) (.still rfl ?_) hVacated.grows
    intro snapshot hShows
    -- The cleared register cached a value, so the picture says nothing about it.
    have hNotHeld : ¬saved.store.Holds register := by
      intro hHolds
      rw [Store.occupant?_of_holds hHolds] at hStill
      contradiction
    have hCleared := hShows.vacate hSaved.sound.store.toLinked hRegister .free
    rw [hShows.drop_eq hNotHeld] at hCleared
    exact hCleared
  · intro other
    rw [Store.register?_vacate hRegister, hRegister?]

/-- The registers that a command holds stay the same when cached values are cleared. -/
theorem Holding.congr_clear {after : Context} {registers : List Int} {register : Int}
    {handle : Handle} (hHolding : context.Holding registers)
    (hOccupant : context.store.occupant? register = some handle)
    (hRegister? : ∀ other, after.store.register? other =
      if other = register then some ⟨.free, none⟩ else context.store.register? other) :
    after.Holding registers := by
  have hNotHeld : ¬context.store.Holds register := by
    intro hHolds
    rw [Store.occupant?_of_holds hHolds] at hOccupant
    contradiction
  constructor
  · intro other
    rw [hHolding.held other, Store.Holds, Store.Holds, hRegister?]
    by_cases hSame : other = register
    · subst hSame
      rw [if_pos rfl]
      exact ⟨fun hHolds => absurd hHolds hNotHeld, fun hEqual => by simp at hEqual⟩
    · rw [if_neg hSame]
  · intro other found
    rw [hRegister?]
    by_cases hSame : other = register
    · rw [if_pos hSame]
      simp
    · rw [if_neg hSame]
      exact hHolding.spare other found

private theorem evict_ensures (hSound : context.Sound) {register : Int} {handle : Handle}
    (hOccupant : context.store.occupant? register = some handle) :
    Ensures (Generating.evict register) context fun _ after =>
      Turns context after Eq ∧ ∀ other, after.store.register? other =
        if other = register then some ⟨.free, none⟩ else context.store.register? other := by
  obtain ⟨-, -, -, address, value, -, -, -, -, hValue, hChunk⟩ := hSound.cached hOccupant
  refine .get ?_
  simp only [hOccupant]
  refine .value_bind hValue ?_
  rw [hChunk, Option.isNone_some, if_neg Bool.false_ne_true]
  exact .value_bind hValue (clear_ensures hSound hOccupant hValue)

/-! ### Taking registers -/

/-- The registers are held or can be given up. -/
theorem Holding.mem_of_taken (hSound : context.Sound) {registers : List Int}
    (hHolding : context.Holding registers) (hNoFree : context.store.registersIn .free = [])
    (hNoBusy : context.store.registersIn .busy = []) {register : Int}
    (hRegister : context.store.Allocatable register) : register ∈ registers := by
  obtain ⟨hLow, hHigh⟩ := hRegister
  obtain ⟨⟨state, occupant⟩, hEntry⟩ := Option.isSome_iff_exists.mp
    (Store.register?_isSome_iff.mpr ⟨by omega, hHigh⟩)
  have hNot : ∀ other, context.store.registersIn other = [] → state ≠ other := by
    rintro other hNone rfl
    have hMem : register.toNat ∈ context.store.registersIn state := by
      refine Store.mem_registersIn.mpr ⟨by omega, ⟨state, occupant⟩, ?_, rfl⟩
      rw [Int.toNat_of_nonneg (by omega)]
      exact hEntry
    rw [hNone] at hMem
    exact absurd hMem List.not_mem_nil
  rw [hHolding.held, Store.Holds, hEntry]
  rcases hSound.store.states register _ hEntry with ⟨hFree, -⟩ | ⟨hBusy, -⟩ | hUsed
  · exact absurd hFree (hNot _ hNoFree)
  · exact absurd hBusy (hNot _ hNoBusy)
  · cases occupant with
    | none => rw [← hUsed]
    | some handle =>
        refine absurd ?_ (hHolding.spare register handle)
        rw [hEntry, ← hUsed]

/-- While fewer than four registers are held, one is free or can be given up. -/
theorem Holding.exists_busy (hSound : context.Sound) {registers : List Int}
    (hHolding : context.Holding registers) (hFew : registers.length < 4)
    (hNoFree : context.store.registersIn .free = []) :
    ∃ victim rest, context.store.registersIn .busy = victim :: rest := by
  cases hBusy : context.store.registersIn .busy with
  | cons victim rest => exact ⟨victim, rest, rfl⟩
  | nil =>
      have hSubset : [1, 2, 3, 4] ⊆ registers := by
        intro register hRegister
        refine hHolding.mem_of_taken hSound hNoFree hBusy ?_
        have hEnough := hSound.store.enough
        simp only [List.mem_cons, List.not_mem_nil, or_false] at hRegister
        unfold Store.Allocatable
        omega
      have hLength := (List.subperm_of_subset (by decide) hSubset).length_le
      simp only [List.length_cons, List.length_nil] at hLength
      omega

theorem Turns.reserve (hSound : context.Sound) {register : Int}
    (hRegister : context.store.register? register = some ⟨.free, none⟩)
    (hNonzero : register ≠ 0) :
    Turns context { context with store := context.store.vacate register .inUse } Eq := by
  have hAllocatable := Store.allocatable_of_ne_zero hRegister hNonzero
  have hEmpty : context.store.occupant? register = none := by
    rw [Store.occupant?, hRegister]
    rfl
  have hVacated : Turns context { context with store := context.store.vacate register .inUse }
      fun start finish => finish = start.drop register := by
    refine .vacate hSound hAllocatable (.inr rfl) ?_
    intro handle name hOccupant
    rw [hEmpty] at hOccupant
    contradiction
  refine ⟨hVacated.toWorks, ?_⟩
  rintro picture _ rfl
  refine .still rfl ?_
  intro snapshot hShows
  have hNotHeld : ¬context.store.Holds register := by
    intro hHolds
    rw [Store.Holds, hRegister] at hHolds
    simp at hHolds
  have hKept := hShows.vacate hSound.store.toLinked hAllocatable .inUse
  rw [hShows.drop_eq hNotHeld] at hKept
  exact hKept

theorem Holding.cons {after : Context} {registers : List Int} {register : Int}
    (hHolding : context.Holding registers)
    (hRegister? : ∀ other, after.store.register? other =
      if other = register then some ⟨.inUse, none⟩ else context.store.register? other) :
    after.Holding (register :: registers) := by
  constructor
  · intro other
    rw [List.mem_cons, Store.Holds, hRegister?]
    by_cases hSame : other = register
    · simp [hSame]
    · rw [if_neg hSame, hHolding.held, Store.Holds]
      simp [hSame]
  · intro other handle
    rw [hRegister?]
    by_cases hSame : other = register
    · rw [if_pos hSame]
      simp
    · rw [if_neg hSame]
      exact hHolding.spare other handle

/-- Up to four registers can be held at once. -/
theorem acquire_ensures (hSound : context.Sound) {registers : List Int}
    (hHolding : context.Holding registers) (hFew : registers.length < 4) :
    Ensures Generating.acquire context fun register after =>
      Turns context after Eq ∧ after.Holding (register :: registers) ∧ register ∉ registers ∧
        ∀ other, other ≠ register →
          after.store.register? other = context.store.register? other := by
  have hTake : ∀ {middle : Context} {register : Int}, middle.Sound →
      middle.store.register? register = some ⟨.free, none⟩ → register ≠ 0 →
      middle.Holding registers →
      Ensures (do
        Generating.onStore (StoreAction.reserve register)
        return register) middle fun taken after =>
          taken = register ∧ Turns middle after Eq ∧ after.Holding (register :: registers) ∧
            register ∉ registers ∧ ∀ other, other ≠ register →
              after.store.register? other = middle.store.register? other := by
    intro middle register hMiddle hFree hNonzero hHeld
    have hAllocatable := Store.allocatable_of_ne_zero hFree hNonzero
    have hVacated := Store.register?_vacate hAllocatable .inUse
    refine .onStore_bind (StoreAction.reserve_gives hAllocatable) (.pure ⟨rfl,
      .reserve hMiddle hFree hNonzero, hHeld.cons hVacated, ?_, ?_⟩)
    · rw [hHeld.held, Store.Holds, hFree]
      simp
    · intro other hOther
      rw [hVacated, if_neg hOther]
  refine .get ?_
  simp only [Store.freeRegister?, Store.busyRegisters]
  cases hFree : context.store.registersIn .free with
  | cons register rest =>
      obtain ⟨hNonzero, ⟨state, occupant⟩, hEntry, rfl⟩ := Store.mem_registersIn.mp
        (hFree ▸ List.mem_cons_self)
      rcases hSound.store.states _ _ hEntry with ⟨-, hNone⟩ | ⟨hBusy, -⟩ | hUsed
      · obtain rfl : occupant = none := hNone
        refine (hTake hSound hEntry (by omega) hHolding).mono ?_
        rintro _ after ⟨rfl, hAfter⟩
        exact hAfter
      · contradiction
      · contradiction
  | nil =>
      obtain ⟨victim, rest, hBusy⟩ := hHolding.exists_busy hSound hFew hFree
      rw [hBusy]
      obtain ⟨hNonzero, ⟨state, occupant⟩, hEntry, rfl⟩ := Store.mem_registersIn.mp
        (hBusy ▸ List.mem_cons_self)
      rcases hSound.store.states _ _ hEntry with ⟨hFreed, -⟩ | ⟨-, hSome⟩ | hUsed
      · contradiction
      · obtain ⟨handle, rfl⟩ := Option.isSome_iff_exists.mp hSome
        have hOccupant := Store.occupant?_eq_some_iff.mpr ⟨_, hEntry⟩
        refine .bind (evict_ensures hSound hOccupant) ?_
        rintro - evicted ⟨hEvicted, hRegister?⟩
        have hNow : evicted.store.register? victim = some ⟨.free, none⟩ := by
          rw [hRegister?, if_pos rfl]
        refine (hTake hEvicted.sound hNow (by omega)
          (hHolding.congr_clear hOccupant hRegister?)).mono ?_
        rintro _ after ⟨rfl, hTaken, hHeld, hNew, hOthers⟩
        refine ⟨hEvicted.after_still hTaken, hHeld, hNew, ?_⟩
        intro other hOther
        rw [hOthers other hOther, hRegister?, if_neg hOther]
      · contradiction

theorem Holding.congr {after : Context} {registers : List Int}
    (hHolding : context.Holding registers)
    (hRegisters : after.store.registers = context.store.registers) : after.Holding registers := by
  have hRegister? : ∀ other, after.store.register? other = context.store.register? other := by
    intro other
    simp only [Store.register?, hRegisters]
  constructor
  · intro other
    rw [hHolding.held, Store.Holds, Store.Holds, hRegister?]
  · intro other handle
    rw [hRegister?]
    exact hHolding.spare other handle

/-! ### Freeing held registers -/

theorem Holding.add {registers : List Int} (hHolding : context.Holding registers)
    (block : List Instruction) : (context.add block).Holding registers :=
  hHolding.congr rfl

private theorem Holding.release {registers rest : List Int} {register : Int}
    (hSound : context.Sound) (hHolding : context.Holding registers) (hMem : register ∈ registers)
    (hRest : ∀ other, other ∈ rest ↔ other ∈ registers ∧ other ≠ register) :
    Context.Holding { context with store := context.store.vacate register .free } rest := by
  have hHolds := (hHolding.held register).mp hMem
  have hRegister? := Store.register?_vacate (hSound.store.allocatable_of_holds hHolds) .free
  constructor
  · intro other
    rw [hRest, hHolding.held, Store.Holds, Store.Holds, hRegister?]
    by_cases hSame : other = register
    · simp [hSame]
    · rw [if_neg hSame]
      simp [hSame]
  · intro other handle
    rw [hRegister?]
    by_cases hSame : other = register
    · rw [if_pos hSame]
      simp
    · rw [if_neg hSame]
      exact hHolding.spare other handle

theorem Holding.release_head {registers : List Int} {register : Int} (hSound : context.Sound)
    (hHolding : context.Holding (register :: registers)) (hNew : register ∉ registers) :
    Context.Holding { context with store := context.store.vacate register .free } registers := by
  refine hHolding.release hSound List.mem_cons_self ?_
  intro other
  rw [List.mem_cons]
  constructor
  · intro hOther
    exact ⟨.inr hOther, fun hSame => hNew (hSame ▸ hOther)⟩
  · rintro ⟨hSame | hOther, hDifferent⟩
    · exact absurd hSame hDifferent
    · exact hOther

theorem releaseAll_ensures {released rest : List Int} (hSound : context.Sound)
    (hHolding : context.Holding (released ++ rest)) (hNodup : (released ++ rest).Nodup) :
    Ensures (Generating.releaseAll released) context fun _ after =>
      Turns context after (fun start finish => finish = start.forget released []) ∧
        after.Holding rest ∧ after.pointer = context.pointer := by
  induction released generalizing context with
  | nil =>
      refine .pure ⟨(Turns.refl hSound).mono ?_, hHolding, rfl⟩
      rintro start _ rfl
      exact ⟨start, rfl, Picture.below_forget start [] []⟩
  | cons register others inductionHypothesis =>
      have hHolds := (hHolding.held register).mp List.mem_cons_self
      rw [List.cons_append, List.nodup_cons] at hNodup
      have hFreed := Turns.release hSound hHolds
      refine .onStore_bind (StoreAction.release_gives
        (hSound.store.allocatable_of_holds hHolds)) ?_
      refine (inductionHypothesis hFreed.sound (hHolding.release_head hSound hNodup.1)
        hNodup.2).mono ?_
      rintro - after ⟨hTurns, hAfter, hPointer⟩
      refine ⟨hFreed.trans hTurns ?_, hAfter, hPointer⟩
      rintro start _ rfl
      exact ⟨_, rfl, Picture.forget_cons start register others []⟩

/-! ### Clearing the cache -/

/-- A context that caches nothing. -/
def Flat (context : Context) : Prop :=
  ∀ register, context.store.occupant? register = none

private theorem clearRegister_ensures (hSound : context.Sound) (register : Nat) :
    Ensures (Generating.clearRegister register) context fun _ after =>
      Turns context after Eq ∧ after.store.occupant? register = none ∧
        (∀ other, context.store.occupant? other = none → after.store.occupant? other = none) ∧
        ∀ registers, context.Holding registers → after.Holding registers := by
  refine .get ?_
  cases hOccupant : context.store.occupant? register with
  | none => exact .pure ⟨.refl hSound, hOccupant, fun _ hNone => hNone, fun _ hHeld => hHeld⟩
  | some handle =>
      obtain ⟨value, hValue, -⟩ := (hSound.store.occupants register handle).mp hOccupant
      refine .value_bind hValue ((clear_ensures hSound hOccupant hValue).mono ?_)
      rintro - after ⟨hTurns, hRegister?⟩
      refine ⟨hTurns, ?_, ?_, fun _ hHeld => hHeld.congr_clear hOccupant hRegister?⟩
      · rw [Store.occupant?, hRegister?, if_pos rfl]
        rfl
      · intro other hNone
        rw [Store.occupant?, hRegister?]
        split
        · rfl
        · exact hNone

private theorem clearRegisters_ensures (hSound : context.Sound) (numbers : List Nat) :
    Ensures (Generating.clearRegisters numbers) context fun _ after =>
      Turns context after Eq ∧ (∀ number ∈ numbers, after.store.occupant? number = none) ∧
        (∀ other, context.store.occupant? other = none → after.store.occupant? other = none) ∧
        ∀ registers, context.Holding registers → after.Holding registers := by
  induction numbers generalizing context with
  | nil =>
      exact .pure ⟨.refl hSound, fun _ hNone => absurd hNone List.not_mem_nil,
        fun _ hNone => hNone, fun _ hHeld => hHeld⟩
  | cons number rest inductionHypothesis =>
      refine .bind (clearRegister_ensures hSound number) ?_
      rintro - cleared ⟨hCleared, hEmpty, hStill, hHeld⟩
      refine (inductionHypothesis hCleared.sound).mono ?_
      rintro - after ⟨hTurns, hRest, hOthers, hKept⟩
      refine ⟨hCleared.after_still hTurns, ?_, fun other hNone => hOthers other (hStill other hNone),
        fun registers hRegisters => hKept registers (hHeld registers hRegisters)⟩
      intro found hFound
      rcases List.mem_cons.mp hFound with rfl | hFound
      · exact hOthers _ hEmpty
      · exact hRest found hFound

theorem clearCache_ensures (hSound : context.Sound) :
    Ensures Generating.clearCache context fun _ after =>
      Turns context after Eq ∧ after.Flat ∧
        ∀ registers, context.Holding registers → after.Holding registers := by
  refine .get ((clearRegisters_ensures hSound _).mono ?_)
  rintro - after ⟨hTurns, hEmpty, -, hHeld⟩
  refine ⟨hTurns, ?_, hHeld⟩
  intro register
  cases hOccupant : after.store.occupant? register with
  | none => rfl
  | some handle =>
      obtain ⟨hLow, hHigh⟩ := hTurns.sound.store.allocatable_of_occupant? hOccupant
      have hSize : (after.store.registers.size : Int) = context.store.registers.size := by
        rw [hTurns.sound.size, hTurns.quiet.options, hSound.size]
      have hNone := hEmpty register.toNat (by
        rw [List.mem_range'_1]
        unfold Store.registerCount
        omega)
      rw [Int.toNat_of_nonneg (by omega), hOccupant] at hNone
      contradiction

theorem Flat.isFresh (hSound : context.Sound) (hFlat : context.Flat) {name : String}
    {entry : SymbolEntry} (hEntry : context.store.symbols.lookup? name = some entry) :
    context.store.symbols.isFresh name = true := by
  rw [SymbolTable.isFresh, hEntry]
  cases hFresh : entry.fresh with
  | true => exact hFresh
  | false =>
      obtain ⟨handle, register, -, hOccupant⟩ := hSound.store.stale name entry hEntry hFresh
      rw [hFlat register] at hOccupant
      contradiction

end Context

end RegisterCompiler
