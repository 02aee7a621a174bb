/-
Ending a command, and scratch cells.

At the end of a command no register stays held and the dynamic elements are destroyed.
Scratch cells are lent to unnamed values: the setting has them as cells more, and
giving them back restores the setting.
-/

import RegisterCompiler.Proofs.Generator.Registers

set_option autoImplicit false

namespace RegisterCompiler

open Generating (Ensures)

def Register.settled (register : Register) : Register :=
  match register.occupant with
  | none => ⟨.free, none⟩
  | some handle => ⟨.busy, some handle⟩

namespace Context

variable {context : Context}

/-- A context between two commands. -/
structure Tidy (context : Context) : Prop extends Sound context where
  holding : context.Holding []

/-! ### The end of a command -/

theorem Turns.mark (hSound : context.Sound) {register : Int} {handle : Handle}
    (hOccupant : context.store.occupant? register = some handle) {state : RegisterState}
    (hState : state = .busy ∨ state = .inUse) :
    Turns context { context with store := context.store.markRegister register state } Eq := by
  have hSame : Store.SameContent context.store (context.store.markRegister register state) :=
    .of_symbols_eq rfl (fun _ => rfl) rfl rfl
  refine .onStore hSound (Store.sound_mark hOccupant state hSound.store hState) ?_
    hSame.setting_eq (fun _ hLoose => hSame.loose hLoose) ?_
  · simp only [Store.markRegister, Array.size_modify]
  · rintro start _ snapshot rfl hShows
    exact hShows.mark hOccupant state

/-- A register can be let go: one with a value caches it, any other becomes free. -/
theorem exists_settled (hSound : context.Sound) {register : Nat}
    (hRegister : context.store.Allocatable register) :
    ∃ store,
      (match context.store.occupant? register with
      | some _ => (StoreAction.setState register .busy).Gives context.store () store
      | none => (StoreAction.release register).Gives context.store () store) ∧
      Turns context { context with store := store }
        (fun start finish => finish = start.drop register) ∧
      ∀ other, store.register? other =
        if other = register then (context.store.register? other).map Register.settled
        else context.store.register? other := by
  obtain ⟨⟨state, occupant⟩, hEntry⟩ := Option.isSome_iff_exists.mp
    (Store.register?_isSome_iff.mpr ⟨Int.natCast_nonneg register, hRegister.2⟩)
  cases occupant with
  | none =>
      have hOccupant : context.store.occupant? register = none := by
        rw [Store.occupant?, hEntry]
        rfl
      rw [hOccupant]
      refine ⟨_, StoreAction.release_gives hRegister, ?_, ?_⟩
      · refine .vacate hSound hRegister (.inl rfl) ?_
        intro handle name hFound
        rw [hOccupant] at hFound
        contradiction
      · intro other
        rw [Store.register?_vacate hRegister]
        by_cases hSame : other = register
        · rw [if_pos hSame, if_pos hSame, hSame, hEntry]
          rfl
        · rw [if_neg hSame, if_neg hSame]
  | some handle =>
      have hOccupant := Store.occupant?_eq_some_iff.mpr ⟨_, hEntry⟩
      rw [hOccupant]
      refine ⟨_, StoreAction.setState_gives hSound.store.toLinked hOccupant (.inl rfl), ?_, ?_⟩
      · refine (Turns.mark hSound hOccupant (.inl rfl)).mono ?_
        rintro start _ rfl
        exact ⟨start, rfl, start.below_drop register⟩
      · intro other
        rw [Store.register?_mark hOccupant]
        by_cases hSame : other = register
        · rw [if_pos hSame, if_pos hSame, hSame, hEntry]
          rfl
        · rw [if_neg hSame, if_neg hSame]

private theorem tidyRegisters_ensures (hSound : context.Sound) {numbers : List Nat}
    (hNumbers : ∀ number ∈ numbers, context.store.Allocatable number) :
    Ensures (Generating.tidyRegisters numbers) context fun _ after =>
      Turns context after (fun start finish => finish = start.dropAll) ∧
        (∀ other, after.store.register? other =
          if other.toNat ∈ numbers ∧ 0 ≤ other then
            (context.store.register? other).map Register.settled
          else context.store.register? other) ∧
        after = { context with store := after.store } := by
  induction numbers generalizing context with
  | nil =>
      refine .pure ⟨(Turns.refl hSound).mono ?_, fun _ => by simp, rfl⟩
      rintro start _ rfl
      exact ⟨start, rfl, rfl, rfl, fun _ _ hValue => hValue, fun _ _ hNone => by
        contradiction, rfl, rfl⟩
  | cons number rest inductionHypothesis =>
      obtain ⟨store, hGives, hTurns, hRegister?⟩ :=
        exists_settled hSound (hNumbers number List.mem_cons_self)
      have hRest : Ensures (Generating.tidyRegisters rest) { context with store := store }
          fun _ after => Turns context after (fun start finish => finish = start.dropAll) ∧
            (∀ other, after.store.register? other =
              if other.toNat ∈ number :: rest ∧ 0 ≤ other then
                (context.store.register? other).map Register.settled
              else context.store.register? other) ∧
            after = { context with store := after.store } := by
        refine (inductionHypothesis hTurns.sound ?_).mono ?_
        · intro other hOther
          have hSize : (store.registers.size : Int) = context.store.registers.size :=
            hTurns.sound.size.trans hSound.size.symm
          obtain ⟨hLow, hHigh⟩ := hNumbers other (List.mem_cons_of_mem _ hOther)
          exact ⟨hLow, by rw [hSize]; exact hHigh⟩
        · rintro - after ⟨hLater, hOthers, hStore⟩
          refine ⟨hTurns.trans hLater ?_, ?_, hStore⟩
          · rintro start _ rfl
            exact ⟨_, rfl, rfl⟩
          · intro other
            rw [hOthers, hRegister?]
            have hSame : other = (number : Int) ↔ other.toNat = number ∧ 0 ≤ other := by omega
            have hTwice : ∀ entry : Register, entry.settled.settled = entry.settled := by
              intro entry
              unfold Register.settled
              cases entry.occupant <;> rfl
            by_cases hLow : 0 ≤ other
            · by_cases hHere : other.toNat = number
              · simp [hSame, hLow, hHere, Function.comp_def, hTwice]
              · simp [hSame, hLow, hHere]
            · simp [hSame, hLow]
      refine .get ?_
      cases hOccupant : context.store.occupant? number with
      | none =>
          rw [hOccupant] at hGives
          exact .onStore_bind hGives hRest
      | some handle =>
          rw [hOccupant] at hGives
          exact .onStore_bind hGives hRest

/-- Destroying loose values changes nothing else. -/
theorem freeAll_ensures (hStore : context.store.Sound) {handles : List Handle}
    (hLoose : ∀ handle ∈ handles, context.store.Loose handle) (hNodup : handles.Nodup) :
    Ensures (Generating.freeAll handles) context fun _ after =>
      ∃ store, after = { context with store := store } ∧ store.Sound ∧
        store.setting = context.setting ∧ store.registers = context.store.registers ∧
        store.symbols = context.store.symbols ∧
        ∀ other, other ∉ handles → context.store.Loose other → store.Loose other := by
  induction handles generalizing context with
  | nil =>
      exact .pure ⟨context.store, rfl, hStore, rfl, rfl, rfl, fun _ _ hOther => hOther⟩
  | cons handle rest inductionHypothesis =>
      obtain ⟨value, arena, hFree, hSame, hSetting, hFreed, hOthers⟩ :=
        Store.free_of_loose hStore (hLoose handle List.mem_cons_self)
      rw [List.nodup_cons] at hNodup
      have hStill : ∀ other, other ≠ handle → context.store.Loose other →
          Store.Loose { context.store with arena := arena } other := by
        intro other hOther hLooseOther
        refine hLooseOther.congr hSetting fun hLive => ?_
        rw [hOthers other hOther]
        exact hLive
      refine .onStore_bind (StoreAction.free_gives hFree) ?_
      refine (@inductionHypothesis { context with
        store := { context.store with arena := arena } } hFreed ?_ hNodup.2).mono ?_
      · intro other hOther
        exact hStill other (fun hEqual => hNodup.1 (hEqual ▸ hOther))
          (hLoose other (List.mem_cons_of_mem _ hOther))
      · rintro - after ⟨store, rfl, hSound, hSameSetting, hRegisters, hSymbols, hLater⟩
        refine ⟨store, rfl, hSound, hSameSetting.trans hSetting, hRegisters, hSymbols, ?_⟩
        intro other hOther hLooseOther
        rw [List.mem_cons, not_or] at hOther
        exact hLater other hOther.2 (hStill other hOther.1 hLooseOther)

/-- The end of a command leaves a tidy context. -/
theorem tidyUp_ensures (hSound : context.Sound) :
    Ensures Generating.tidyUp context fun _ after =>
      Turns context after (fun start finish => finish = start.dropAll) ∧ after.Tidy ∧
        (∀ register, after.store.occupant? register = context.store.occupant? register) ∧
        after.pointer = context.pointer ∧ after.listing = context.listing := by
  refine .get (.bind (tidyRegisters_ensures hSound ?_) ?_)
  · intro number hNumber
    obtain ⟨hNonzero, entry, hEntry, -⟩ := Store.mem_registersIn.mp hNumber
    exact Store.allocatable_of_ne_zero hEntry (by omega)
  rintro - settled ⟨hTurns, hRegister?, hSettled⟩
  refine .get (.bind (freeAll_ensures hTurns.sound.store hTurns.sound.dynamics
    hTurns.sound.distinct) ?_)
  rintro - _ ⟨store, rfl, hStore, hSetting, hRegisters, hSymbols, -⟩
  have hSame : ∀ register, store.register? register = settled.store.register? register := by
    intro register
    simp only [Store.register?, hRegisters]
  have hWorks : Works settled { settled with store := store, dynamics := [] } := by
    refine ⟨⟨⟨hStore, ?_, fun _ hNone => absurd hNone List.not_mem_nil, List.nodup_nil,
      hTurns.sound.recorded⟩, ⟨rfl, rfl, rfl, rfl, rfl⟩, .refl _ _⟩, hSetting⟩
    rw [hRegisters]
    exact hTurns.sound.size
  have hFreed : Turns settled { settled with store := store, dynamics := [] } Eq := by
    refine ⟨hWorks, ?_⟩
    rintro picture _ rfl
    exact .still rfl fun snapshot hShows => hShows.congr_setting hRegisters hSymbols hSetting
  -- A register in use was in the list of held registers, and none of these stays in use.
  have hNone : ∀ register occupant, store.register? register ≠ some ⟨.inUse, occupant⟩ := by
    intro register occupant hUsed
    rw [hSame, hRegister?] at hUsed
    split at hUsed
    · obtain ⟨entry, -, hEntry⟩ := Option.map_eq_some_iff.mp hUsed
      unfold Register.settled at hEntry
      split at hEntry <;> simp at hEntry
    · rename_i hOutside
      have hNonzero : register ≠ 0 := by
        rintro rfl
        rw [hSound.store.pointer] at hUsed
        simp at hUsed
      have hAllocatable := Store.allocatable_of_ne_zero hUsed hNonzero
      have hLow := hAllocatable.1
      refine hOutside ⟨Store.mem_registersIn.mpr ⟨by omega, ⟨.inUse, occupant⟩, ?_, rfl⟩, by omega⟩
      rw [Int.toNat_of_nonneg (by omega)]
      exact hUsed
  refine .modify ⟨hTurns.before_still hFreed, ⟨hWorks.sound, ?_, ?_⟩, ?_, ?_, ?_⟩
  · intro register
    exact ⟨fun hMem => absurd hMem List.not_mem_nil, fun hHolds => absurd hHolds (hNone _ _)⟩
  · exact fun register handle => hNone register _
  · intro register
    rw [Store.occupant?, Store.occupant?, hSame, hRegister?]
    split
    · cases hEntry : context.store.register? register with
      | none => rfl
      | some entry =>
          obtain ⟨state, occupant⟩ := entry
          cases occupant <;> rfl
    · rfl
  · rw [hSettled]
  · rw [hSettled]

end Context

/-! ### Cells lent to unnamed values -/

namespace Setting

theorem claimRun_eq_update (setting : Setting) (start : Address) (handles : List Handle) :
    setting.claimRun start handles = { setting with
      owner := (setting.claimRun start handles).owner
      chunk := (setting.claimRun start handles).chunk } := by
  induction handles generalizing setting start with
  | nil => rfl
  | cons handle rest inductionHypothesis =>
      rw [claimRun, inductionHypothesis]
      rfl

theorem chunk_claimRun_of_not_mem (setting : Setting) (start : Address) {handles : List Handle}
    {handle : Handle} (hHandle : handle ∉ handles) :
    (setting.claimRun start handles).chunk handle = setting.chunk handle := by
  induction handles generalizing setting start with
  | nil => rfl
  | cons other rest inductionHypothesis =>
      rw [List.mem_cons, not_or] at hHandle
      rw [claimRun, inductionHypothesis _ _ hHandle.2]
      exact Function.update_of_ne hHandle.1 _ _

private theorem owner_claimRun_of_lt (setting : Setting) {start address : Address}
    {handles : List Handle} (hAddress : address.toNat < start.toNat)
    (hRange : start.toNat + handles.length ≤ UInt64.size) :
    (setting.claimRun start handles).owner address = setting.owner address := by
  induction handles generalizing setting start with
  | nil => rfl
  | cons handle rest inductionHypothesis =>
      have hOwner : (setting.claim start handle).owner address = setting.owner address :=
        Function.update_of_ne (fun hSame => by rw [hSame] at hAddress; omega) _ _
      rw [claimRun, ← hOwner]
      cases rest with
      | nil => rfl
      | cons other more =>
          rw [List.length_cons, List.length_cons] at hRange
          have hNext : (start + 1).toNat = start.toNat + 1 := by
            rw [UInt64.toNat_add]
            exact Nat.mod_eq_of_lt (by change start.toNat + 1 < UInt64.size; omega)
          exact inductionHypothesis _ (by omega) (by rw [List.length_cons]; omega)

/-- Cells lent to unnamed values leave the cells of names alone. -/
theorem cell?_claimRun {setting : Setting} {start : Address} {handles : List Handle}
    (hUnnamed : ∀ handle ∈ handles, setting.nameOf handle = none)
    (hNamed : ∀ name kind handle, setting.declared name = some (kind, .value handle) →
      setting.nameOf handle = some name) (name : String) :
    (setting.claimRun start handles).cell? name = setting.cell? name := by
  have hDeclared : (setting.claimRun start handles).declared = setting.declared := by
    rw [claimRun_eq_update]
  unfold cell?
  rw [hDeclared]
  cases hEntry : setting.declared name with
  | none => rfl
  | some entry =>
      obtain ⟨kind, binding⟩ := entry
      cases binding with
      | value handle =>
          have hHandle : handle ∉ handles := by
            intro hMem
            have hNone := hUnnamed handle hMem
            rw [hNamed name kind handle hEntry] at hNone
            contradiction
          simp only [chunk_claimRun_of_not_mem setting start hHandle]
      | array ref => rfl
      | nothing => rfl

private theorem isScratch_claimRun {setting : Setting} {start : Address} {handles : List Handle}
    (hUnnamed : ∀ handle ∈ handles, setting.nameOf handle = none) {address : Address}
    (hScratch : setting.IsScratch address) :
    (setting.claimRun start handles).IsScratch address := by
  induction handles generalizing setting start with
  | nil => exact hScratch
  | cons handle rest inductionHypothesis =>
      refine inductionHypothesis (fun other hOther => hUnnamed other (List.mem_cons_of_mem _ hOther)) ?_
      obtain ⟨hLow, owner, hOwner, hName⟩ := hScratch
      refine ⟨hLow, ?_⟩
      by_cases hSame : address = start
      · rw [hSame]
        exact ⟨handle, Function.update_self _ _ _, hUnnamed handle List.mem_cons_self⟩
      · exact ⟨owner, (Function.update_of_ne hSame _ _).trans hOwner, hName⟩

/-- Lent cells are scratch cells. -/
theorem isScratch_claimRun_self {setting : Setting} {start : Address} {handles : List Handle}
    (hSpare : setting.Spare start handles)
    (hLow : setting.layout.loop.last.toNat < setting.arraysStart) {address : Address}
    (hFirst : start.toNat ≤ address.toNat)
    (hLast : address.toNat < start.toNat + handles.length) :
    (setting.claimRun start handles).IsScratch address := by
  induction handles generalizing setting start with
  | nil =>
      rw [List.length_nil] at hLast
      omega
  | cons handle rest inductionHypothesis =>
      have hUnnamed : ∀ other ∈ rest, (setting.claim start handle).nameOf other = none :=
        fun other hOther => (hSpare.values other (List.mem_cons_of_mem _ hOther)).2
      by_cases hSame : address = start
      · refine isScratch_claimRun hUnnamed ⟨?_, handle, ?_,
          (hSpare.values handle List.mem_cons_self).2⟩
        · have hEnd := hSpare.last
          rw [List.length_cons] at hEnd
          change address.toNat < setting.arraysStart
          rw [hSame]
          omega
        · rw [hSame]
          exact Function.update_self _ _ _
      · have hBeyond : start.toNat ≠ address.toNat :=
          fun hEqual => hSame (UInt64.toNat_inj.mp hEqual).symm
        rw [List.length_cons] at hLast
        cases rest with
        | nil =>
            rw [List.length_nil] at hLast
            omega
        | cons other more =>
            have hNext := hSpare.next
            exact inductionHypothesis (hSpare.tail (List.cons_ne_nil _ _)).2 hLow (by omega)
              (by omega)

end Setting

namespace Context

variable {context : Context}

/-- What a context with cells more shows is what it showed without them. -/
theorem Shows.lend (hSound : context.Sound) {store : Store} {start : Address}
    {handles : List Handle} (hSpare : context.setting.Spare start handles)
    (hSetting : store.setting = context.setting.claimRun start handles)
    (hRegisters : store.registers = context.store.registers)
    (hSymbols : store.symbols = context.store.symbols) {picture : Picture} {snapshot : Snapshot}
    (hShows : context.Shows picture snapshot) :
    Coherent store context.pointer picture snapshot := by
  have hUnnamed : ∀ handle ∈ handles, context.setting.nameOf handle = none :=
    fun handle hHandle => (hSpare.values handle hHandle).2
  refine hShows.congr_store hRegisters hSymbols ?_ ?_ ?_
  · intro name
    rw [hSetting]
    exact Setting.cell?_claimRun hUnnamed
      (fun other kind handle hDeclared => (hSound.store.cells other kind handle hDeclared).1) name
  · rw [hSetting, Setting.claimRun_eq_update]
    rfl
  · intro address value _ hScratch
    rw [hSetting]
    exact Setting.isScratch_claimRun hUnnamed hScratch

private theorem createScratch_ensures (hSound : context.Sound) (count : Nat) :
    Ensures (Generating.createScratch count) context fun handles after =>
      ∃ store, after = { context with store := store } ∧ store.Sound ∧
        store.setting = context.setting ∧ store.registers = context.store.registers ∧
        store.symbols = context.store.symbols ∧ handles.length = count ∧ handles.Nodup ∧
        (∀ handle ∈ handles, store.Loose handle ∧
          (store.arena.get? handle).bind Value.known? = none) ∧
        ∀ other, context.store.Loose other → store.Loose other ∧ other ∉ handles ∧
          store.arena.get? other = context.store.arena.get? other := by
  induction count generalizing context with
  | zero =>
      exact .pure ⟨context.store, rfl, hSound.store, rfl, rfl, rfl, rfl, List.nodup_nil,
        fun _ hNone => absurd hNone List.not_mem_nil,
        fun _ hLoose => ⟨hLoose, List.not_mem_nil, rfl⟩⟩
  | succ count inductionHypothesis =>
      refine .onStore_bind (StoreAction.create_gives context.store (.constant 0)) ?_
      have hCreated := Store.sound_create hSound.store (.constant 0)
      have hSetting := Store.setting_create hSound.store (.constant 0)
      have hOld : ∀ other, context.store.Loose other → _ :=
        fun other hLoose => Store.Loose.create hSound.store (.constant 0) hLoose
      have hNow : Context.Sound { context with
          store := { context.store with arena := (context.store.arena.create (.constant 0)).2 } } :=
        ⟨hCreated, hSound.size, fun other hOther => (hOld other (hSound.dynamics other hOther)).1,
          hSound.distinct, hSound.recorded⟩
      refine .bind (inductionHypothesis hNow) ?_
      rintro rest _ ⟨store, rfl, hStore, hSame, hRegisters, hSymbols, hLength, hNodup, hLoose,
        hOthers⟩
      obtain ⟨hHeadLoose, hHeadNew, hHeadSame⟩ :=
        hOthers _ (Store.loose_create hSound.store (.constant 0))
      refine .pure ⟨store, rfl, hStore, hSame.trans hSetting, hRegisters, hSymbols, ?_, ?_, ?_, ?_⟩
      · rw [List.length_cons, hLength]
      · exact List.nodup_cons.mpr ⟨hHeadNew, hNodup⟩
      · refine List.forall_mem_cons.mpr ⟨⟨hHeadLoose, ?_⟩, hLoose⟩
        rw [hHeadSame, Arena.get?_create_self hSound.store.arena]
        rfl
      · intro other hOther
        obtain ⟨hStill, hDifferent, hSameHere⟩ := hOld other hOther
        obtain ⟨hLater, hNotRest, hSameLater⟩ := hOthers other hStill
        exact ⟨hLater, by rw [List.mem_cons, not_or]; exact ⟨hDifferent, hNotRest⟩,
          hSameLater.trans hSameHere⟩

theorem takeScratch_ensures (hSound : context.Sound) {count : Nat} (hPositive : 0 < count)
    (hSmall : count < UInt64.size) :
    Ensures (Generating.takeScratch count) context fun start after =>
      ∃ store handles, after = { context with store := store } ∧ handles.length = count ∧
        Advances context after ∧ context.setting.Spare start handles ∧
        store.setting = context.setting.claimRun start handles ∧
        store.registers = context.store.registers ∧ store.symbols = context.store.symbols := by
  refine .bind (createScratch_ensures hSound count) ?_
  rintro handles _ ⟨created, rfl, hCreated, hSetting, hRegisters, hSymbols, hLength, hNodup, hBlank,
    hOld⟩
  have hNonempty : handles ≠ [] := by
    rintro rfl
    rw [List.length_nil] at hLength
    omega
  rcases StoreAction.allocateRun_run hCreated hNonempty (by rw [hLength]; exact hSmall)
    (fun handle hHandle => (hBlank handle hHandle).1) (fun handle hHandle => (hBlank handle hHandle).2)
    hNodup with ⟨range, wanted, hRefuses⟩ | ⟨start, store, hGives, hStore, hSpare, hClaimed,
      hSameRegisters, hSameSymbols, hLive⟩
  · refine .tryCatch_refuses hRefuses (.bind (freeAll_ensures hCreated
      (fun handle hHandle => (hBlank handle hHandle).1) hNodup) ?_)
    rintro - _ -
    exact rfl
  · rw [hSetting] at hSpare hClaimed
    have hStill : ∀ handle, context.store.Loose handle → store.Loose handle := by
      intro handle hHandle
      obtain ⟨hLooseHandle, hOther, -⟩ := hOld handle hHandle
      have hNames : store.setting.nameOf = created.setting.nameOf := by
        rw [hClaimed, Setting.claimRun_eq_update, hSetting]
      refine ⟨by rw [hLive]; exact hLooseHandle.live, by rw [hNames]; exact hLooseHandle.unnamed, ?_⟩
      rw [hClaimed, Setting.chunk_claimRun_of_not_mem _ _ hOther, ← hSetting]
      exact hLooseHandle.unplaced
    refine .tryCatch_onStore hGives ⟨store, handles, rfl, hLength, ?_, hSpare, hClaimed,
      hSameRegisters.trans hRegisters, hSameSymbols.trans hSymbols⟩
    refine .onStore hSound hStore ?_ fun handle _ => hStill handle
    rw [hSameRegisters, hRegisters]

/-- A cell of an unnamed value can be given back. -/
theorem freeAt_ensures (hSound : context.Sound) {address : Address} {handle : Handle}
    (hOwner : context.setting.owner address = some handle)
    (hUnnamed : context.setting.nameOf handle = none)
    (hLoop : address.toNat ≤ context.setting.layout.loop.last.toNat) :
    Ensures (Generating.onStore (StoreAction.freeAt address)) context fun _ after =>
      ∃ store, after = { context with store := store } ∧ Advances context after ∧
        store.setting = context.setting.disclaim address handle ∧
        store.registers = context.store.registers ∧ store.symbols = context.store.symbols ∧
        ∀ picture snapshot, context.Shows picture snapshot →
          after.Shows (picture.forget [] [address.toNat]) snapshot := by
  obtain ⟨value, store, hGives, hStore, hSetting, hRegisters, hSymbols, hLive⟩ :=
    StoreAction.freeAt_gives hSound.store hOwner hUnnamed hLoop
  have hChunk := (hSound.store.owners address handle).mp hOwner
  refine .onStore hGives ⟨store, rfl, .onStore hSound hStore (by rw [hRegisters]) ?_, hSetting,
    hRegisters, hSymbols, ?_⟩
  · intro other _ hLoose
    have hOther : other ≠ handle := by
      rintro rfl
      rw [hLoose.unplaced] at hChunk
      contradiction
    refine ⟨by rw [hLive other hOther]; exact hLoose.live, by rw [hSetting]; exact hLoose.unnamed, ?_⟩
    rw [hSetting]
    exact (Function.update_of_ne hOther _ _).trans hLoose.unplaced
  · intro picture snapshot hShows
    refine (hShows.restrict (picture.below_forget [] [address.toNat])).congr_store hRegisters
      hSymbols ?_ (by rw [hSetting]; rfl) ?_
    · intro name
      rw [hSetting]
      unfold Setting.cell?
      cases hEntry : context.setting.declared name with
      | none => simp only [Setting.disclaim, hEntry]
      | some entry =>
          obtain ⟨kind, binding⟩ := entry
          cases binding with
          | value other =>
              have hOther : other ≠ handle := by
                rintro rfl
                rw [(hSound.store.cells name kind other hEntry).1] at hUnnamed
                contradiction
              simp only [Setting.disclaim, hEntry, Function.update_of_ne hOther]
          | array ref => simp only [Setting.disclaim, hEntry]
          | nothing => simp only [Setting.disclaim, hEntry]
    · intro place found hFound hScratch
      have hOther : place ≠ address := by
        rintro rfl
        simp [Picture.forget] at hFound
      obtain ⟨hLow, owner, hPlace, hName⟩ := hScratch
      rw [hSetting]
      exact ⟨hLow, owner, (Function.update_of_ne hOther _ _).trans hPlace, hName⟩

/-- Lent cells can be given back, which restores the setting. -/
theorem returnScratch_ensures (hSound : context.Sound) {base : Setting} {start : Address}
    {handles : List Handle} (hSpare : base.Spare start handles)
    (hLent : context.setting = base.claimRun start handles) :
    Ensures (Generating.returnScratch start handles.length) context fun _ after =>
      ∃ store, after = { context with store := store } ∧ Advances context after ∧
        store.setting = base ∧ store.registers = context.store.registers ∧
        store.symbols = context.store.symbols ∧
        ∀ picture snapshot, context.Shows picture snapshot →
          after.Shows (picture.forget [] (List.range' start.toNat handles.length)) snapshot := by
  induction handles generalizing context start with
  | nil =>
      refine .pure ⟨context.store, rfl, .refl hSound, hLent, rfl, rfl, ?_⟩
      intro picture snapshot hShows
      exact hShows.restrict (picture.below_forget _ _)
  | cons handle rest inductionHypothesis =>
      obtain ⟨hChunk, hName⟩ := hSpare.values handle List.mem_cons_self
      have hLast := hSpare.last
      have hLoopLast := base.layout.loop.last.toNat_lt
      have hRest := (List.nodup_cons.mp hSpare.nodup).1
      rw [List.length_cons] at hLast
      have hNext : rest ≠ [] → (start + 1).toNat = start.toNat + 1 := by
        intro hMore
        obtain ⟨other, more, rfl⟩ := List.exists_cons_of_ne_nil hMore
        exact hSpare.next
      have hOwnerNow : context.setting.owner start = some handle := by
        rw [hLent, Setting.claimRun]
        cases rest with
        | nil => exact Function.update_self _ _ _
        | cons other more =>
            rw [List.length_cons] at hLast
            have hStep := hNext (List.cons_ne_nil _ _)
            rw [Setting.owner_claimRun_of_lt _ (by omega)
              (by rw [List.length_cons, hStep]; change _ ≤ 2 ^ 64; omega)]
            exact Function.update_self _ _ _
      have hFields : context.setting.nameOf handle = none ∧ context.setting.layout = base.layout := by
        rw [hLent, Setting.claimRun_eq_update]
        exact ⟨hName, rfl⟩
      refine .bind (freeAt_ensures hSound hOwnerNow hFields.1 (by rw [hFields.2]; omega)) ?_
      rintro - _ ⟨freed, rfl, hFreed, hSetting, hRegisters, hSymbols, hShowsFreed⟩
      have hStart : base.owner start = none :=
        hSpare.owners start (Nat.le_refl _) (by rw [List.length_cons]; omega)
      have hRestored : (base.claimRun start (handle :: rest)).disclaim start handle =
          base.claimRun (start + 1) rest := by
        rw [Setting.claimRun]
        cases rest with
        | nil => exact Setting.disclaim_claim hStart hChunk
        | cons other more =>
            rw [List.length_cons] at hLast
            have hStep := hNext (List.cons_ne_nil _ _)
            rw [Setting.disclaim_claimRun (by omega)
              (by rw [List.length_cons, hStep]; change _ ≤ 2 ^ 64; omega) hRest,
              Setting.disclaim_claim hStart hChunk]
      rw [hLent, hRestored] at hSetting
      cases rest with
      | nil => exact .pure ⟨freed, rfl, hFreed, hSetting, hRegisters, hSymbols, hShowsFreed⟩
      | cons other more =>
          have hStep := hNext (List.cons_ne_nil _ _)
          refine (inductionHypothesis hFreed.sound (hSpare.tail (List.cons_ne_nil _ _)).1
            hSetting).mono ?_
          rintro - _ ⟨store, rfl, hAdvances, hBase, hLaterRegisters, hLaterSymbols, hShowsLater⟩
          refine ⟨store, rfl, hFreed.trans hAdvances, hBase, hLaterRegisters.trans hRegisters,
            hLaterSymbols.trans hSymbols, ?_⟩
          intro picture snapshot hShows
          have hFinal := hShowsLater _ snapshot (hShowsFreed picture snapshot hShows)
          rw [Picture.forget_forget, hStep] at hFinal
          exact hFinal

end Context

end RegisterCompiler
