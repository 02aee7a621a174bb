/-
Handles never stand for two values.

An account lists every handle that was given out, with the value created for it as long as that
is not destroyed.  It is kept from the calls and their answers alone.  After any calls the arena
finds, counts and visits the values of the account and no others.
-/

import Mathlib.Data.List.Nodup
import Mathlib.Data.List.Perm.Basic
import RegisterCompiler.Proofs.Store.Histories
import RegisterCompiler.Proofs.Store.Marks

set_option autoImplicit false

namespace RegisterCompiler

/-! ### Slots -/

namespace Arena

private theorem live_create (arena : Arena) (payload : Payload) :
    (arena.create payload).2.live = arena.live + 1 := by
  unfold create
  split <;> rfl

private theorem size_create_le (arena : Arena) (payload : Payload) :
    (arena.create payload).2.slots.size ≤ arena.slots.size + 1 := by
  unfold create
  split <;> simp

private theorem generation_create_le {arena : Arena} {bound : Nat}
    (hBound : ∀ slot ∈ arena.slots, slot.generation ≤ bound) (payload : Payload) :
    ∀ slot ∈ (arena.create payload).2.slots, slot.generation ≤ bound + 1 := by
  intro slot hSlot
  unfold create at hSlot
  split at hSlot
  · rcases Array.mem_push.mp hSlot with hOld | rfl
    · exact Nat.le_succ_of_le (hBound slot hOld)
    · exact Nat.le_add_left 1 bound
  · rename_i index rest hFree
    simp only [Array.set!_eq_setIfInBounds] at hSlot
    rcases Array.mem_or_eq_of_mem_setIfInBounds hSlot with hOld | rfl
    · exact Nat.le_succ_of_le (hBound slot hOld)
    · simp only [Array.getD_eq_getD_getElem?]
      cases hFound : arena.slots[index]? with
      | none => exact Nat.le_add_left 1 bound
      | some found => exact Nat.succ_le_succ (hBound found (Array.mem_of_getElem? hFound))

private theorem generation_set_le {arena : Arena} {bound : Nat}
    (hBound : ∀ slot ∈ arena.slots, slot.generation ≤ bound) {handle : Handle} {value : Value}
    (hLive : arena.get? handle = some value) (content : Option Value) :
    ∀ slot ∈ arena.slots.set! handle.index ⟨handle.generation, content⟩,
      slot.generation ≤ bound := by
  intro slot hSlot
  rw [Array.set!_eq_setIfInBounds] at hSlot
  rcases Array.mem_or_eq_of_mem_setIfInBounds hSlot with hOld | rfl
  · exact hBound slot hOld
  · exact hBound ⟨handle.generation, some value⟩
      (Array.mem_of_getElem? (get?_eq_some_iff.mp hLive).2)

private theorem get?_of_free? {arena after : Arena} {handle : Handle} {value : Value}
    (hFree : arena.free? handle = some (value, after)) :
    arena.get? handle = some value ∧ after = { arena with
      slots := arena.slots.set! handle.index ⟨handle.generation, none⟩
      freeSlots := handle.index :: arena.freeSlots
      live := arena.live - 1 } := by
  obtain ⟨found, hFound, hSame⟩ := Option.map_eq_some_iff.mp hFree
  cases hSame
  exact ⟨hFound, rfl⟩

private theorem nodup_entries (arena : Arena) : arena.entries.Nodup := by
  have hPlaces : arena.slots.toList.zipIdx.Nodup := by
    apply List.Nodup.of_map Prod.snd
    rw [List.zipIdx_map_snd]
    exact List.nodup_range'
  refine hPlaces.filterMap ?_
  intro first second entry hFirst hSecond
  obtain ⟨⟨generation, content⟩, index⟩ := first
  obtain ⟨⟨era, found⟩, place⟩ := second
  obtain ⟨value, rfl, rfl⟩ := Option.map_eq_some_iff.mp hFirst
  obtain ⟨other, rfl, hSame⟩ := Option.map_eq_some_iff.mp hSecond
  cases hSame
  rfl

end Arena

/-! ### Accounts -/

/-- The handles given out so far, in order, each with the value created for it, as it was
changed through that handle, until the value is destroyed. -/
abbrev Account := List (Handle × Option Value)

namespace Account

def handles (account : Account) : List Handle :=
  account.map Prod.fst

def value? (account : Account) (handle : Handle) : Option Value :=
  (account.lookup handle).join

def living (account : Account) : List (Handle × Value) :=
  account.filterMap fun entry => entry.2.map fun value => (entry.1, value)

def note (account : Account) (handle : Handle) (change : Option Value → Option Value) : Account :=
  account.map fun entry => (entry.1, if entry.1 = handle then change entry.2 else entry.2)

/-- Enters a call with its answer.  A call that failed leaves no trace. -/
def record (account : Account) : ValueCall → Except StoreFault (Option Handle) → Account
  | .create payload, .ok (some handle) => account ++ [(handle, some (.ofPayload payload))]
  | .copy source, .ok (some handle) =>
      account ++ [(handle, (account.value? source).map fun value => .ofPayload value.payload)]
  | .change handle update, .ok none => account.note handle (Option.map update)
  | .free handle, .ok none => account.note handle fun _ => none
  | _, _ => account

/-! ### Entries -/

variable {account : Account} {handle : Handle}

private theorem mem_handles {content : Option Value} (hMem : (handle, content) ∈ account) :
    handle ∈ account.handles :=
  List.mem_map.mpr ⟨_, hMem, rfl⟩

private theorem value?_eq_some_iff (hNodup : account.handles.Nodup) {value : Value} :
    account.value? handle = some value ↔ (handle, some value) ∈ account := by
  unfold value?
  induction account with
  | nil => simp
  | cons entry rest inductionHypothesis =>
      obtain ⟨first, found⟩ := entry
      obtain ⟨hFirst, hRest⟩ := List.nodup_cons.mp hNodup
      rw [SymbolTable.lookup_cons_eq_ite, List.mem_cons, Prod.mk.injEq]
      by_cases hSame : handle = first
      · subst hSame
        have hAbsent : (handle, some value) ∉ rest := fun hMem => hFirst (mem_handles hMem)
        simp [hAbsent, eq_comm]
      · rw [if_neg hSame, inductionHypothesis hRest]
        simp [hSame]

private theorem mem_living_iff {value : Value} :
    (handle, value) ∈ account.living ↔ (handle, some value) ∈ account := by
  simp only [living, List.mem_filterMap, Option.map_eq_some_iff, Prod.mk.injEq, Prod.exists]
  constructor
  · rintro ⟨other, content, hMem, found, rfl, rfl, rfl⟩
    exact hMem
  · intro hMem
    exact ⟨handle, some value, hMem, value, rfl, rfl, rfl⟩

private theorem nodup_living (hNodup : account.handles.Nodup) : account.living.Nodup := by
  refine (List.Nodup.of_map Prod.fst hNodup).filterMap ?_
  intro first second entry hFirst hSecond
  obtain ⟨handle, content⟩ := first
  obtain ⟨other, found⟩ := second
  obtain ⟨value, rfl, rfl⟩ := Option.map_eq_some_iff.mp hFirst
  obtain ⟨again, rfl, hSame⟩ := Option.map_eq_some_iff.mp hSecond
  cases hSame
  rfl

private theorem handles_note (change : Option Value → Option Value) :
    (account.note handle change).handles = account.handles := by
  rw [handles, note, List.map_map]
  rfl

private theorem mem_note_iff {change : Option Value → Option Value} {other : Handle}
    {content : Option Value} :
    (other, content) ∈ account.note handle change ↔
      if other = handle then ∃ found, (other, found) ∈ account ∧ change found = content
      else (other, content) ∈ account := by
  simp only [note, List.mem_map, Prod.mk.injEq, Prod.exists]
  constructor
  · rintro ⟨first, found, hMem, rfl, hContent⟩
    split
    · rename_i hSame
      rw [if_pos hSame] at hContent
      exact ⟨found, hMem, hContent⟩
    · rename_i hOther
      rw [if_neg hOther] at hContent
      exact hContent ▸ hMem
  · intro hMem
    split at hMem
    · rename_i hSame
      obtain ⟨found, hFound, hContent⟩ := hMem
      exact ⟨other, found, hFound, rfl, by rw [if_pos hSame, hContent]⟩
    · rename_i hOther
      exact ⟨other, content, hMem, rfl, by rw [if_neg hOther]⟩

private theorem length_living (account : Account) :
    account.living.length = account.countP fun entry => entry.2.isSome := by
  rw [living, List.length_filterMap_eq_countP]
  simp only [Option.isSome_map]

private theorem length_living_change (update : Value → Value) :
    (account.note handle (Option.map update)).living.length = account.living.length := by
  rw [length_living, length_living, note, List.countP_map]
  apply List.countP_congr
  intro entry _
  by_cases hSame : entry.1 = handle <;> simp [hSame]

private theorem note_of_notMem {change : Option Value → Option Value}
    (hAbsent : handle ∉ account.handles) :
    account.note handle change = account := by
  refine (List.map_congr_left fun entry hEntry => ?_).trans (List.map_id account)
  have hOther : entry.1 ≠ handle := fun hSame => hAbsent (hSame ▸ mem_handles hEntry)
  rw [if_neg hOther]
  rfl

private theorem length_living_free (hNodup : account.handles.Nodup) {value : Value}
    (hMem : (handle, some value) ∈ account) :
    account.living.length = (account.note handle fun _ => none).living.length + 1 := by
  rw [length_living, length_living]
  induction account with
  | nil => cases hMem
  | cons entry rest inductionHypothesis =>
      obtain ⟨first, found⟩ := entry
      obtain ⟨hFirst, hRest⟩ := List.nodup_cons.mp hNodup
      have hNote : note ((first, found) :: rest) handle (fun _ => none) =
          (first, if first = handle then none else found) :: note rest handle (fun _ => none) := rfl
      rw [hNote, List.countP_cons, List.countP_cons]
      rcases List.mem_cons.mp hMem with hHead | hLater
      · cases hHead
        rw [note_of_notMem hFirst]
        simp
      · have hOther : first ≠ handle := fun hSame =>
          hFirst (hSame ▸ mem_handles hLater)
        rw [inductionHypothesis hRest hLater, if_neg hOther]
        omega

/-! ### Accounts of arenas -/

structure Tells (account : Account) (arena : Arena) : Prop where
  wellFormed : arena.WellFormed
  nodup : account.handles.Nodup
  issued : ∀ handle ∈ account.handles, arena.Born handle ∧ handle.isNil = false
  values : ∀ handle value, arena.get? handle = some value ↔ (handle, some value) ∈ account
  live : arena.live = account.living.length
  slots : arena.slots.size ≤ account.length
  generations : ∀ slot ∈ arena.slots, slot.generation ≤ account.length

private theorem tells_empty : Tells [] .empty where
  wellFormed := Arena.wellFormed_empty
  nodup := List.nodup_nil
  issued := fun _ hMem => absurd hMem List.not_mem_nil
  values := fun handle value => by simp [Arena.empty, Arena.get?]
  live := rfl
  slots := Nat.le_refl 0
  generations := fun _ hMem => absurd hMem (Array.not_mem_empty _)

variable {arena : Arena}

private theorem Tells.create (hTells : account.Tells arena) (payload : Payload) :
    Tells (account ++ [((arena.create payload).1, some (.ofPayload payload))])
      (arena.create payload).2 := by
  have hUnborn := Arena.not_born_create hTells.wellFormed payload
  have hSelf := Arena.get?_create_self hTells.wellFormed payload
  have hNew : (arena.create payload).1 ∉ account.handles := fun hMem =>
    hUnborn (hTells.issued _ hMem).1
  constructor
  · exact Arena.wellFormed_create hTells.wellFormed payload
  · rw [handles, List.map_append, List.nodup_append]
    refine ⟨hTells.nodup, List.nodup_singleton _, ?_⟩
    rintro handle hOld _ hAdded rfl
    exact hNew (List.mem_singleton.mp hAdded ▸ hOld)
  · intro handle hMem
    rw [handles, List.map_append, List.mem_append] at hMem
    rcases hMem with hOld | hAdded
    · obtain ⟨hBorn, hNil⟩ := hTells.issued handle hOld
      exact ⟨Arena.born_create payload hBorn, hNil⟩
    · obtain rfl := List.mem_singleton.mp hAdded
      exact ⟨Arena.born_of_get? hSelf, beq_eq_false_iff_ne.mpr (Arena.get?_eq_some_iff.mp hSelf).1⟩
  · intro handle value
    rw [List.mem_append, List.mem_singleton, Prod.mk.injEq, ← hTells.values]
    by_cases hSame : handle = (arena.create payload).1
    · rw [hSame, hSelf, Arena.get?_create_before hTells.wellFormed payload]
      simp [eq_comm]
    · rw [Arena.get?_create_of_ne hTells.wellFormed payload hSame]
      simp [hSame]
  · rw [Arena.live_create, hTells.live, length_living, length_living, List.countP_append]
    rfl
  · rw [List.length_append]
    exact Nat.le_trans (arena.size_create_le payload) (Nat.succ_le_succ hTells.slots)
  · rw [List.length_append]
    exact Arena.generation_create_le hTells.generations payload

private theorem Tells.change (hTells : account.Tells arena) {handle : Handle} {value : Value}
    (hLive : arena.get? handle = some value) (update : Value → Value) :
    Tells (account.note handle (Option.map update)) (arena.modify handle update) := by
  have hModify : arena.modify handle update = { arena with
      slots := arena.slots.set! handle.index ⟨handle.generation, some (update value)⟩ } := by
    rw [Arena.modify, hLive]
  have hLength : (account.note handle (Option.map update)).length = account.length :=
    List.length_map _
  constructor
  · exact Arena.wellFormed_modify hTells.wellFormed handle update
  · rw [handles_note]
    exact hTells.nodup
  · intro other hMem
    rw [handles_note] at hMem
    rw [Arena.born_modify]
    exact hTells.issued other hMem
  · intro other found
    rw [mem_note_iff, Arena.get?_modify]
    by_cases hSame : other = handle
    · subst hSame
      rw [if_pos rfl, if_pos rfl, Option.map_eq_some_iff]
      constructor
      · rintro ⟨old, hOld, rfl⟩
        exact ⟨some old, (hTells.values other old).mp hOld, rfl⟩
      · rintro ⟨content, hMem, hContent⟩
        obtain ⟨old, rfl, rfl⟩ := Option.map_eq_some_iff.mp hContent
        exact ⟨old, (hTells.values other old).mpr hMem, rfl⟩
    · rw [if_neg hSame, if_neg hSame]
      exact hTells.values other found
  · rw [length_living_change, ← hTells.live, hModify]
  · rw [hLength, hModify]
    simpa using hTells.slots
  · rw [hLength, hModify]
    exact Arena.generation_set_le hTells.generations hLive _

private theorem Tells.free (hTells : account.Tells arena) {handle : Handle} {value : Value}
    {after : Arena} (hFree : arena.free? handle = some (value, after)) :
    Tells (account.note handle fun _ => none) after := by
  obtain ⟨hLive, hAfter⟩ := Arena.get?_of_free? hFree
  obtain ⟨hWell, -, hBorn, -⟩ := Arena.marks_of_free? hTells.wellFormed hFree
  have hGet : ∀ other, after.get? other = if other = handle then none else arena.get? other := by
    obtain ⟨rest, hRest, -, -, hGet⟩ := Arena.free?_of_get? hTells.wellFormed hLive
    cases hFree.symm.trans hRest
    exact hGet
  have hMem := (hTells.values handle value).mp hLive
  have hLength : (account.note handle fun _ => none).length = account.length := List.length_map _
  constructor
  · exact hWell
  · rw [handles_note]
    exact hTells.nodup
  · intro other hIssued
    rw [handles_note] at hIssued
    rw [hBorn]
    exact hTells.issued other hIssued
  · intro other found
    rw [mem_note_iff, hGet]
    by_cases hSame : other = handle
    · rw [if_pos hSame, if_pos hSame]
      simp
    · rw [if_neg hSame, if_neg hSame]
      exact hTells.values other found
  · have hLess := length_living_free hTells.nodup hMem
    rw [hAfter]
    change arena.live - 1 = _
    rw [hTells.live]
    omega
  · rw [hLength, hAfter]
    simpa using hTells.slots
  · rw [hLength, hAfter]
    exact Arena.generation_set_le hTells.generations hLive none

end Account

/-! ### Histories -/

namespace ValueCall

def perform (state : Store × Account) (call : ValueCall) : Store × Account :=
  let (answer, after) := call.action.run.run state.1
  (after, state.2.record call answer)

private theorem perform_of_gives {store after : Store} {call : ValueCall} {answer : Option Handle}
    (hGives : call.action.Gives store answer after) (account : Account) :
    perform (store, account) call = (after, account.record call (.ok answer)) := by
  unfold perform
  rw [hGives]

private theorem perform_of_refuses {store : Store} {call : ValueCall} {fault : StoreFault}
    (hRefuses : call.action.Refuses store fault) (account : Account) :
    perform (store, account) call = (store, account) := by
  unfold perform
  rw [hRefuses]
  cases call <;> rfl

private theorem tells_perform {store : Store} {account : Account}
    (hTells : account.Tells store.arena) (call : ValueCall) :
    (perform (store, account) call).2.Tells (perform (store, account) call).1.arena := by
  cases call with
  | create payload =>
      rw [perform_of_gives (create_gives store payload)]
      exact hTells.create payload
  | copy handle =>
      cases hLive : store.arena.get? handle with
      | none =>
          rw [perform_of_refuses (copy_refuses hLive)]
          exact hTells
      | some value =>
          have hFound : account.value? handle = some value :=
            (Account.value?_eq_some_iff hTells.nodup).mpr ((hTells.values handle value).mp hLive)
          rw [perform_of_gives (copy_gives hLive)]
          simp only [Account.record, hFound, Option.map_some]
          exact hTells.create value.payload
  | change handle update =>
      cases hLive : store.arena.get? handle with
      | none =>
          rw [perform_of_refuses (change_refuses hLive update)]
          exact hTells
      | some value =>
          rw [perform_of_gives (change_gives hLive update)]
          exact hTells.change hLive update
  | free handle =>
      cases hLive : store.arena.get? handle with
      | none =>
          rw [perform_of_refuses (free_refuses hLive)]
          exact hTells
      | some value =>
          obtain ⟨after, hFree, -⟩ := Arena.free?_of_get? hTells.wellFormed hLive
          rw [perform_of_gives (free_gives hFree)]
          exact hTells.free hFree

private theorem tells_foldl {state : Store × Account} (hTells : state.2.Tells state.1.arena)
    (calls : List ValueCall) :
    (calls.foldl perform state).2.Tells (calls.foldl perform state).1.arena := by
  induction calls generalizing state with
  | nil => exact hTells
  | cons call rest inductionHypothesis => exact inductionHypothesis (tells_perform hTells call)

end ValueCall

/-- Handles never stand for two values.  After any calls that create, copy, change and destroy
values, fewer than 2^32 of which gave out a handle, the handles given out are distinct, not nil
and fit two words of 32 bits.  A handle finds the value created for it, as it was changed through
that handle, exactly until this is destroyed, and can be copied and destroyed as long; any other
handle is refused as stale, and nothing changes.  The values that live are counted, and visited
once each with their handles. -/
theorem handles_never_alias {layout : Layout} {registers : Nat} {calls : List ValueCall}
    {store : Store} {account : Account}
    (hCalls : calls.foldl ValueCall.perform (.empty layout registers, []) = (store, account))
    (hFew : account.length < UInt32.size) :
    account.handles.Nodup ∧
      (∀ handle ∈ account.handles, handle.isNil = false ∧ handle.index < UInt32.size ∧
        handle.generation < UInt32.size) ∧
      (∀ handle, store.arena.get? handle = account.value? handle) ∧
      (∀ handle value, account.value? handle = some value →
        (∃ after, (StoreAction.free handle).Gives store value after) ∧
          ∃ made after, (StoreAction.copy handle).Gives store made after) ∧
      (∀ handle, account.value? handle = none →
        (StoreAction.free handle).Refuses store (.staleHandle handle) ∧
          (StoreAction.copy handle).Refuses store (.staleHandle handle)) ∧
      store.arena.live = account.living.length ∧ store.arena.entries.Perm account.living := by
  have hTells : account.Tells store.arena := by
    have hAfter := @ValueCall.tells_foldl (.empty layout registers, []) Account.tells_empty calls
    rw [hCalls] at hAfter
    exact hAfter
  have hValues : ∀ handle, store.arena.get? handle = account.value? handle := by
    intro handle
    apply Option.ext
    intro value
    rw [hTells.values, Account.value?_eq_some_iff hTells.nodup]
  refine ⟨hTells.nodup, ?_, hValues, ?_, ?_, hTells.live, ?_⟩
  · intro handle hMem
    obtain ⟨⟨slot, hSlot, hGeneration⟩, hNil⟩ := hTells.issued handle hMem
    have hIndex := (Array.getElem?_eq_some_iff.mp hSlot).1
    have hSlots := hTells.slots
    have hLatest := hTells.generations slot (Array.mem_of_getElem? hSlot)
    exact ⟨hNil, by omega, by omega⟩
  · intro handle value hValue
    rw [← hValues] at hValue
    obtain ⟨after, hFree, -⟩ := Arena.free?_of_get? hTells.wellFormed hValue
    exact ⟨⟨_, StoreAction.free_gives hFree⟩, _, _,
      .bind (StoreAction.value_gives hValue) (StoreAction.create_gives store value.payload)⟩
  · intro handle hNone
    rw [← hValues] at hNone
    exact ⟨StoreAction.free_refuses hNone, (StoreAction.value_refuses hNone).bind _⟩
  · rw [List.perm_ext_iff_of_nodup store.arena.nodup_entries (Account.nodup_living hTells.nodup)]
    intro entry
    rw [Arena.mem_entries_iff hTells.wellFormed, Account.mem_living_iff, hTells.values]

/-- A slot that is used again, and a copy.  The first handle stays stale. -/
theorem reused_slot_never_aliases :
    ∃ store account, [.create (.constant 7), .free ⟨0, 1⟩, .create (.constant 8), .copy ⟨0, 2⟩,
        .copy ⟨0, 1⟩].foldl ValueCall.perform (.empty .standard 5, []) = (store, account) ∧
      account.handles = [⟨0, 1⟩, ⟨0, 2⟩, ⟨1, 1⟩] ∧ account.handles.Nodup ∧
      (StoreAction.free ⟨0, 1⟩).Refuses store (.staleHandle ⟨0, 1⟩) ∧ store.arena.live = 2 := by
  refine ⟨_, _, rfl, rfl, ?_⟩
  obtain ⟨hNodup, -, -, -, hStale, hLive, -⟩ :=
    @handles_never_alias .standard 5 [.create (.constant 7), .free ⟨0, 1⟩, .create (.constant 8),
      .copy ⟨0, 2⟩, .copy ⟨0, 1⟩] _ _ rfl (by decide)
  exact ⟨hNodup, (hStale ⟨0, 1⟩ rfl).1, hLive⟩

end RegisterCompiler
