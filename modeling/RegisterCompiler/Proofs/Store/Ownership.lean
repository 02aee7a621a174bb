/-
The owners of memory cells over any history.

A call gives cells away, takes them back, or makes arrays and values.  What it does when it
succeeds is said once, case by case; otherwise nothing changes.  So over any history cells and
values own each other exactly.
-/

import RegisterCompiler.Proofs.Store.Apportioning

set_option autoImplicit false

namespace RegisterCompiler

open StoreAction (Gives Refuses)

inductive SpaceCall where
  | allocate (segment : Segment) (handle : Handle)
  | allocateRun (segment : Segment) (handles : List Handle)
  | allocateArray (ref : ArrayRef) (head : Handle)
  | free (address : Address)
  | freeLoop
  | createArray (name : String) (length : Int)
  | values (call : ValueCall)

namespace SpaceCall

/-- What a call does.  It answers the first cell that it gives to a value. -/
def action : SpaceCall → StoreAction (Option Address)
  | allocate segment handle => some <$> StoreAction.allocate segment handle
  | allocateRun segment handles => some <$> StoreAction.allocateRun segment handles
  | allocateArray ref head => do
      StoreAction.allocateArray ref head
      return none
  | free address => do
      let _ ← StoreAction.freeAt address
      return none
  | freeLoop => ExceptT.mk do
      let (_, fault) ← StoreAction.freeLoopCells
      match fault with
      | none => return .ok none
      | some fault => return .error fault
  | createArray name length => do
      let _ ← StoreAction.createArray name length
      return none
  | values call => do
      let _ ← call.action
      return none

/-- An array is placed once, and cells are only taken back through calls on cells: a value that
owns one is not destroyed, and a change of a value leaves its cell alone. -/
def Allowed (store : Store) : SpaceCall → Prop
  | allocateArray ref head => ∀ after, (StoreAction.allocateArray ref head).Gives store () after →
      (store.arena.array ref).base = none
  | values call => call.Spares Value.chunk store
  | _ => True

def perform (store : Store) (call : SpaceCall) : Store :=
  (call.action.run.run store).2

/-! ### What calls do -/

structure Found (store : Store) (handles : List Handle) (start : Address) : Prop where
  claimable : store.Claimable (Store.row start 0 handles)
  found : Space.findRun store.space.chunks store.space.layout.loop handles.length.toUInt64
    (store.space.chunks.size + 1) store.space.layout.loop.first = some start

/-- What a call does that succeeds: its answer and the store after it. -/
inductive Effect (store : Store) : SpaceCall → Option Address → Store → Prop where
  | next {segment : Segment} {handle : Handle} {address : Address}
      (hNext : store.space.next? segment = some address) (hOpen : store.Open address handle) :
      Effect store (.allocate segment handle) (some address)
        ((store.claim address handle).countUp segment)
  | loop {handle : Handle} {start : Address} (hFound : Found store [handle] start) :
      Effect store (.allocate .loop handle) (some start)
        (store.claimAll (Store.row start 0 [handle]))
  | run {handles : List Handle} {start : Address} (hFound : Found store handles start) :
      Effect store (.allocateRun .loop handles) (some start)
        (store.claimAll (Store.row start 0 handles))
  | native {ref : ArrayRef} {head : Handle} (hUnplaced : (store.arena.array ref).base = none)
      (hFits : store.Fits ref)
      (hOpen : store.Open (store.space.layout.arrays.first + store.space.arrays) head) :
      Effect store (.allocateArray ref head) none (store.placeNative ref head)
  | big {ref : ArrayRef} {head : Handle} (hUnplaced : (store.arena.array ref).base = none)
      (hLong : (store.space.layout.arrays.size.toNat : Int) < (store.arena.array ref).length) :
      Effect store (.allocateArray ref head) none (store.placeBig ref)
  | free {address : Address} {handle : Handle} {after : Store}
      (hOwner : store.space.chunks.get? address = some handle)
      (hFrees : Store.Frees address handle store after) : Effect store (.free address) none after
  | freeLoop {after : Store}
      (hFrees : Store.FreesEach (StoreAction.loopCells store) store after) :
      Effect store .freeLoop none after
  | createArray {name : String} {length : Int} :
      Effect store (.createArray name length) none
        { store with arena := (store.arena.createArray name length).2 }
  | values {call : ValueCall} {arena : Arena} (hWell : arena.WellFormed)
      (hArrays : arena.arrays = store.arena.arrays)
      (hChunks : ∀ handle, (arena.get? handle).bind Value.chunk =
        (store.arena.get? handle).bind Value.chunk) :
      Effect store (.values call) none { store with arena := arena }

variable {store : Store}

private theorem allocate_outcome (store : Store) (segment : Segment) (handle : Handle) :
    (∃ fault, (allocate segment handle).action.Refuses store fault) ∨
      ∃ answer after, (allocate segment handle).action.Gives store answer after ∧
        Effect store (allocate segment handle) answer after := by
  have hNext : ∀ range,
      (∀ fault, (StoreAction.allocateNext segment range handle).Refuses store fault →
        (StoreAction.allocate segment handle).Refuses store fault) →
      (∀ address after, (StoreAction.allocateNext segment range handle).Gives store address after →
        (StoreAction.allocate segment handle).Gives store address after) →
      (∃ fault, (allocate segment handle).action.Refuses store fault) ∨
        ∃ answer after, (allocate segment handle).action.Gives store answer after ∧
          Effect store (allocate segment handle) answer after := by
    intro range hFails hDone
    rcases StoreAction.allocateNext_outcome store segment range handle with
      ⟨fault, hRefuses⟩ | ⟨address, hGives, hNext, hOpen⟩
    · exact .inl ⟨fault, (hFails fault hRefuses).map some⟩
    · exact .inr ⟨_, _, (hDone address _ hGives).map some, .next hNext hOpen⟩
  cases segment with
  | loop =>
      rcases StoreAction.allocateRun_outcome store .loop [handle] with
        ⟨fault, hRefuses⟩ | ⟨start, hGives, hClaimable, -, hFound⟩
      · have hFails : (StoreAction.allocate .loop handle).Refuses store fault :=
          Gives.refuses (.get store) hRefuses
        exact .inl ⟨fault, hFails.map some⟩
      · have hDone : (StoreAction.allocate .loop handle).Gives store start _ :=
          .bind (.get store) hGives
        exact .inr ⟨_, _, hDone.map some, .loop ⟨hClaimable, hFound⟩⟩
  | scalars =>
      exact hNext store.space.layout.scalars (fun _ hRefuses => Gives.refuses (.get store) hRefuses)
        fun _ _ hGives => .bind (.get store) hGives
  | arrays =>
      exact hNext store.space.layout.arrays (fun _ hRefuses => Gives.refuses (.get store) hRefuses)
        fun _ _ hGives => .bind (.get store) hGives
  | oversized =>
      have hFails : (StoreAction.allocate .oversized handle).Refuses store (.noChunks .oversized) :=
        Gives.refuses (.get store) (.throw _ store)
      exact .inl ⟨_, hFails.map some⟩
  | unnamed number =>
      have hFails : (StoreAction.allocate (.unnamed number) handle).Refuses store
          (.noChunks (.unnamed number)) := Gives.refuses (.get store) (.throw _ store)
      exact .inl ⟨_, hFails.map some⟩

theorem outcome (hStore : store.Apportioned) {call : SpaceCall} (hAllowed : Allowed store call) :
    (∃ fault, call.action.Refuses store fault) ∨
      ∃ answer after, call.action.Gives store answer after ∧ Effect store call answer after := by
  cases call with
  | allocate segment handle => exact allocate_outcome store segment handle
  | allocateRun segment handles =>
      rcases StoreAction.allocateRun_outcome store segment handles with
        ⟨fault, hRefuses⟩ | ⟨start, hGives, hClaimable, rfl, hFound⟩
      · exact .inl ⟨fault, hRefuses.map some⟩
      · exact .inr ⟨_, _, hGives.map some, .run ⟨hClaimable, hFound⟩⟩
  | allocateArray ref head =>
      rcases StoreAction.allocateArray_outcome hStore ref head with
        ⟨fault, hRefuses⟩ | ⟨hGives, hFits, hOpen⟩ | ⟨hGives, hLong⟩
      · exact .inl ⟨fault, hRefuses.bind _⟩
      · exact .inr ⟨_, _, hGives.bind (.pure none _), .native (hAllowed _ hGives) hFits hOpen⟩
      · exact .inr ⟨_, _, hGives.bind (.pure none _), .big (hAllowed _ hGives) hLong⟩
  | free address =>
      cases hOwner : store.space.chunks.get? address with
      | none => exact .inl ⟨_, (StoreAction.freeAt_refuses hOwner).bind _⟩
      | some handle =>
          obtain ⟨value, after, hGives, hFrees⟩ := StoreAction.freeAt_frees hStore hOwner
          exact .inr ⟨_, _, hGives.bind (.pure none _), .free hOwner hFrees⟩
  | freeLoop =>
      obtain ⟨after, hRun, hFrees⟩ := StoreAction.freeLoopCells_frees hStore
      refine .inr ⟨none, after, ?_, .freeLoop hFrees⟩
      unfold StoreAction.Gives action
      rw [ExceptT.run_mk, StateT.run_bind, hRun]
      rfl
  | createArray name length => exact .inr ⟨none, _, rfl, .createArray⟩
  | values call =>
      rcases hAllowed.outcome (fun _ => rfl) hStore.arena with
        ⟨fault, hRefuses⟩ | ⟨answer, arena, hGives, hWell, hArrays, hChunks⟩
      · exact .inl ⟨fault, hRefuses.bind _⟩
      · exact .inr ⟨_, _, hGives.bind (.pure none _), .values hWell hArrays hChunks⟩

theorem array_createArray_of_ne (arena : Arena) (name : String) (length : Int) {ref : ArrayRef}
    (hOld : ref ≠ arena.arrays.size) :
    (arena.createArray name length).2.array ref = arena.array ref := by
  simp only [Arena.createArray, Arena.array, Array.getD_eq_getD_getElem?, Array.getElem?_push,
    if_neg hOld]

private theorem chunk_createArray (arena : Arena) (name : String) (length : Int) (ref : ArrayRef) :
    ((arena.createArray name length).2.array ref).chunk = (arena.array ref).chunk := by
  by_cases hNew : ref = arena.arrays.size
  · simp only [Arena.createArray, Arena.array, Array.getD_eq_getD_getElem?, hNew,
      Array.getElem?_push_size, Array.getElem?_eq_none (Nat.le_refl arena.arrays.size)]
    rfl
  · rw [array_createArray_of_ne arena name length hNew]

theorem Effect.apportioned {call : SpaceCall} {answer : Option Address} {after : Store}
    (hEffect : Effect store call answer after) (hStore : store.Apportioned) :
    after.Apportioned := by
  cases hEffect with
  | next hNext hOpen =>
      refine (hStore.claim hOpen).countUp ?_
      change (store.space.next? _).isSome = true
      rw [hNext]
      rfl
  | loop hFound => exact hStore.claimAll hFound.claimable
  | run hFound => exact hStore.claimAll hFound.claimable
  | native hUnplaced hFits hOpen => exact hStore.placeNative hFits hUnplaced hOpen
  | big hUnplaced hLong => exact hStore.placeBig (by omega) hUnplaced
  | free hOwner hFrees => exact hFrees.apportioned hStore hOwner
  | freeLoop hFrees => exact hFrees.apportioned hStore
  | createArray =>
      refine hStore.setArena ⟨hStore.arena.nodup, hStore.arena.empty, hStore.arena.used⟩
        (fun _ => rfl) (chunk_createArray store.arena _ _) ?_
      intro address ref hHead
      have hBound : ref < store.arena.arrays.size := hStore.lt_size_of_head hHead
      rw [array_createArray_of_ne _ _ _ (Nat.ne_of_lt hBound)]
      exact ⟨rfl, rfl⟩
  | values hWell hArrays hChunks =>
      have hDescribed := Arena.array_congr hArrays
      refine hStore.setArena hWell hChunks ?_ ?_
      · intro ref
        rw [hDescribed]
      · intro address ref _
        rw [hDescribed]
        exact ⟨rfl, rfl⟩

/-- Every call that is allowed keeps a store apportioned, or fails and changes nothing. -/
theorem preserves (hStore : store.Apportioned) {call : SpaceCall} (hAllowed : Allowed store call) :
    call.action.Preserves Store.Apportioned store := by
  rcases outcome hStore hAllowed with hRefuses | ⟨answer, after, hGives, hEffect⟩
  · exact .inl hRefuses
  · exact .inr ⟨answer, after, hGives, hEffect.apportioned hStore⟩

private theorem apportioned_of_reached {start : Store} (hStart : start.Apportioned)
    (hReached : Reached Allowed perform start store) : store.Apportioned := by
  induction hReached with
  | start => exact hStart
  | call call _ hAllowed inductionHypothesis =>
      exact (preserves inductionHypothesis hAllowed).kept inductionHypothesis

end SpaceCall

/-- The owners of cells are exact.  After any calls that give cells away and take them back, in
any order and for any values, among calls that make arrays and values, where each array is placed
once and values that own a cell are only destroyed with it: the listed owner of a cell lives and
names the cell, a living value that names a cell is its listed owner, the counters are within
their segments, and an array names the cell of its head exactly while that is listed, when the
cell has an owner and is the base of the array.  A call that fails changes nothing. -/
theorem chunk_links_exact {layout : Layout} {registers : Nat} {store : Store}
    (hValid : layout.fault? = none)
    (hReached : Reached SpaceCall.Allowed SpaceCall.perform (.empty layout registers) store) :
    (∀ address handle, (address, handle) ∈ store.space.chunks.entries ↔
        ∃ value, store.arena.get? handle = some value ∧ value.chunk = some address) ∧
      (∀ address handle, store.space.chunks.get? address = some handle ↔
        (address, handle) ∈ store.space.chunks.entries) ∧
      store.space.scalars.toNat ≤ store.space.layout.scalars.size.toNat ∧
      store.space.arrays.toNat ≤ store.space.layout.arrays.size.toNat ∧
      (∀ ref address, (store.arena.array ref).chunk = some address ↔
        store.space.heads.get? address = some ref) ∧
      (∀ ref address, store.space.heads.get? address = some ref →
        (store.space.chunks.get? address).isSome = true ∧
          (store.arena.array ref).base = some address.toNat) ∧
      ∀ call, SpaceCall.Allowed store call → ∀ fault after,
        call.action.run.run store = (.error fault, after) → after = store := by
  have hStore := SpaceCall.apportioned_of_reached (Store.apportioned_empty hValid registers)
    hReached
  refine ⟨?_, ?_, hStore.scalars, hStore.arrays, ?_, ?_, ?_⟩
  · intro address handle
    rw [OrderedMap.mem_entries_iff, hStore.owners, Option.bind_eq_some_iff]
  · intro address handle
    rw [OrderedMap.mem_entries_iff]
  · intro ref address
    exact (hStore.heads address ref).symm
  · intro ref address hHead
    obtain ⟨-, hOwned, hBase, -⟩ := hStore.headed address ref hHead
    exact ⟨hOwned, hBase⟩
  · intro call hAllowed fault after hRun
    exact (SpaceCall.preserves hStore hAllowed).unchanged hRun

/-- A run that asks for the same value twice is given back, and an array is placed. -/
theorem refused_run_links_exact :
    ∃ store, Reached SpaceCall.Allowed SpaceCall.perform (.empty .standard 5) store ∧
      store.space.chunks.entries = [(1048576, ⟨1, 1⟩)] ∧
      (store.arena.get? ⟨0, 1⟩).bind Value.chunk = none ∧
      store.space.heads.get? 1048576 = some 0 ∧
      (store.arena.array 0).chunk = some 1048576 := by
  have hMade : Reached SpaceCall.Allowed SpaceCall.perform (.empty .standard 5) _ :=
    .call (.createArray "t" 3) (.call (.values (.create (.constant 8)))
      (.call (.values (.create (.constant 7))) .start (by trivial)) (by trivial)) (by trivial)
  have hReached : Reached SpaceCall.Allowed SpaceCall.perform (.empty .standard 5) _ :=
    .call (.allocateArray 0 ⟨1, 1⟩) (.call (.allocateRun .loop [⟨0, 1⟩, ⟨1, 1⟩, ⟨0, 1⟩]) hMade
      (by trivial)) (by exact fun _ _ => rfl)
  obtain ⟨-, -, -, -, hHeads, -⟩ := chunk_links_exact rfl hReached
  exact ⟨_, hReached, rfl, rfl, rfl, (hHeads 0 1048576).mpr rfl⟩

end RegisterCompiler
