/-
Taking cells in a row, and giving them back.

A cell is open for a value when neither is taken.  Cells that are taken for values one after
the other may be given back in any order, and then the store is what it was.  A row of cells is
taken for all its values or for none.
-/

import RegisterCompiler.Proofs.Store.Histories

set_option autoImplicit false

namespace RegisterCompiler

/-! ### Changing values -/

namespace Arena

variable {arena : Arena}

private theorem modify_of_get? {handle : Handle} {value : Value}
    (hLive : arena.get? handle = some value) (change : Value → Value) :
    arena.modify handle change = { arena with
      slots := arena.slots.set! handle.index ⟨handle.generation, some (change value)⟩ } := by
  rw [modify, hLive]

private theorem modify_of_get?_eq_none {handle : Handle} (hStale : arena.get? handle = none)
    (change : Value → Value) : arena.modify handle change = arena := by
  rw [modify, hStale]

private theorem modify_eq_self {handle : Handle} {change : Value → Value}
    (hSame : ∀ value, arena.get? handle = some value → change value = value) :
    arena.modify handle change = arena := by
  cases hLive : arena.get? handle with
  | none => exact modify_of_get?_eq_none hLive change
  | some value =>
      obtain ⟨-, hSlot⟩ := get?_eq_some_iff.mp hLive
      obtain ⟨hBound, hContent⟩ := Array.getElem?_eq_some_iff.mp hSlot
      rw [modify_of_get? hLive, hSame value hLive, Array.set!_eq_setIfInBounds,
        Array.setIfInBounds, dif_pos hBound, ← hContent, Array.set_getElem_self]

private theorem modify_modify (handle : Handle) (first second : Value → Value) :
    (arena.modify handle first).modify handle second =
      arena.modify handle fun value => second (first value) := by
  cases hLive : arena.get? handle with
  | none =>
      rw [modify_of_get?_eq_none hLive, modify_of_get?_eq_none hLive,
        modify_of_get?_eq_none hLive]
  | some value =>
      have hChanged : (arena.modify handle first).get? handle = some (first value) := by
        rw [get?_modify, if_pos rfl, hLive]
        rfl
      rw [modify_of_get? hChanged, modify_of_get? hLive, modify_of_get? hLive]
      simp only [Array.set!_eq_setIfInBounds, Array.setIfInBounds_setIfInBounds]

private theorem modify_comm {first second : Handle} (hDifferent : first ≠ second)
    (one two : Value → Value) :
    (arena.modify first one).modify second two = (arena.modify second two).modify first one := by
  have hFirst := get?_modify arena second first two
  have hSecond := get?_modify arena first second one
  rw [if_neg hDifferent] at hFirst
  rw [if_neg hDifferent.symm] at hSecond
  cases hLive : arena.get? first with
  | none =>
      rw [hLive] at hFirst
      rw [modify_of_get?_eq_none hLive, modify_of_get?_eq_none hFirst]
  | some value =>
      cases hOther : arena.get? second with
      | none =>
          rw [hOther] at hSecond
          rw [modify_of_get?_eq_none hOther, modify_of_get?_eq_none hSecond]
      | some other =>
          have hIndex : first.index ≠ second.index := by
            intro hSame
            obtain ⟨-, hSlot⟩ := get?_eq_some_iff.mp hLive
            obtain ⟨-, hPlace⟩ := get?_eq_some_iff.mp hOther
            rw [hSame, hPlace] at hSlot
            have hGeneration := congrArg Slot.generation (Option.some.inj hSlot)
            obtain ⟨index, generation⟩ := first
            obtain ⟨place, era⟩ := second
            simp only at hSame hGeneration
            exact hDifferent (by rw [hSame, hGeneration])
          rw [hLive] at hFirst
          rw [hOther] at hSecond
          rw [modify_of_get? hSecond, modify_of_get? hFirst, modify_of_get? hLive,
            modify_of_get? hOther]
          simp only [Array.set!_eq_setIfInBounds]
          rw [Array.setIfInBounds_comm _ _ hIndex]

end Arena

/-! ### Open cells -/

namespace Store

variable {store : Store} {address : Address} {handle : Handle}

private theorem Open.disclaim_claim (hOpen : store.Open address handle) :
    (store.claim address handle).disclaim address handle = store := by
  have hChunks : (store.space.chunks.set address handle).erase address = store.space.chunks := by
    apply OrderedMap.ext_get?
    intro other
    rw [OrderedMap.get?_erase, OrderedMap.get?_set]
    split
    · rename_i hSame
      rw [hSame, hOpen.vacant]
    · rfl
  have hArena : (store.arena.modify handle fun value => { value with chunk := some address }).modify
      handle (fun value => { value with chunk := none }) = store.arena := by
    rw [Arena.modify_modify]
    apply Arena.modify_eq_self
    intro value hValue
    obtain ⟨found, hFound, hChunk⟩ := hOpen.unplaced
    cases hValue.symm.trans hFound
    rw [← hChunk]
  simp only [disclaim, claim, hChunks, hArena]

private theorem claim_comm {other : Address} {second : Handle}
    (hAddress : address ≠ other) (hHandle : handle ≠ second) :
    (store.claim address handle).claim other second =
      (store.claim other second).claim address handle := by
  have hChunks : (store.space.chunks.set address handle).set other second =
      (store.space.chunks.set other second).set address handle := by
    apply OrderedMap.ext_get?
    intro place
    simp only [OrderedMap.get?_set]
    by_cases hPlace : place = other
    · rw [if_pos hPlace, if_neg (fun hSame => hAddress (hSame.symm.trans hPlace)), if_pos hPlace]
    · rw [if_neg hPlace, if_neg hPlace]
  simp only [claim, hChunks, Arena.modify_comm hHandle]

private theorem open_claim_iff {other : Address} {second : Handle} :
    (store.claim address handle).Open other second ↔
      store.Open other second ∧ other ≠ address ∧ second ≠ handle := by
  have hOwner := OrderedMap.get?_set store.space.chunks address other handle
  have hValue := get?_claim store address handle second
  constructor
  · rintro ⟨hVacant, value, hFound, hChunk⟩
    rw [claim, hOwner] at hVacant
    rw [hValue] at hFound
    obtain ⟨old, hOld, rfl⟩ := Option.map_eq_some_iff.mp hFound
    split at hVacant
    · contradiction
    · rename_i hAddress
      split at hChunk
      · contradiction
      · rename_i hHandle
        exact ⟨⟨hVacant, old, hOld, hChunk⟩, hAddress, hHandle⟩
  · rintro ⟨⟨hVacant, value, hFound, hChunk⟩, hAddress, hHandle⟩
    refine ⟨?_, value, ?_, hChunk⟩
    · rw [claim, hOwner, if_neg hAddress, hVacant]
    · rw [hValue, hFound, Option.map_some, if_neg hHandle]

/-! ### Many cells -/

def claimAll (store : Store) (pairs : List (Address × Handle)) : Store :=
  pairs.foldl (fun store pair => store.claim pair.1 pair.2) store

structure Claimable (store : Store) (pairs : List (Address × Handle)) : Prop where
  opened : ∀ pair ∈ pairs, store.Open pair.1 pair.2
  addresses : (pairs.map Prod.fst).Nodup
  handles : (pairs.map Prod.snd).Nodup

private theorem claimable_nil (store : Store) : store.Claimable [] :=
  ⟨fun _ hMem => absurd hMem List.not_mem_nil, List.nodup_nil, List.nodup_nil⟩

namespace Claimable

variable {pair : Address × Handle} {pairs : List (Address × Handle)}

private theorem tail (hClaimable : store.Claimable (pair :: pairs)) : store.Claimable pairs :=
  ⟨fun other hOther => hClaimable.opened other (List.mem_cons_of_mem pair hOther),
    (List.nodup_cons.mp hClaimable.addresses).2, (List.nodup_cons.mp hClaimable.handles).2⟩

private theorem address_ne (hClaimable : store.Claimable (pair :: pairs)) {other : Address × Handle}
    (hOther : other ∈ pairs) : other.1 ≠ pair.1 := fun hSame =>
  (List.nodup_cons.mp hClaimable.addresses).1 (hSame ▸ List.mem_map_of_mem hOther)

private theorem handle_ne (hClaimable : store.Claimable (pair :: pairs)) {other : Address × Handle}
    (hOther : other ∈ pairs) : other.2 ≠ pair.2 := fun hSame =>
  (List.nodup_cons.mp hClaimable.handles).1 (hSame ▸ List.mem_map_of_mem hOther)

theorem claim_tail (hClaimable : store.Claimable (pair :: pairs)) :
    (store.claim pair.1 pair.2).Claimable pairs := by
  refine ⟨?_, hClaimable.tail.addresses, hClaimable.tail.handles⟩
  intro other hOther
  exact open_claim_iff.mpr
    ⟨hClaimable.tail.opened other hOther, hClaimable.address_ne hOther,
      hClaimable.handle_ne hOther⟩

private theorem skip {next : Address × Handle}
    (hClaimable : store.Claimable (pair :: next :: pairs)) :
    (store.claim next.1 next.2).Claimable (pair :: pairs) := by
  have hWithin := (List.sublist_cons_self next pairs).cons_cons pair
  refine ⟨?_, hClaimable.addresses.sublist (hWithin.map _), hClaimable.handles.sublist
    (hWithin.map _)⟩
  intro other hOther
  apply open_claim_iff.mpr
  rcases List.mem_cons.mp hOther with rfl | hLater
  · exact ⟨hClaimable.opened other List.mem_cons_self,
      (hClaimable.address_ne List.mem_cons_self).symm,
      (hClaimable.handle_ne List.mem_cons_self).symm⟩
  · exact ⟨hClaimable.tail.tail.opened other hLater, hClaimable.tail.address_ne hLater,
      hClaimable.tail.handle_ne hLater⟩

private theorem claimAll_claim (hClaimable : store.Claimable (pair :: pairs)) :
    (store.claim pair.1 pair.2).claimAll pairs = (store.claimAll pairs).claim pair.1 pair.2 := by
  induction pairs generalizing store with
  | nil => rfl
  | cons next rest inductionHypothesis =>
      calc ((store.claim pair.1 pair.2).claim next.1 next.2).claimAll rest
          = ((store.claim next.1 next.2).claim pair.1 pair.2).claimAll rest := by
            rw [claim_comm (hClaimable.address_ne List.mem_cons_self).symm
              (hClaimable.handle_ne List.mem_cons_self).symm]
        _ = ((store.claim next.1 next.2).claimAll rest).claim pair.1 pair.2 :=
            inductionHypothesis hClaimable.skip

private theorem open_claimAll (hClaimable : store.Claimable (pair :: pairs)) :
    (store.claimAll pairs).Open pair.1 pair.2 := by
  induction pairs generalizing store with
  | nil => exact hClaimable.opened pair List.mem_cons_self
  | cons next rest inductionHypothesis => exact inductionHypothesis hClaimable.skip

/-- What is open after some cells are taken was open before and can be taken with them. -/
theorem snoc (hClaimable : store.Claimable pairs)
    (hOpen : (store.claimAll pairs).Open address handle) :
    store.Claimable (pairs ++ [(address, handle)]) := by
  induction pairs generalizing store with
  | nil =>
      refine ⟨?_, List.pairwise_singleton _ _, List.pairwise_singleton _ _⟩
      intro pair hPair
      rw [List.mem_singleton.mp hPair]
      exact hOpen
  | cons first rest inductionHypothesis =>
      have hRest := inductionHypothesis hClaimable.claim_tail hOpen
      have hFirst := hClaimable.opened first List.mem_cons_self
      have hApart : ∀ pair ∈ rest ++ [(address, handle)],
          store.Open pair.1 pair.2 ∧ pair.1 ≠ first.1 ∧ pair.2 ≠ first.2 := fun pair hPair =>
        open_claim_iff.mp (hRest.opened pair hPair)
      refine ⟨?_, ?_, ?_⟩
      · intro pair hPair
        rcases List.mem_cons.mp hPair with rfl | hLater
        · exact hFirst
        · exact (hApart pair hLater).1
      · refine List.nodup_cons.mpr ⟨?_, hRest.addresses⟩
        intro hMem
        obtain ⟨pair, hPair, hSame⟩ := List.mem_map.mp hMem
        exact (hApart pair hPair).2.1 hSame
      · refine List.nodup_cons.mpr ⟨?_, hRest.handles⟩
        intro hMem
        obtain ⟨pair, hPair, hSame⟩ := List.mem_map.mp hMem
        exact (hApart pair hPair).2.2 hSame

end Claimable

structure SameCounts (before after : Store) : Prop where
  layout : after.space.layout = before.space.layout
  scalars : after.space.scalars = before.space.scalars
  arrays : after.space.arrays = before.space.arrays
  oversized : after.space.oversized = before.space.oversized
  heads : after.space.heads = before.space.heads
  described : after.arena.arrays = before.arena.arrays

theorem sameCounts_claimAll (store : Store) (pairs : List (Address × Handle)) :
    SameCounts store (store.claimAll pairs) := by
  induction pairs generalizing store with
  | nil => exact ⟨rfl, rfl, rfl, rfl, rfl, rfl⟩
  | cons pair rest inductionHypothesis =>
      obtain ⟨hLayout, hScalars, hArrays, hOversized, hHeads, hDescribed⟩ :=
        inductionHypothesis (store.claim pair.1 pair.2)
      exact ⟨hLayout, hScalars, hArrays, hOversized, hHeads,
        hDescribed.trans (Arena.arrays_modify _ _ _)⟩

theorem isSome_claimAll_iff (store : Store) (pairs : List (Address × Handle)) (address : Address) :
    ((store.claimAll pairs).space.chunks.get? address).isSome = true ↔
      address ∈ pairs.map Prod.fst ∨ (store.space.chunks.get? address).isSome = true := by
  induction pairs generalizing store with
  | nil => simp [claimAll]
  | cons pair rest inductionHypothesis =>
      have hClaimed : ((store.claim pair.1 pair.2).space.chunks.get? address).isSome = true ↔
          address = pair.1 ∨ (store.space.chunks.get? address).isSome = true := by
        rw [claim, OrderedMap.get?_set]
        split
        · rename_i hSame
          simp [hSame]
        · rename_i hOther
          simp [hOther]
      refine (inductionHypothesis (store.claim pair.1 pair.2)).trans ?_
      rw [hClaimed, List.map_cons, List.mem_cons, or_left_comm, or_assoc]

private theorem claimAll_append (store : Store) (first second : List (Address × Handle)) :
    store.claimAll (first ++ second) = (store.claimAll first).claimAll second :=
  List.foldl_append

/-- The cells of a row from a number on, each with its value. -/
def row (start : Address) (done : Nat) (handles : List Handle) : List (Address × Handle) :=
  (handles.zipIdx done).map fun entry => (start + entry.2.toUInt64, entry.1)

end Store

/-! ### Taking and giving back -/

namespace StoreAction

variable {store : Store} {address : Address} {handle : Handle}

theorem place_refuses_owned {value : Value} (hLive : store.arena.get? handle = some value)
    (hUnplaced : value.chunk = none) (hOwned : (store.space.chunks.get? address).isSome = true) :
    (place address handle).Refuses store (.addressInUse address) := by
  refine (value_gives hLive).refuses (Gives.refuses (.get store) ?_)
  rw [hUnplaced]
  have hRecord : (recordOwner address handle).Refuses store (.addressInUse address) := by
    refine Gives.refuses (.get store) ?_
    simp only [OrderedMap.insert?, OrderedMap.contains, hOwned]
    exact .throw _ store
  exact hRecord.bind _

theorem place_outcome (store : Store) (address : Address) (handle : Handle) :
    (∃ fault, (place address handle).Refuses store fault) ∨ store.Open address handle := by
  cases hLive : store.arena.get? handle with
  | none => exact .inl ⟨_, (value_refuses hLive).bind _⟩
  | some value =>
      cases hChunk : value.chunk with
      | some owned =>
          refine .inl ⟨.alreadyPlaced (store.arena.describe value) owned,
            (value_gives hLive).refuses (Gives.refuses (.get store) ?_)⟩
          rw [hChunk]
          exact .throw _ store
      | none =>
          cases hOwner : store.space.chunks.get? address with
          | none => exact .inr ⟨hOwner, value, hLive, hChunk⟩
          | some owner =>
              exact .inl ⟨_, place_refuses_owned hLive hChunk (Option.isSome_of_eq_some hOwner)⟩

/-- Cells that were taken are given back one after the other. -/
theorem unplaceEach_gives {ι : Type} {items : List ι} {place : ι → Address}
    {pairs : List (Address × Handle)} (hClaimable : store.Claimable pairs)
    (hPlaces : pairs.map Prod.fst = items.map place) :
    (forIn items PUnit.unit fun item _ => do
      unplace (place item)
      Pure.pure (ForInStep.yield PUnit.unit) : StoreAction PUnit).Gives (store.claimAll pairs) ()
      store := by
  induction items generalizing pairs with
  | nil =>
      rw [List.map_nil, List.map_eq_nil_iff] at hPlaces
      subst hPlaces
      exact .pure _ store
  | cons item rest inductionHypothesis =>
      cases pairs with
      | nil => contradiction
      | cons pair pairs =>
          obtain ⟨hFirst, hRest⟩ := List.cons.inj hPlaces
          have hOpen := hClaimable.open_claimAll
          -- the first cell may as well have been taken last, so it can be given back first
          have hTaken : store.claimAll (pair :: pairs) =
              (store.claimAll pairs).claim pair.1 pair.2 := hClaimable.claimAll_claim
          have hBack := hOpen.disclaim_claim
          have hOwner : ((store.claimAll pairs).claim pair.1 pair.2).space.chunks.get? pair.1 =
              some pair.2 := by
            rw [Store.claim, OrderedMap.get?_set, if_pos rfl]
          rw [hTaken, List.forIn_cons, bind_assoc, ← hFirst]
          refine .bind (unplace_gives hOwner) ?_
          rw [hBack, pure_bind]
          exact inductionHypothesis hClaimable.tail hRest

private theorem run_tryCatch_of_refuses {α : Type} {action : StoreAction α} {fault : StoreFault}
    (hRefuses : action.Refuses store fault) (handler : StoreFault → StoreAction α) :
    (tryCatch action handler).run.run store = (handler fault).run.run store := by
  unfold Refuses at hRefuses
  change (ExceptT.tryCatch action handler).run.run store = _
  simp only [ExceptT.tryCatch, ExceptT.run_mk, StateT.run_bind]
  rw [show StateT.run action store = _ from hRefuses]
  rfl

/-- A row of cells is taken for all its values, or what was taken is given back. -/
theorem placeRun_outcome {start : Address} {done : Nat}
    {pairs : List (Address × Handle)} (hClaimable : store.Claimable pairs)
    (hPairs : pairs.map Prod.fst = (List.range done).map fun step => start + step.toUInt64)
    (handles : List Handle) :
    (∃ fault, (placeRun start done handles).run.run (store.claimAll pairs) =
        (.error fault, store)) ∨
      (placeRun start done handles).Gives (store.claimAll pairs) ()
          (store.claimAll (pairs ++ Store.row start done handles)) ∧
        store.Claimable (pairs ++ Store.row start done handles) := by
  induction handles generalizing done pairs with
  | nil =>
      simp only [Store.row, List.zipIdx_nil, List.map_nil, List.append_nil]
      exact .inr ⟨.pure () _, hClaimable⟩
  | cons handle rest inductionHypothesis =>
      rcases place_outcome (store.claimAll pairs) (start + done.toUInt64) handle with
        ⟨fault, hRefuses⟩ | hOpen
      · -- the handler gives back what the calls before this one have taken
        refine .inl ⟨fault, run_bind_of_error ?_ _⟩
        rw [run_tryCatch_of_refuses hRefuses,
          run_bind_of_gives (unplaceEach_gives hClaimable hPairs)]
        rfl
      · have hTaken := Gives.tryCatch (place_gives_of_open hOpen) fun fault => do
          for step in List.range done do
            unplace (start + step.toUInt64)
          throw fault
        have hLonger : (pairs ++ [(start + done.toUInt64, handle)]).map Prod.fst =
            (List.range (done + 1)).map fun step => start + step.toUInt64 := by
          rw [List.map_append, hPairs, List.range_succ, List.map_append]
          rfl
        have hRow : pairs ++ Store.row start done (handle :: rest) =
            pairs ++ [(start + done.toUInt64, handle)] ++ Store.row start (done + 1) rest := by
          rw [List.append_assoc]
          rfl
        have hMore := inductionHypothesis (hClaimable.snoc hOpen) hLonger
        rw [Store.claimAll_append] at hMore
        rw [hRow]
        rcases hMore with ⟨fault, hFails⟩ | ⟨hGives, hRest⟩
        · refine .inl ⟨fault, ?_⟩
          rw [placeRun, run_bind_of_gives hTaken]
          exact hFails
        · exact .inr ⟨hTaken.bind hGives, hRest⟩

/-- A run of loop cells is taken for all values, or nothing is changed. -/
theorem allocateRun_outcome (store : Store) (segment : Segment) (handles : List Handle) :
    (∃ fault, (allocateRun segment handles).Refuses store fault) ∨
      ∃ start, (allocateRun segment handles).Gives store start
          (store.claimAll (Store.row start 0 handles)) ∧
        store.Claimable (Store.row start 0 handles) ∧ segment = .loop ∧
        Space.findRun store.space.chunks store.space.layout.loop handles.length.toUInt64
          (store.space.chunks.size + 1) store.space.layout.loop.first = some start := by
  by_cases hSegment : segment = .loop
  case neg =>
    refine .inl ⟨.runOutsideLoop segment, ?_⟩
    unfold allocateRun
    rw [if_pos hSegment]
    rfl
  subst hSegment
  by_cases hEmpty : handles = []
  case pos =>
    rw [hEmpty]
    exact .inl ⟨.emptyRun, rfl⟩
  cases hFound : Space.findRun store.space.chunks store.space.layout.loop
      handles.length.toUInt64 (store.space.chunks.size + 1) store.space.layout.loop.first with
  | none => exact .inl ⟨_, allocateRun_refuses_of_findRun hEmpty hFound⟩
  | some start =>
      rcases @placeRun_outcome store start 0 [] store.claimable_nil rfl handles with
        ⟨fault, hFails⟩ | ⟨hGives, hClaimable⟩
      · have hSome : handles.isEmpty = false := by simpa using hEmpty
        refine .inl ⟨fault, ?_⟩
        unfold allocateRun
        simp only [ne_eq, not_true_eq_false, if_false, hSome, Bool.false_eq_true]
        refine Gives.refuses (.get store) ?_
        simp only [hFound]
        exact run_bind_of_error hFails _
      · exact .inr ⟨start, allocateRun_gives_of_findRun hEmpty hFound hGives, hClaimable, rfl, rfl⟩

end StoreAction

end RegisterCompiler
