/-
Cells and values that own each other.

A store is apportioned when a cell has an owner exactly if the owner names the cell, the counters
stay within their segments, and an array names the cell of its head exactly while that cell is
listed as a head.  Every call that gives cells away or takes them back keeps a store apportioned
or fails and changes nothing.
-/

import RegisterCompiler.Proofs.Store.Claims
import RegisterCompiler.Proofs.Store.Placing

set_option autoImplicit false

namespace RegisterCompiler

private theorem Arena.lt_size_of_ne_default {arena : Arena} {ref : ArrayRef}
    (hDescribed : arena.array ref ≠ default) : ref < arena.arrays.size := by
  apply Classical.byContradiction
  intro hOutside
  apply hDescribed
  rw [array, Array.getD_eq_getD_getElem?, Array.getElem?_eq_none (Nat.not_lt.mp hOutside)]
  rfl

namespace Store

/-- Cells and values that own each other, counters within their segments, and arrays whose heads
are listed. -/
structure Apportioned (store : Store) : Prop where
  arena : store.arena.WellFormed
  layout : store.space.layout.Ordered
  owners : ∀ address handle, store.space.chunks.get? address = some handle ↔
    (store.arena.get? handle).bind Value.chunk = some address
  scalars : store.space.scalars.toNat ≤ store.space.layout.scalars.size.toNat
  arrays : store.space.arrays.toNat ≤ store.space.layout.arrays.size.toNat
  heads : ∀ address ref, store.space.heads.get? address = some ref ↔
    (store.arena.array ref).chunk = some address
  headed : ∀ address ref, store.space.heads.get? address = some ref →
    store.space.layout.arrays.contains address = true ∧
      (store.space.chunks.get? address).isSome = true ∧
      (store.arena.array ref).base = some address.toNat ∧
      (store.arena.array ref).length ≤ store.space.layout.arrays.size.toNat

theorem apportioned_empty {layout : Layout} (hValid : layout.fault? = none) (registers : Nat) :
    (Store.empty layout registers).Apportioned where
  arena := Arena.wellFormed_empty
  layout := Layout.ordered_of_fault? hValid
  owners := fun address handle => by simp [Store.empty, Arena.empty, Arena.get?]
  scalars := Nat.zero_le _
  arrays := Nat.zero_le _
  heads := fun address ref => by
    have hDescribed : ((Store.empty layout registers).arena.array ref).chunk = none := by
      simp only [Store.empty, Arena.empty, Arena.array, Array.getD_eq_getD_getElem?]
      rfl
    rw [hDescribed]
    simp [Store.empty]
  headed := fun address ref hHead => by simp [Store.empty] at hHead

namespace Apportioned

variable {store : Store} {address : Address} {handle : Handle}

theorem setArena (hStore : store.Apportioned) {arena : Arena} (hWell : arena.WellFormed)
    (hChunks : ∀ handle, (arena.get? handle).bind Value.chunk =
      (store.arena.get? handle).bind Value.chunk)
    (hPlaces : ∀ ref, (arena.array ref).chunk = (store.arena.array ref).chunk)
    (hHeads : ∀ address ref, store.space.heads.get? address = some ref →
      (arena.array ref).base = (store.arena.array ref).base ∧
        (arena.array ref).length = (store.arena.array ref).length) :
    Apportioned { store with arena := arena } where
  arena := hWell
  layout := hStore.layout
  owners := fun address handle => by rw [hChunks]; exact hStore.owners address handle
  scalars := hStore.scalars
  arrays := hStore.arrays
  heads := fun address ref => by rw [hPlaces]; exact hStore.heads address ref
  headed := fun address ref hHead => by
    obtain ⟨hBase, hLength⟩ := hHeads address ref hHead
    rw [hBase, hLength]
    exact hStore.headed address ref hHead

private theorem recount (hStore : store.Apportioned) {scalars arrays : UInt64} {oversized : Nat}
    (hScalars : scalars.toNat ≤ store.space.layout.scalars.size.toNat)
    (hArrays : arrays.toNat ≤ store.space.layout.arrays.size.toNat) :
    Apportioned { store with space := { store.space with
      scalars := scalars
      arrays := arrays
      oversized := oversized } } :=
  ⟨hStore.arena, hStore.layout, hStore.owners, hScalars, hArrays, hStore.heads,
    hStore.headed⟩

theorem claim (hStore : store.Apportioned) (hOpen : store.Open address handle) :
    (store.claim address handle).Apportioned where
  arena := Arena.wellFormed_modify hStore.arena _ _
  layout := hStore.layout
  owners := by
    intro place other
    obtain ⟨value, hLive, hChunk⟩ := hOpen.unplaced
    have hOwners := hStore.owners place other
    rw [get?_claim]
    simp only [Store.claim, OrderedMap.get?_set]
    by_cases hOther : other = handle
    · subst hOther
      rw [hLive, Option.bind_some, hChunk] at hOwners
      simp only [hLive, Option.map_some, if_true, Option.bind_some, Option.some.injEq]
      by_cases hPlace : place = address
      · simp [hPlace]
      · rw [if_neg hPlace, hOwners]
        simp [Ne.symm hPlace]
    · simp only [hOther, if_false, Option.map_id']
      by_cases hPlace : place = address
      · rw [if_pos hPlace, ← hOwners, hPlace, hOpen.vacant]
        simp [Ne.symm hOther]
      · rw [if_neg hPlace, hOwners]
  scalars := hStore.scalars
  arrays := hStore.arrays
  heads := by
    intro place ref
    simp only [Store.claim, Arena.array, Arena.arrays_modify]
    exact hStore.heads place ref
  headed := by
    intro place ref hHead
    obtain ⟨hInside, hOwned, hRest⟩ := hStore.headed place ref hHead
    simp only [Store.claim, Arena.array, Arena.arrays_modify, OrderedMap.get?_set]
    refine ⟨hInside, ?_, hRest⟩
    split
    · rfl
    · exact hOwned

theorem claimAll (hStore : store.Apportioned) {pairs : List (Address × Handle)}
    (hClaimable : store.Claimable pairs) : (store.claimAll pairs).Apportioned := by
  induction pairs generalizing store with
  | nil => exact hStore
  | cons pair rest inductionHypothesis =>
      exact inductionHypothesis (hStore.claim (hClaimable.opened pair List.mem_cons_self))
        hClaimable.claim_tail

theorem lt_size_of_head (hStore : store.Apportioned) {ref : ArrayRef}
    (hHead : store.space.heads.get? address = some ref) : ref < store.arena.arrays.size := by
  apply Arena.lt_size_of_ne_default
  intro hDefault
  have hChunk := (hStore.heads address ref).mp hHead
  rw [hDefault] at hChunk
  contradiction

private theorem head_ne (hStore : store.Apportioned) {ref : ArrayRef}
    (hUnplaced : (store.arena.array ref).base = none) (address : Address) :
    store.space.heads.get? address ≠ some ref := by
  intro hHead
  obtain ⟨-, -, hBase, -⟩ := hStore.headed address ref hHead
  rw [hUnplaced] at hBase
  contradiction

private theorem setHead (hStore : store.Apportioned) {ref : ArrayRef}
    (hInside : store.space.layout.arrays.contains address = true)
    (hOwned : (store.space.chunks.get? address).isSome = true)
    (hNew : store.space.heads.get? address = none) (hBound : ref < store.arena.arrays.size)
    (hUnplaced : (store.arena.array ref).base = none)
    (hFits : (store.arena.array ref).length ≤ store.space.layout.arrays.size.toNat) :
    Apportioned { store with
      space := { store.space with heads := store.space.heads.set address ref }
      arena := store.arena.modifyArray ref fun info => { info with
        base := some address.toNat
        kind := .native
        chunk := some address } } where
  arena := Arena.wellFormed_modifyArray hStore.arena _ _
  layout := hStore.layout
  owners := hStore.owners
  scalars := hStore.scalars
  arrays := hStore.arrays
  heads := by
    intro place other
    have hHeads := hStore.heads place other
    simp only [OrderedMap.get?_set, Arena.array_modifyArray _ _ _ _ hBound]
    by_cases hOther : other = ref
    · subst hOther
      simp only [if_true, Option.some.injEq]
      by_cases hPlace : place = address
      · simp [hPlace]
      · rw [if_neg hPlace]
        simp [Ne.symm hPlace, hStore.head_ne hUnplaced place]
    · simp only [hOther, if_false]
      by_cases hPlace : place = address
      · rw [if_pos hPlace, ← hHeads, hPlace, hNew]
        simp [Ne.symm hOther]
      · rw [if_neg hPlace, hHeads]
  headed := by
    intro place other hHead
    simp only [OrderedMap.get?_set, Arena.array_modifyArray _ _ _ _ hBound] at hHead ⊢
    by_cases hPlace : place = address
    · rw [if_pos hPlace] at hHead
      obtain rfl := Option.some.inj hHead
      simp only [if_true, hPlace]
      exact ⟨hInside, hOwned, trivial, hFits⟩
    · rw [if_neg hPlace] at hHead
      have hOther : other ≠ ref := by
        rintro rfl
        exact hStore.head_ne hUnplaced place hHead
      simp only [hOther, if_false]
      exact hStore.headed place other hHead

private theorem setBase (hStore : store.Apportioned) {ref : ArrayRef}
    (hUnplaced : (store.arena.array ref).base = none) (hBound : ref < store.arena.arrays.size)
    (base : Nat) : Apportioned { store with
      arena := store.arena.modifyArray ref fun info => { info with
        base := some base
        kind := .big } } := by
  refine hStore.setArena (Arena.wellFormed_modifyArray hStore.arena _ _) (fun _ => rfl) ?_ ?_
  · intro other
    rw [Arena.array_modifyArray _ _ _ _ hBound]
    split
    · rename_i hSame
      rw [hSame]
    · rfl
  · intro address other hHead
    have hOther : other ≠ ref := by
      rintro rfl
      exact hStore.head_ne hUnplaced address hHead
    rw [Arena.array_modifyArray _ _ _ _ hBound, if_neg hOther]
    exact ⟨rfl, rfl⟩

end Apportioned

/-! ### Giving back -/

/-- The number of cells that an address stands for: those of the array whose head is there, or
one. -/
def cellsAt (store : Store) (address : Address) : Nat :=
  match store.space.heads.get? address with
  | some ref => (store.arena.array ref).length.toNat
  | none => 1

theorem cellsAt_congr {before after : Store} {address : Address}
    (hHeads : after.space.heads.get? address = before.space.heads.get? address)
    (hLengths : ∀ ref, before.space.heads.get? address = some ref →
      (after.arena.array ref).length = (before.arena.array ref).length) :
    after.cellsAt address = before.cellsAt address := by
  unfold cellsAt
  rw [hHeads]
  split
  · rename_i ref hHead
    rw [hLengths ref hHead]
  · rfl

/-- What counting the cells of an address off does: the counter of their segment goes down, and the
array whose head is there loses it. -/
structure CountsOff (address : Address) (before after : Store) : Prop where
  layout : after.space.layout = before.space.layout
  scalars : after.space.scalars.toNat =
    if before.space.layout.scalars.contains address then before.space.scalars.toNat - 1
    else before.space.scalars.toNat
  arrays : after.space.arrays.toNat =
    if before.space.layout.arrays.contains address then
      before.space.arrays.toNat - before.cellsAt address
    else before.space.arrays.toNat
  oversized : after.space.oversized = before.space.oversized
  heads : ∀ other, after.space.heads.get? other =
    if other = address then none else before.space.heads.get? other
  described : ∀ ref, after.arena.array ref =
    if before.space.heads.get? address = some ref then
      { before.arena.array ref with chunk := none }
    else before.arena.array ref

/-- What taking a cell back does: its owner is destroyed and its cells are counted off. -/
structure Frees (address : Address) (handle : Handle) (before after : Store) : Prop
    extends CountsOff address before after where
  wellFormed : after.arena.WellFormed
  values : ∀ other, after.arena.get? other =
    if other = handle then none else before.arena.get? other
  chunks : after.space.chunks = before.space.chunks.erase address

private theorem Frees.owners_iff {address : Address} {handle : Handle} {before after : Store}
    (hFrees : Frees address handle before after) (hBefore : before.Apportioned)
    (hOwner : before.space.chunks.get? address = some handle) (place : Address) (other : Handle) :
    after.space.chunks.get? place = some other ↔
      (after.arena.get? other).bind Value.chunk = some place := by
  have hNamed := (hBefore.owners address handle).mp hOwner
  have hOwners := hBefore.owners place other
  rw [hFrees.chunks, hFrees.values, OrderedMap.get?_erase]
  by_cases hPlace : place = address
  · rw [if_pos hPlace]
    split
    · simp
    · rename_i hOther
      rw [← hOwners, hPlace, hOwner]
      simp [Ne.symm hOther]
  · rw [if_neg hPlace, hOwners]
    split
    · rename_i hOther
      rw [hOther, hNamed]
      simp [Ne.symm hPlace]
    · exact Iff.rfl

private theorem CountsOff.heads_iff {address : Address} {before after : Store}
    (hOff : CountsOff address before after) (hBefore : before.Apportioned) (place : Address)
    (ref : ArrayRef) :
    after.space.heads.get? place = some ref ↔ (after.arena.array ref).chunk = some place := by
  have hHeads := hBefore.heads place ref
  rw [hOff.heads, hOff.described]
  by_cases hHead : before.space.heads.get? address = some ref
  · have hHere := (hBefore.heads address ref).mp hHead
    rw [hHere, Option.some.injEq] at hHeads
    rw [if_pos hHead]
    by_cases hPlace : place = address
    · rw [if_pos hPlace]
      simp
    · rw [if_neg hPlace, hHeads]
      simp [Ne.symm hPlace]
  · rw [if_neg hHead, ← hHeads]
    by_cases hPlace : place = address
    · rw [if_pos hPlace, hPlace]
      simp [hHead]
    · rw [if_neg hPlace]

theorem Frees.apportioned {address : Address} {handle : Handle} {before after : Store}
    (hFrees : Frees address handle before after) (hBefore : before.Apportioned)
    (hOwner : before.space.chunks.get? address = some handle) : after.Apportioned := by
  constructor
  · exact hFrees.wellFormed
  · rw [hFrees.layout]
    exact hBefore.layout
  · exact hFrees.owners_iff hBefore hOwner
  · rw [hFrees.scalars, hFrees.layout]
    have hScalars := hBefore.scalars
    split <;> omega
  · rw [hFrees.arrays, hFrees.layout]
    have hArrays := hBefore.arrays
    split <;> omega
  · exact hFrees.toCountsOff.heads_iff hBefore
  · intro place ref hHead
    rw [hFrees.heads] at hHead
    split at hHead
    · contradiction
    · rename_i hPlace
      obtain ⟨hInside, hOwned, hBase, hLength⟩ := hBefore.headed place ref hHead
      rw [hFrees.layout, hFrees.chunks, hFrees.described, OrderedMap.get?_erase, if_neg hPlace]
      refine ⟨hInside, hOwned, ?_, ?_⟩
      · split <;> exact hBase
      · split <;> exact hLength

inductive FreesEach : List Address → Store → Store → Prop where
  | nil (store : Store) : FreesEach [] store store
  | cons {address : Address} {rest : List Address} {before middle after : Store} {handle : Handle}
      (hOwner : before.space.chunks.get? address = some handle)
      (hFirst : Frees address handle before middle) (hRest : FreesEach rest middle after) :
      FreesEach (address :: rest) before after

theorem FreesEach.apportioned {addresses : List Address} {before after : Store}
    (hFrees : FreesEach addresses before after) (hBefore : before.Apportioned) :
    after.Apportioned := by
  induction hFrees with
  | nil store => exact hBefore
  | cons hOwner hFirst _ inductionHypothesis =>
      exact inductionHypothesis (hFirst.apportioned hBefore hOwner)

end Store

namespace AddressRange

theorem contains_iff {range : AddressRange} {address : Address} :
    range.contains address = true ↔
      range.first.toNat ≤ address.toNat ∧ address.toNat ≤ range.last.toNat := by
  rw [contains, Bool.and_eq_true, decide_eq_true_iff, decide_eq_true_iff, UInt64.le_iff_toNat_le,
    UInt64.le_iff_toNat_le]

end AddressRange

namespace StoreAction

open Store (Apportioned CountsOff Frees FreesEach)

variable {store : Store} {address : Address} {handle : Handle}

private theorem toNat_count_off (counter count : UInt64) :
    (if count ≤ counter then counter - count else 0).toNat = counter.toNat - count.toNat := by
  split
  · rename_i hEnough
    rw [UInt64.toNat_sub_of_le _ _ hEnough]
  · rename_i hShort
    rw [UInt64.le_iff_toNat_le] at hShort
    have hZero : (0 : UInt64).toNat = 0 := rfl
    omega

private theorem countsOff_outside (hStore : store.Apportioned)
    (hOutside : store.space.layout.arrays.contains address = false) {scalars : UInt64}
    (hScalars : scalars.toNat =
      if store.space.layout.scalars.contains address then store.space.scalars.toNat - 1
      else store.space.scalars.toNat) :
    CountsOff address store
      { store with space := { store.space with scalars := scalars } } := by
  have hHeadless : store.space.heads.get? address = none := by
    rw [Option.eq_none_iff_forall_ne_some]
    intro ref hHead
    rw [(hStore.headed address ref hHead).1] at hOutside
    contradiction
  refine ⟨rfl, hScalars, by rw [hOutside]; rfl, rfl, ?_, ?_⟩
  · intro other
    split
    · rename_i hSame
      rw [hSame]
      exact hHeadless
    · rfl
  · intro ref
    rw [hHeadless]
    rfl

def Recounts (address : Address) (before after : Store) : Prop :=
  CountsOff address before after ∧
    after.arena = { before.arena with arrays := after.arena.arrays } ∧
    after.space.chunks = before.space.chunks

private theorem uncount_gives_outside (hStore : store.Apportioned)
    (hOutside : store.space.layout.arrays.contains address = false) :
    ∃ after, (uncount address).Gives store () after ∧ Recounts address store after := by
  cases hScalars : store.space.layout.scalars.contains address with
  | true =>
      have hOne : (1 : UInt64).toNat = 1 := rfl
      have hLess : (if 0 < store.space.scalars then store.space.scalars - 1 else 0).toNat =
          store.space.scalars.toNat - 1 := by
        split
        · rename_i hSome
          rw [UInt64.lt_iff_toNat_lt] at hSome
          rw [UInt64.toNat_sub_of_le _ _ (UInt64.le_iff_toNat_le.mpr (by omega)), hOne]
        · rename_i hNone
          rw [UInt64.lt_iff_toNat_lt] at hNone
          have hZero : (0 : UInt64).toNat = 0 := rfl
          omega
      refine ⟨{ store with space := { store.space with
        scalars := if 0 < store.space.scalars then store.space.scalars - 1 else 0 } }, ?_,
        countsOff_outside hStore hOutside (by rw [hScalars, if_pos rfl]; exact hLess), rfl, rfl⟩
      refine .bind (.get store) ?_
      simp only [hScalars, if_true]
      exact .modify _ store
  | false =>
      refine ⟨store, ?_, countsOff_outside hStore hOutside (by rw [hScalars]; rfl), rfl, rfl⟩
      refine .bind (.get store) ?_
      simp only [hScalars, hOutside, Bool.false_eq_true, if_false]
      exact .pure () store

private theorem uncount_gives_inside (hStore : store.Apportioned)
    (hInside : store.space.layout.arrays.contains address = true) :
    ∃ after, (uncount address).Gives store () after ∧ Recounts address store after := by
  have hScalars : store.space.layout.scalars.contains address = false := by
    have hMiddle := hStore.layout.scalarsArrays
    rw [← Bool.not_eq_true, AddressRange.contains_iff]
    rw [AddressRange.contains_iff] at hInside
    omega
  cases hHead : store.space.heads.get? address with
  | none =>
      refine ⟨{ store with space := { store.space with
        heads := store.space.heads.erase address
        arrays := if 1 ≤ store.space.arrays then store.space.arrays - 1 else 0 } }, ?_,
        ⟨rfl, by rw [hScalars]; rfl, ?_, rfl, ?_, ?_⟩, rfl, rfl⟩
      · refine .bind (.get store) ?_
        simp only [hScalars, hInside, Bool.false_eq_true, if_false, if_true, hHead]
        exact .modify _ store
      · rw [hInside, if_pos rfl, Store.cellsAt, hHead]
        exact toNat_count_off store.space.arrays 1
      · exact OrderedMap.get?_erase store.space.heads address
      · intro ref
        rw [hHead]
        rfl
  | some ref =>
      have hBound := hStore.lt_size_of_head hHead
      have hCount : (store.arena.array ref).length.toNat.toUInt64.toNat =
          (store.arena.array ref).length.toNat := by
        have hLength := (hStore.headed address ref hHead).2.2.2
        have hLimit := store.space.layout.arrays.size.toNat_lt
        rw [Nat.toUInt64, UInt64.toNat_ofNat']
        omega
      refine ⟨{ store with
        arena := store.arena.modifyArray ref fun info => { info with chunk := none }
        space := { store.space with
          heads := store.space.heads.erase address
          arrays := if (store.arena.array ref).length.toNat.toUInt64 ≤ store.space.arrays then
            store.space.arrays - (store.arena.array ref).length.toNat.toUInt64 else 0 } }, ?_,
        ⟨rfl, by rw [hScalars]; rfl, ?_, rfl, ?_, ?_⟩, rfl, rfl⟩
      · refine .bind (.get store) ?_
        simp only [hScalars, hInside, Bool.false_eq_true, if_false, if_true, hHead]
        exact .bind (.modify _ store) (.modify _ _)
      · rw [hInside, if_pos rfl, Store.cellsAt, hHead, toNat_count_off, hCount]
      · exact OrderedMap.get?_erase store.space.heads address
      · intro other
        rw [Arena.array_modifyArray _ _ _ _ hBound, hHead]
        by_cases hSame : other = ref
        · rw [if_pos hSame, if_pos (congrArg some hSame.symm), hSame]
        · rw [if_neg hSame, if_neg fun hEqual => hSame (Option.some.inj hEqual).symm]

private theorem uncount_gives (hStore : store.Apportioned) (address : Address) :
    ∃ after, (uncount address).Gives store () after ∧ Recounts address store after := by
  cases hArrays : store.space.layout.arrays.contains address with
  | false => exact uncount_gives_outside hStore hArrays
  | true => exact uncount_gives_inside hStore hArrays

theorem freeAt_frees (hStore : store.Apportioned)
    (hOwner : store.space.chunks.get? address = some handle) :
    ∃ value after, (freeAt address).Gives store value after ∧
      Frees address handle store after := by
  obtain ⟨middle, hUncount, hCounts, hArena, hChunks⟩ := uncount_gives hStore address
  obtain ⟨value, hLive, -⟩ := Option.bind_eq_some_iff.mp ((hStore.owners address handle).mp hOwner)
  have hGet : ∀ other, middle.arena.get? other = store.arena.get? other := by
    intro other
    rw [hArena]
    rfl
  have hWell : middle.arena.WellFormed := by
    rw [hArena]
    exact ⟨hStore.arena.nodup, hStore.arena.empty, hStore.arena.used⟩
  have hDisclaimed : (middle.disclaim address handle).arena.get? handle =
      some { value with chunk := none } := by
    rw [Store.get?_disclaim, hGet, hLive, Option.map_some, if_pos rfl]
  obtain ⟨arena, hFree, hAfter, hArrays, hValues⟩ := Arena.free?_of_get?
    (Arena.wellFormed_modify hWell handle fun value => { value with chunk := none }) hDisclaimed
  have hUnplace : (unplace address).Gives middle () (middle.disclaim address handle) :=
    unplace_gives (by rw [hChunks]; exact hOwner)
  refine ⟨{ value with chunk := none }, { middle.disclaim address handle with arena := arena },
    .bind (.get store) ?_,
    ⟨⟨hCounts.layout, hCounts.scalars, hCounts.arrays, hCounts.oversized, hCounts.heads, ?_⟩,
      hAfter, ?_, congrArg (OrderedMap.erase · address) hChunks⟩⟩
  · rw [hOwner]
    exact hUncount.bind (hUnplace.bind (free_gives hFree))
  · intro ref
    rw [← hCounts.described]
    exact Arena.array_congr (hArrays.trans (Arena.arrays_modify _ _ _)) ref
  · intro other
    rw [hValues]
    split
    · rfl
    · rename_i hOther
      change (middle.disclaim address handle).arena.get? other = _
      rw [Store.get?_disclaim, hGet]
      simp [hOther]

theorem freeAt_refuses (hFree : store.space.chunks.get? address = none) :
    (freeAt address).Refuses store (.unknownAddress address) := by
  refine Gives.refuses (.get store) ?_
  rw [hFree]
  exact .throw _ store

private theorem freeCells_run {addresses : List Address} (hStore : store.Apportioned)
    (hOwned : ∀ address ∈ addresses, (store.space.chunks.get? address).isSome = true)
    (hNodup : addresses.Nodup) (done : Nat) :
    ∃ after, (freeCells done addresses).run store = ((done + addresses.length, none), after) ∧
      FreesEach addresses store after := by
  induction addresses generalizing store done with
  | nil => exact ⟨store, rfl, .nil store⟩
  | cons address rest inductionHypothesis =>
      obtain ⟨handle, hOwner⟩ := Option.isSome_iff_exists.mp (hOwned address List.mem_cons_self)
      obtain ⟨value, middle, hGives, hFrees⟩ := freeAt_frees hStore hOwner
      obtain ⟨hNew, hRest⟩ := List.nodup_cons.mp hNodup
      have hStill : ∀ other ∈ rest, (middle.space.chunks.get? other).isSome = true := by
        intro other hOther
        have hDifferent : other ≠ address := fun hSame => hNew (hSame ▸ hOther)
        rw [hFrees.chunks, OrderedMap.get?_erase, if_neg hDifferent]
        exact hOwned other (List.mem_cons_of_mem address hOther)
      obtain ⟨after, hRun, hEach⟩ :=
        inductionHypothesis (hFrees.apportioned hStore hOwner) hStill hRest (done + 1)
      refine ⟨after, ?_, .cons hOwner hFrees hEach⟩
      unfold freeCells
      rw [StateT.run_bind, show StateT.run (freeAt address).run store = _ from hGives]
      rw [List.length_cons, ← Nat.add_assoc, Nat.add_right_comm]
      exact hRun

def loopCells (store : Store) : List Address :=
  (store.space.chunks.range store.space.layout.loop.first store.space.layout.loop.last).map Prod.fst

theorem mem_loopCells_iff :
    address ∈ loopCells store ↔ (store.space.chunks.get? address).isSome = true ∧
      store.space.layout.loop.contains address = true := by
  simp only [loopCells, List.mem_map, Prod.exists, exists_and_right, exists_eq_right,
    OrderedMap.mem_range_iff, OrderedMap.mem_entries_iff, Option.isSome_iff_exists,
    AddressRange.contains, Bool.and_eq_true, decide_eq_true_iff]

theorem freeLoopCells_frees (hStore : store.Apportioned) :
    ∃ after, freeLoopCells.run store = (((loopCells store).length, none), after) ∧
      FreesEach (loopCells store) store after := by
  have hNodup : (loopCells store).Nodup := by
    refine List.pairwise_map.mpr (List.Pairwise.filter _ (store.space.chunks.ascending.imp ?_))
    intro first second hLess hSame
    rw [hSame, Std.compare_eq_iff_eq.mpr rfl] at hLess
    contradiction
  obtain ⟨after, hRun, hEach⟩ := freeCells_run hStore
    (fun address hAddress => (mem_loopCells_iff.mp hAddress).1) hNodup 0
  rw [Nat.zero_add] at hRun
  exact ⟨after, hRun, hEach⟩

end StoreAction

/-! ### Giving away -/

namespace AddressRange

theorem toNat_first_add_of_lt_size {range : AddressRange} (hFirst : 0 < range.first.toNat)
    (hOrder : range.first.toNat ≤ range.last.toNat) {count : UInt64}
    (hRoom : count.toNat < range.size.toNat) :
    (range.first + count).toNat = range.first.toNat + count.toNat ∧
      (range.first + count).toNat ≤ range.last.toNat := by
  have hSize := toNat_size hFirst hOrder
  have hLast := range.last.toNat_lt
  rw [UInt64.toNat_add]
  omega

end AddressRange

namespace Store

variable {store : Store} {address : Address} {handle : Handle}

def countUp (store : Store) (segment : Segment) : Store :=
  { store with space :=
      if segment = .arrays then { store.space with arrays := store.space.arrays + 1 }
      else { store.space with scalars := store.space.scalars + 1 } }

def placeNative (store : Store) (ref : ArrayRef) (head : Handle) : Store :=
  let address := store.space.layout.arrays.first + store.space.arrays
  let claimed := store.claim address head
  { claimed with
    space := { claimed.space with
      arrays := store.space.arrays + (store.arena.array ref).length.toNat.toUInt64
      heads := store.space.heads.set address ref }
    arena := claimed.arena.modifyArray ref fun info => { info with
      base := some address.toNat
      kind := .native
      chunk := some address } }

def placeBig (store : Store) (ref : ArrayRef) : Store :=
  { store with
    space := { store.space with
      oversized := store.space.oversized + (store.arena.array ref).length.toNat }
    arena := store.arena.modifyArray ref fun info => { info with
      base := some (store.space.layout.oversizedStart + store.space.oversized)
      kind := .big } }

theorem next?_eq_some {space : Space} {segment : Segment}
    (hNext : space.next? segment = some address) :
    (segment = .scalars ∧ space.scalars < space.layout.scalars.size ∧
        address = space.layout.scalars.first + space.scalars) ∨
      (segment = .arrays ∧ space.arrays < space.layout.arrays.size ∧
        address = space.layout.arrays.first + space.arrays) := by
  unfold Space.next? at hNext
  split at hNext
  · split at hNext
    · contradiction
    · rename_i hRoom
      exact .inl ⟨rfl, UInt64.not_le.mp hRoom, (Option.some.inj hNext).symm⟩
  · split at hNext
    · contradiction
    · rename_i hRoom
      exact .inr ⟨rfl, UInt64.not_le.mp hRoom, (Option.some.inj hNext).symm⟩
  · contradiction
  · contradiction
  · contradiction

theorem toNat_add_one {counter size : UInt64} (hRoom : counter < size) :
    (counter + 1).toNat = counter.toNat + 1 := by
  have hLimit := size.toNat_lt
  have hOne : (1 : UInt64).toNat = 1 := rfl
  rw [UInt64.lt_iff_toNat_lt] at hRoom
  rw [UInt64.toNat_add]
  omega

structure Fits (store : Store) (ref : ArrayRef) : Prop where
  positive : 0 < (store.arena.array ref).length
  room : store.space.arrays.toNat + (store.arena.array ref).length.toNat ≤
    store.space.layout.arrays.size.toNat

theorem lt_size_of_length {ref : ArrayRef} (hPositive : 0 < (store.arena.array ref).length) :
    ref < store.arena.arrays.size := by
  apply Arena.lt_size_of_ne_default
  intro hDefault
  rw [hDefault] at hPositive
  contradiction

theorem Fits.toNat_arrays {ref : ArrayRef} (hFits : store.Fits ref) :
    (store.space.arrays + (store.arena.array ref).length.toNat.toUInt64).toNat =
      store.space.arrays.toNat + (store.arena.array ref).length.toNat := by
  have hRoom := hFits.room
  have hLimit := store.space.layout.arrays.size.toNat_lt
  rw [UInt64.toNat_add, Nat.toUInt64, UInt64.toNat_ofNat']
  omega

private theorem Fits.checks {ref : ArrayRef} (hFits : store.Fits ref) (hStore : store.Apportioned) :
    ¬(store.arena.array ref).length ≤ 0 ∧
      (store.arena.array ref).length ≤ store.space.layout.arrays.size.toNat ∧
      ¬store.space.layout.arrays.size - store.space.arrays <
        (store.arena.array ref).length.toNat.toUInt64 := by
  have hPositive := hFits.positive
  have hRoom := hFits.room
  have hLimit := store.space.layout.arrays.size.toNat_lt
  refine ⟨by omega, by omega, ?_⟩
  rw [UInt64.lt_iff_toNat_lt,
    UInt64.toNat_sub_of_le _ _ (UInt64.le_iff_toNat_le.mpr hStore.arrays), Nat.toUInt64,
    UInt64.toNat_ofNat']
  omega

namespace Apportioned

theorem countUp (hStore : store.Apportioned) {segment : Segment}
    (hNext : (store.space.next? segment).isSome = true) : (store.countUp segment).Apportioned := by
  obtain ⟨address, hNext⟩ := Option.isSome_iff_exists.mp hNext
  rcases next?_eq_some hNext with ⟨rfl, hRoom, -⟩ | ⟨rfl, hRoom, -⟩
  · refine hStore.recount ?_ hStore.arrays
    rw [toNat_add_one hRoom]
    exact UInt64.lt_iff_toNat_lt.mp hRoom
  · refine hStore.recount hStore.scalars ?_
    rw [toNat_add_one hRoom]
    exact UInt64.lt_iff_toNat_lt.mp hRoom

theorem placeNative (hStore : store.Apportioned) {ref : ArrayRef} {head : Handle}
    (hFits : store.Fits ref) (hUnplaced : (store.arena.array ref).base = none)
    (hOpen : store.Open (store.space.layout.arrays.first + store.space.arrays) head) :
    (store.placeNative ref head).Apportioned := by
  have hPositive := hFits.positive
  have hRoom := hFits.room
  have hPlace := AddressRange.toNat_first_add_of_lt_size
    (Nat.zero_lt_of_lt hStore.layout.scalarsArrays) hStore.layout.arrays
    (show store.space.arrays.toNat < _ by omega)
  have hCounted : (store.space.arrays + (store.arena.array ref).length.toNat.toUInt64).toNat ≤
      store.space.layout.arrays.size.toNat := by
    rw [hFits.toNat_arrays]
    exact hRoom
  have hClaimed : Apportioned { store.claim (store.space.layout.arrays.first + store.space.arrays)
      head with space := { (store.claim (store.space.layout.arrays.first + store.space.arrays)
        head).space with
          arrays := store.space.arrays + (store.arena.array ref).length.toNat.toUInt64 } } :=
    (hStore.claim hOpen).recount hStore.scalars hCounted
  have hDescribed : ∀ other, (store.claim (store.space.layout.arrays.first + store.space.arrays)
      head).arena.array other = store.arena.array other := fun other =>
    Arena.array_congr (Arena.arrays_modify _ _ _) other
  refine hClaimed.setHead ?_ ?_ ?_ ?_ ?_ ?_
  · rw [AddressRange.contains_iff]
    exact ⟨hPlace.1 ▸ Nat.le_add_right _ _, hPlace.2⟩
  · simp only [Store.claim, OrderedMap.get?_set, if_true, Option.isSome_some]
  · -- a listed head would have an owner
    rw [Option.eq_none_iff_forall_ne_some]
    intro other hHead
    have hOwned := (hStore.headed _ other hHead).2.1
    rw [hOpen.vacant] at hOwned
    contradiction
  · simp only [Store.claim, Arena.arrays_modify]
    exact lt_size_of_length hPositive
  · exact (congrArg ArrayInfo.base (hDescribed ref)).trans hUnplaced
  · change ((store.claim _ head).arena.array ref).length ≤ _
    rw [hDescribed]
    change _ ≤ (store.space.layout.arrays.size.toNat : Int)
    omega

theorem placeBig (hStore : store.Apportioned) {ref : ArrayRef}
    (hPositive : 0 < (store.arena.array ref).length)
    (hUnplaced : (store.arena.array ref).base = none) : (store.placeBig ref).Apportioned :=
  (hStore.setBase hUnplaced (lt_size_of_length hPositive) _).recount hStore.scalars hStore.arrays

end Apportioned

end Store

namespace StoreAction

variable {store : Store} {address : Address} {handle : Handle}

private theorem allocateNext_gives {segment : Segment}
    (hNext : store.space.next? segment = some address) (hOpen : store.Open address handle)
    (range : AddressRange) :
    (allocateNext segment range handle).Gives store address
      ((store.claim address handle).countUp segment) := by
  refine .bind (.get store) ?_
  rw [hNext]
  exact .bind (place_gives_of_open hOpen) (.bind (.modify _ _) (.pure address _))

private theorem allocateNext_refuses {segment : Segment} {fault : StoreFault}
    (hNext : store.space.next? segment = some address)
    (hRefuses : (place address handle).Refuses store fault) (range : AddressRange) :
    (allocateNext segment range handle).Refuses store fault := by
  refine Gives.refuses (.get store) ?_
  rw [hNext]
  exact hRefuses.bind _

theorem allocate_gives_next {segment : Segment} (hNext : store.space.next? segment = some address)
    (hOpen : store.Open address handle) :
    (allocate segment handle).Gives store address
      ((store.claim address handle).countUp segment) := by
  rcases Store.next?_eq_some hNext with ⟨rfl, -⟩ | ⟨rfl, -⟩
  all_goals exact .bind (.get store) (allocateNext_gives hNext hOpen _)

theorem allocate_refuses_next {segment : Segment} {fault : StoreFault}
    (hNext : store.space.next? segment = some address)
    (hRefuses : (place address handle).Refuses store fault) :
    (allocate segment handle).Refuses store fault := by
  rcases Store.next?_eq_some hNext with ⟨rfl, -⟩ | ⟨rfl, -⟩
  all_goals exact Gives.refuses (.get store) (allocateNext_refuses hNext hRefuses _)

theorem allocateNext_outcome (store : Store) (segment : Segment) (range : AddressRange)
    (handle : Handle) :
    (∃ fault, (allocateNext segment range handle).Refuses store fault) ∨
      ∃ address, (allocateNext segment range handle).Gives store address
          ((store.claim address handle).countUp segment) ∧
        store.space.next? segment = some address ∧ store.Open address handle := by
  cases hNext : store.space.next? segment with
  | none =>
      refine .inl ⟨.segmentFull segment range, Gives.refuses (.get store) ?_⟩
      rw [hNext]
      exact .throw _ store
  | some address =>
      rcases place_outcome store address handle with ⟨fault, hRefuses⟩ | hOpen
      · exact .inl ⟨fault, allocateNext_refuses hNext hRefuses range⟩
      · exact .inr ⟨address, allocateNext_gives hNext hOpen range, rfl, hOpen⟩

theorem allocateArray_gives (hStore : store.Apportioned) {ref : ArrayRef}
    (hFits : store.Fits ref)
    (hOpen : store.Open (store.space.layout.arrays.first + store.space.arrays) handle) :
    (allocateArray ref handle).Gives store () (store.placeNative ref handle) := by
  obtain ⟨hSome, hShort, hEnough⟩ := hFits.checks hStore
  refine .bind (.get store) ?_
  simp only [hSome, hShort, hEnough, if_false, if_true]
  exact .bind (place_gives_of_open hOpen) (.bind (.modify _ _) (.modify _ _))

theorem allocateArray_refuses (hStore : store.Apportioned) {ref : ArrayRef}
    (hFits : store.Fits ref) {fault : StoreFault}
    (hRefuses : (place (store.space.layout.arrays.first + store.space.arrays) handle).Refuses
      store fault) : (allocateArray ref handle).Refuses store fault := by
  obtain ⟨hSome, hShort, hEnough⟩ := hFits.checks hStore
  refine Gives.refuses (.get store) ?_
  simp only [hSome, hShort, hEnough, if_false, if_true]
  exact hRefuses.bind _

theorem allocateArray_gives_big {ref : ArrayRef}
    (hLong : (store.space.layout.arrays.size.toNat : Int) < (store.arena.array ref).length)
    (head : Handle) : (allocateArray ref head).Gives store () (store.placeBig ref) := by
  refine .bind (.get store) ?_
  simp only [show ¬(store.arena.array ref).length ≤ 0 by omega, Int.not_le.mpr hLong, if_false]
  exact .bind (.modify _ _) (.modify _ _)

/-- An array is placed in its segment or above the segments, or nothing is changed. -/
theorem allocateArray_outcome (hStore : store.Apportioned) (ref : ArrayRef) (head : Handle) :
    (∃ fault, (allocateArray ref head).Refuses store fault) ∨
      ((allocateArray ref head).Gives store () (store.placeNative ref head) ∧ store.Fits ref ∧
        store.Open (store.space.layout.arrays.first + store.space.arrays) head) ∨
      ((allocateArray ref head).Gives store () (store.placeBig ref) ∧
        (store.space.layout.arrays.size.toNat : Int) < (store.arena.array ref).length) := by
  by_cases hEmpty : (store.arena.array ref).length ≤ 0
  · refine .inl ⟨.emptyArray (store.arena.array ref).name (store.arena.array ref).length,
      Gives.refuses (.get store) ?_⟩
    simp only [hEmpty, if_true]
    rfl
  by_cases hShort : (store.arena.array ref).length ≤ store.space.layout.arrays.size.toNat
  case neg =>
    have hLong := Int.not_le.mp hShort
    exact .inr (.inr ⟨allocateArray_gives_big hLong head, hLong⟩)
  by_cases hRoom : store.space.arrays.toNat + (store.arena.array ref).length.toNat ≤
      store.space.layout.arrays.size.toNat
  · have hFits : store.Fits ref := ⟨by omega, hRoom⟩
    rcases place_outcome store (store.space.layout.arrays.first + store.space.arrays) head with
      ⟨fault, hRefuses⟩ | hOpen
    · exact .inl ⟨fault, allocateArray_refuses hStore hFits hRefuses⟩
    · exact .inr (.inl ⟨allocateArray_gives hStore hFits hOpen, hFits, hOpen⟩)
  · have hFull : store.space.layout.arrays.size - store.space.arrays <
        (store.arena.array ref).length.toNat.toUInt64 := by
      have hLimit := store.space.layout.arrays.size.toNat_lt
      have hArrays := hStore.arrays
      rw [UInt64.lt_iff_toNat_lt,
        UInt64.toNat_sub_of_le _ _ (UInt64.le_iff_toNat_le.mpr hStore.arrays), Nat.toUInt64,
        UInt64.toNat_ofNat']
      omega
    refine .inl ⟨.arraysFull ((store.arena.array ref).length.toNat.toUInt64).toNat
      (store.space.layout.arrays.size - store.space.arrays).toNat, Gives.refuses (.get store) ?_⟩
    simp only [hEmpty, if_false, hShort, if_true, hFull]
    rfl

end StoreAction

end RegisterCompiler
