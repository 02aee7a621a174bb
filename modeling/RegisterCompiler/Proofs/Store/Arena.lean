/-
Values by their handles.

A slot waits to be used again only while it holds no value, and one that holds a value has
been used.  Then every operation changes what one handle refers to and nothing else.
-/

import RegisterCompiler.Store.Arena

set_option autoImplicit false

namespace RegisterCompiler
namespace Arena

/-- The slots that wait to be used again are distinct, exist and are empty, and the others
have been used. -/
structure WellFormed (arena : Arena) : Prop where
  nodup : arena.freeSlots.Nodup
  empty : ∀ index ∈ arena.freeSlots,
    ∃ slot, arena.slots[index]? = some slot ∧ slot.value = none
  used : ∀ slot ∈ arena.slots, slot.value ≠ none → slot.generation ≠ 0

theorem wellFormed_empty : Arena.empty.WellFormed where
  nodup := List.nodup_nil
  empty := fun _ hIndex => absurd hIndex List.not_mem_nil
  used := fun _ hSlot => absurd hSlot (Array.not_mem_empty _)

theorem get?_eq_some_iff {arena : Arena} {handle : Handle} {value : Value} :
    arena.get? handle = some value ↔ handle.generation ≠ 0 ∧
      arena.slots[handle.index]? = some ⟨handle.generation, some value⟩ := by
  unfold get? Handle.isNil
  by_cases hNil : handle.generation = 0
  · simp [hNil]
  · simp only [hNil, beq_iff_eq, if_false, ne_eq, not_false_eq_true, true_and]
    cases hSlot : arena.slots[handle.index]? with
    | none => simp
    | some slot =>
        obtain ⟨generation, content⟩ := slot
        by_cases hSame : generation = handle.generation
        · simp [hSame]
        · simp [hSame]

/-- Two arenas whose slots agree but at one index, where only one handle can find
a value, agree on all other handles. -/
theorem get?_congr {before after : Arena} {handle other : Handle}
    (hSlots : ∀ index, index ≠ handle.index → after.slots[index]? = before.slots[index]?)
    (hBefore : ∀ slot, before.slots[handle.index]? = some slot →
      slot.value = none ∨ slot.generation = handle.generation)
    (hAfter : ∀ slot, after.slots[handle.index]? = some slot →
      slot.value = none ∨ slot.generation = handle.generation)
    (hOther : other ≠ handle) : after.get? other = before.get? other := by
  have hParts : ∀ value, after.get? other = some value ↔ before.get? other = some value := by
    intro value
    rw [get?_eq_some_iff, get?_eq_some_iff]
    by_cases hIndex : other.index = handle.index
    · have hGeneration : other.generation ≠ handle.generation := by
        intro hGeneration
        obtain ⟨index, generation⟩ := other
        obtain ⟨place, era⟩ := handle
        simp only at hIndex hGeneration
        exact hOther (by rw [hIndex, hGeneration])
      rw [hIndex]
      constructor
      · rintro ⟨-, hFound⟩
        rcases hAfter _ hFound with hNone | hSame
        · exact absurd hNone (Option.some_ne_none _)
        · exact absurd hSame hGeneration
      · rintro ⟨-, hFound⟩
        rcases hBefore _ hFound with hNone | hSame
        · exact absurd hNone (Option.some_ne_none _)
        · exact absurd hSame hGeneration
    · rw [hSlots other.index hIndex]
  exact Option.ext hParts

theorem mem_entries_iff {arena : Arena} (hWell : arena.WellFormed) {handle : Handle}
    {value : Value} : (handle, value) ∈ arena.entries ↔ arena.get? handle = some value := by
  obtain ⟨index, generation⟩ := handle
  rw [get?_eq_some_iff, entries, List.mem_filterMap]
  simp only [Prod.exists, List.mem_zipIdx_iff_getElem?, Array.getElem?_toList,
    Option.map_eq_some_iff, Prod.mk.injEq, Handle.mk.injEq]
  constructor
  · rintro ⟨⟨era, content⟩, place, hSlot, _, hValue, ⟨rfl, rfl⟩, rfl⟩
    rw [← hValue]
    refine ⟨hWell.used _ (Array.mem_of_getElem? hSlot) ?_, hSlot⟩
    rw [hValue]
    exact Option.some_ne_none _
  · rintro ⟨-, hSlot⟩
    exact ⟨_, index, hSlot, value, rfl, ⟨rfl, rfl⟩, rfl⟩

private theorem used_set {arena : Arena} (hWell : arena.WellFormed) (index : Nat) {slot : Slot}
    (hSlot : slot.value ≠ none → slot.generation ≠ 0) :
    ∀ found ∈ arena.slots.set! index slot, found.value ≠ none → found.generation ≠ 0 := by
  intro found hFound
  rw [Array.set!_eq_setIfInBounds] at hFound
  rcases Array.mem_or_eq_of_mem_setIfInBounds hFound with hOld | rfl
  · exact hWell.used found hOld
  · exact hSlot

/-! ### Creating -/

section Creating

variable {arena : Arena} (hWell : arena.WellFormed) (payload : Payload)

include hWell

theorem get?_create_before : arena.get? (arena.create payload).1 = none := by
  cases hFound : arena.get? (arena.create payload).1 with
  | none => rfl
  | some value =>
      rw [get?_eq_some_iff] at hFound
      unfold create at hFound
      cases hFree : arena.freeSlots with
      | nil => simp [hFree] at hFound
      | cons index rest =>
          obtain ⟨slot, hSlot, -⟩ := hWell.empty index (by rw [hFree]; exact List.mem_cons_self)
          simp only [hFree, Array.getD_eq_getD_getElem?, hSlot, Option.getD_some,
            Option.some.injEq] at hFound
          have hGeneration := congrArg Slot.generation hFound.2
          simp only at hGeneration
          omega

theorem get?_create_self :
    (arena.create payload).2.get? (arena.create payload).1 = some (.ofPayload payload) := by
  rw [get?_eq_some_iff]
  unfold create
  cases hFree : arena.freeSlots with
  | nil => simp
  | cons index rest =>
      obtain ⟨slot, hSlot, -⟩ := hWell.empty index (by rw [hFree]; exact List.mem_cons_self)
      have hBound : index < arena.slots.size := (Array.getElem?_eq_some_iff.mp hSlot).1
      simp [Array.set!_eq_setIfInBounds, hBound]

theorem get?_create_of_ne {other : Handle} (hOther : other ≠ (arena.create payload).1) :
    (arena.create payload).2.get? other = arena.get? other := by
  refine get?_congr ?_ ?_ ?_ hOther
  · intro index hIndex
    unfold create at hIndex ⊢
    cases hFree : arena.freeSlots with
    | nil =>
        simp only [hFree] at hIndex ⊢
        rw [Array.getElem?_push, if_neg hIndex]
    | cons place rest =>
        simp only [hFree] at hIndex ⊢
        rw [Array.set!_eq_setIfInBounds, Array.getElem?_setIfInBounds, if_neg (Ne.symm hIndex)]
  · intro slot hSlot
    unfold create at hSlot
    cases hFree : arena.freeSlots with
    | nil => simp [hFree] at hSlot
    | cons place rest =>
        obtain ⟨found, hFound, hEmpty⟩ := hWell.empty place (by rw [hFree]; exact List.mem_cons_self)
        simp only [hFree, hFound, Option.some.injEq] at hSlot
        exact .inl (hSlot ▸ hEmpty)
  · intro slot hSlot
    have hSelf := get?_create_self hWell payload
    rw [get?_eq_some_iff, hSlot] at hSelf
    exact .inr (congrArg Slot.generation (Option.some.inj hSelf.2))

theorem wellFormed_create : (arena.create payload).2.WellFormed := by
  unfold create
  cases hFree : arena.freeSlots with
  | nil =>
      refine ⟨List.nodup_nil, fun index hIndex => absurd hIndex List.not_mem_nil, ?_⟩
      intro slot hSlot
      rcases Array.mem_push.mp hSlot with hOld | rfl
      · exact hWell.used slot hOld
      · exact fun _ => Nat.one_ne_zero
  | cons place rest =>
      have hNodup := hWell.nodup
      rw [hFree, List.nodup_cons] at hNodup
      refine ⟨hNodup.2, ?_, used_set hWell place fun _ => Nat.succ_ne_zero _⟩
      intro index hIndex
      obtain ⟨slot, hSlot, hEmpty⟩ :=
        hWell.empty index (by rw [hFree]; exact List.mem_cons_of_mem _ hIndex)
      have hDifferent : place ≠ index := fun hSame => hNodup.1 (hSame ▸ hIndex)
      refine ⟨slot, ?_, hEmpty⟩
      simp only [Array.set!_eq_setIfInBounds]
      rw [Array.getElem?_setIfInBounds, if_neg hDifferent]
      exact hSlot

end Creating

@[simp]
theorem arrays_create (arena : Arena) (payload : Payload) :
    (arena.create payload).2.arrays = arena.arrays := by
  unfold create
  split <;> rfl

/-! ### Destroying and changing -/

theorem get?_set {arena : Arena} {handle : Handle} {value : Value}
    (hLive : arena.get? handle = some value) (content : Option Value) (freeSlots : List Nat)
    (other : Handle) :
    Arena.get? { arena with
        slots := arena.slots.set! handle.index ⟨handle.generation, content⟩
        freeSlots := freeSlots } other =
      if other = handle then content else arena.get? other := by
  obtain ⟨hGeneration, hSlot⟩ := get?_eq_some_iff.mp hLive
  have hBound : handle.index < arena.slots.size := (Array.getElem?_eq_some_iff.mp hSlot).1
  have hWritten : (arena.slots.set! handle.index ⟨handle.generation, content⟩)[handle.index]? =
      some ⟨handle.generation, content⟩ := by
    rw [Array.set!_eq_setIfInBounds, Array.getElem?_setIfInBounds, if_pos rfl, if_pos hBound]
  by_cases hSame : other = handle
  · subst hSame
    rw [if_pos rfl]
    simp only [get?, Handle.isNil, beq_iff_eq, hGeneration, if_false, hWritten, if_true]
  · rw [if_neg hSame]
    refine get?_congr ?_ ?_ ?_ hSame
    · intro index hIndex
      rw [Array.set!_eq_setIfInBounds, Array.getElem?_setIfInBounds, if_neg (Ne.symm hIndex)]
    · intro slot hFound
      rw [hSlot] at hFound
      exact .inr (congrArg Slot.generation (Option.some.inj hFound)).symm
    · intro slot hFound
      rw [hWritten] at hFound
      exact .inr (congrArg Slot.generation (Option.some.inj hFound)).symm

private theorem index_not_mem_freeSlots {arena : Arena} (hWell : arena.WellFormed) {handle : Handle}
    {value : Value} (hLive : arena.get? handle = some value) :
    handle.index ∉ arena.freeSlots := by
  intro hFree
  obtain ⟨slot, hSlot, hEmpty⟩ := hWell.empty handle.index hFree
  rw [(get?_eq_some_iff.mp hLive).2] at hSlot
  rw [← Option.some.inj hSlot] at hEmpty
  contradiction

/-- Destroying a value changes what its handle refers to only. -/
theorem free?_of_get? {arena : Arena} (hWell : arena.WellFormed) {handle : Handle} {value : Value}
    (hLive : arena.get? handle = some value) :
    ∃ after, arena.free? handle = some (value, after) ∧ after.WellFormed ∧
      after.arrays = arena.arrays ∧
      ∀ other, after.get? other = if other = handle then none else arena.get? other := by
  refine ⟨{ arena with
      slots := arena.slots.set! handle.index ⟨handle.generation, none⟩
      freeSlots := handle.index :: arena.freeSlots
      live := arena.live - 1 }, by rw [free?, hLive]; rfl,
    ⟨?_, ?_, used_set hWell _ fun hNone => absurd rfl hNone⟩, rfl,
    get?_set hLive none (handle.index :: arena.freeSlots)⟩
  · exact List.nodup_cons.mpr ⟨index_not_mem_freeSlots hWell hLive, hWell.nodup⟩
  · intro index hIndex
    have hBound : handle.index < arena.slots.size :=
      (Array.getElem?_eq_some_iff.mp (get?_eq_some_iff.mp hLive).2).1
    simp only [Array.set!_eq_setIfInBounds, Array.getElem?_setIfInBounds]
    by_cases hSame : handle.index = index
    · exact ⟨⟨handle.generation, none⟩, by rw [if_pos hSame, if_pos hBound], rfl⟩
    · rw [if_neg hSame]
      rcases List.mem_cons.mp hIndex with hHead | hRest
      · exact absurd hHead.symm hSame
      · exact hWell.empty index hRest

theorem get?_modify (arena : Arena) (handle other : Handle) (change : Value → Value) :
    (arena.modify handle change).get? other =
      if other = handle then (arena.get? handle).map change else arena.get? other := by
  unfold modify
  cases hLive : arena.get? handle with
  | none =>
      by_cases hSame : other = handle
      · rw [if_pos hSame, hSame, hLive]
        rfl
      · rw [if_neg hSame]
  | some value => exact get?_set hLive (some (change value)) arena.freeSlots other

@[simp]
theorem arrays_modify (arena : Arena) (handle : Handle) (change : Value → Value) :
    (arena.modify handle change).arrays = arena.arrays := by
  unfold modify
  split <;> rfl

theorem wellFormed_modify {arena : Arena} (hWell : arena.WellFormed) (handle : Handle)
    (change : Value → Value) : (arena.modify handle change).WellFormed := by
  unfold modify
  cases hLive : arena.get? handle with
  | none => exact hWell
  | some value =>
      refine ⟨hWell.nodup, ?_, used_set hWell _ fun _ => (get?_eq_some_iff.mp hLive).1⟩
      intro index hIndex
      have hDifferent : handle.index ≠ index := fun hSame =>
        index_not_mem_freeSlots hWell hLive (hSame ▸ hIndex)
      obtain ⟨slot, hSlot, hEmpty⟩ := hWell.empty index hIndex
      refine ⟨slot, ?_, hEmpty⟩
      simp only [Array.set!_eq_setIfInBounds]
      rw [Array.getElem?_setIfInBounds, if_neg hDifferent]
      exact hSlot

/-! ### Arrays -/

theorem array_congr {before after : Arena} (hArrays : after.arrays = before.arrays)
    (ref : ArrayRef) : after.array ref = before.array ref := by
  rw [array, array, hArrays]

theorem wellFormed_modifyArray {arena : Arena} (hWell : arena.WellFormed) (ref : ArrayRef)
    (change : ArrayInfo → ArrayInfo) : (arena.modifyArray ref change).WellFormed where
  nodup := hWell.nodup
  empty := hWell.empty
  used := hWell.used

theorem array_modifyArray (arena : Arena) (ref other : ArrayRef) (change : ArrayInfo → ArrayInfo)
    (hBound : ref < arena.arrays.size) :
    (arena.modifyArray ref change).array other =
      if other = ref then change (arena.array ref) else arena.array other := by
  simp only [array, modifyArray, Array.getD_eq_getD_getElem?, Array.getElem?_modify]
  by_cases hSame : other = ref
  · subst hSame
    rw [if_pos rfl, if_pos rfl, Array.getElem?_eq_getElem hBound]
    rfl
  · rw [if_neg (Ne.symm hSame), if_neg hSame]

end Arena
end RegisterCompiler
