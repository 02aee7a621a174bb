/-
Where declared names live.

A segment is given away cell by cell from its start, and a counter says how many cells are
gone.  A declared name takes the cells behind the counter, so no cell is given away twice,
and as long as the counter stays inside the segment no count in 64 bits wraps around.
-/

import RegisterCompiler.Proofs.Generator.Declarations

set_option autoImplicit false

namespace RegisterCompiler

/-! ### Cells and segments -/

def AddressRange.extent (range : AddressRange) : Nat :=
  range.last.toNat + 1 - range.first.toNat

namespace Placement

def extent (placement : Placement) : Nat :=
  placement.length.getD 1

def Covers (placement : Placement) (cell : Nat) : Prop :=
  placement.address ≤ cell ∧ cell < placement.address + placement.extent

def Apart (first second : Placement) : Prop :=
  ∀ cell, first.Covers cell → ¬second.Covers cell

end Placement

namespace Layout

def Encloses (layout : Layout) (cell : Nat) : Segment → Prop
  | .loop => layout.loop.first.toNat ≤ cell ∧ cell ≤ layout.loop.last.toNat
  | .scalars => layout.scalars.first.toNat ≤ cell ∧ cell ≤ layout.scalars.last.toNat
  | .arrays => layout.arrays.first.toNat ≤ cell ∧ cell ≤ layout.arrays.last.toNat
  | .oversized => ∃ base, layout.oversizedBase = some base ∧ base ≤ cell
  | .unnamed _ => False

/-- The segment of a declared name: arrays that are longer than their segment go above it. -/
def segmentOf (layout : Layout) : Option Nat → Segment
  | none => .scalars
  | some length => if layout.arrays.extent < length then .oversized else .arrays

private theorem segmentOf_eq_scalars_iff {layout : Layout} {length? : Option Nat} :
    layout.segmentOf length? = .scalars ↔ length? = none := by
  cases length? with
  | none => simp [segmentOf]
  | some length => simp only [segmentOf]; split <;> simp

private theorem segmentOf_eq_oversized_iff {layout : Layout} {length? : Option Nat} :
    layout.segmentOf length? = .oversized ↔
      ∃ length, length? = some length ∧ layout.arrays.extent < length := by
  cases length? with
  | none => simp [segmentOf]
  | some length => simp [segmentOf]

private theorem segmentOf_ne_loop (layout : Layout) (length? : Option Nat) :
    layout.segmentOf length? ≠ .loop := by
  unfold segmentOf
  split
  · simp
  · split <;> simp

def start (layout : Layout) : Segment → Nat
  | .loop => layout.loop.first.toNat
  | .scalars => layout.scalars.first.toNat
  | .arrays => layout.arrays.first.toNat
  | .oversized => layout.oversizedStart
  | .unnamed _ => 0

def HasRoom (layout : Layout) (count : Nat) : Segment → Prop
  | .scalars => count ≤ layout.scalars.extent
  | .arrays => count ≤ layout.arrays.extent
  | .oversized => True
  | .loop | .unnamed _ => False

private theorem contains_toUInt64 {range : AddressRange} {cell : Nat} (hCell : cell < UInt64.size) :
    range.contains cell.toUInt64 = true ↔
      range.first.toNat ≤ cell ∧ cell ≤ range.last.toNat := by
  have hWord : cell.toUInt64.toNat = cell := by
    rw [Nat.toUInt64, UInt64.toNat_ofNat', Nat.mod_eq_of_lt hCell]
  rw [AddressRange.contains, Bool.and_eq_true, decide_eq_true_eq, decide_eq_true_eq,
    UInt64.le_iff_toNat_le, UInt64.le_iff_toNat_le, hWord]

section Valid

variable {layout : Layout} (hFault : layout.fault? = none)

include hFault

private theorem oversizedBase_eq : layout.oversizedBase = some (layout.oversizedStart : Int) := by
  have hOrdered := ordered_of_fault? hFault
  have hStart := hOrdered.oversized
  unfold oversizedStart at hStart ⊢
  cases hBase : layout.oversizedBase with
  | none =>
      rw [hBase] at hStart
      simp at hStart
  | some base =>
      rw [hBase, Option.getD_some] at hStart
      rw [Option.getD_some, Int.toNat_of_nonneg (by omega)]

private theorem classify_of_encloses {cell : Nat} {segment : Segment}
    (hEncloses : layout.Encloses cell segment) : layout.classify cell = some segment := by
  have hOrdered := ordered_of_fault? hFault
  have hLoop := hOrdered.loop
  have hLoopScalars := hOrdered.loopScalars
  have hScalars := hOrdered.scalars
  have hScalarsArrays := hOrdered.scalarsArrays
  have hArrays := hOrdered.arrays
  have hOversized := hOrdered.oversized
  have hLimit := layout.arrays.last.toNat_lt
  have hNatural : ¬(cell : Int) < 0 := by omega
  rw [classify, oversizedBase_eq hFault, Option.bind_some, classifyAbove, if_neg hNatural]
  by_cases hAbove : (layout.oversizedStart : Int) ≤ cell
  · rw [if_pos hAbove]
    cases segment with
    | loop | scalars | arrays => obtain ⟨hFirst, hLast⟩ := hEncloses; omega
    | oversized => rfl
    | unnamed number => exact absurd hEncloses id
  · rw [if_neg hAbove]
    have hBelow : cell ≤ layout.arrays.last.toNat := by
      cases segment with
      | loop | scalars | arrays => obtain ⟨hFirst, hLast⟩ := hEncloses; omega
      | oversized =>
          obtain ⟨base, hBase, hLow⟩ := hEncloses
          rw [oversizedBase_eq hFault] at hBase
          exact absurd (Option.some.inj hBase ▸ hLow) hAbove
      | unnamed number => exact absurd hEncloses id
    have hWord : cell < UInt64.size := by
      change cell < 18446744073709551616
      omega
    rw [if_neg (by omega), Int.toNat_natCast]
    simp only [contains_toUInt64 hWord]
    cases segment with
    | loop => exact if_pos hEncloses
    | scalars =>
        obtain ⟨hFirst, hLast⟩ := hEncloses
        rw [if_neg (by omega), if_pos ⟨hFirst, hLast⟩]
    | arrays =>
        obtain ⟨hFirst, hLast⟩ := hEncloses
        rw [if_neg (by omega), if_neg (by omega), if_pos ⟨hFirst, hLast⟩]
    | oversized =>
        obtain ⟨base, hBase, hLow⟩ := hEncloses
        rw [oversizedBase_eq hFault] at hBase
        exact absurd (Option.some.inj hBase ▸ hLow) hAbove
    | unnamed number => exact absurd hEncloses id

/-- Segments have no common cell. -/
theorem segment_eq_of_encloses {cell : Nat} {first second : Segment}
    (hFirst : layout.Encloses cell first) (hSecond : layout.Encloses cell second) :
    first = second := by
  have hSame := classify_of_encloses hFault hFirst
  rw [classify_of_encloses hFault hSecond] at hSame
  exact (Option.some.inj hSame).symm

private theorem encloses_of_hasRoom {segment : Segment} {count cell : Nat}
    (hRoom : layout.HasRoom count segment) (hLow : layout.start segment ≤ cell)
    (hHigh : cell < layout.start segment + count) : layout.Encloses cell segment := by
  have hOrdered := ordered_of_fault? hFault
  have hScalars := hOrdered.scalars
  have hArrays := hOrdered.arrays
  cases segment with
  | scalars =>
      simp only [HasRoom, AddressRange.extent, start] at hRoom hLow hHigh
      exact ⟨hLow, by omega⟩
  | arrays =>
      simp only [HasRoom, AddressRange.extent, start] at hRoom hLow hHigh
      exact ⟨hLow, by omega⟩
  | oversized => exact ⟨_, oversizedBase_eq hFault, Int.ofNat_le.mpr hLow⟩
  | loop | unnamed => exact absurd hRoom id

end Valid

end Layout

/-! ### Counters -/

namespace Space

def count (space : Space) : Segment → Nat
  | .scalars => space.scalars.toNat
  | .arrays => space.arrays.toNat
  | .oversized => space.oversized
  | .loop | .unnamed _ => 0

/-- A declared name takes the cells behind the counter of its segment. -/
structure Settles (before after : Space) (placement : Placement) : Prop where
  layout : after.layout = before.layout
  segment : placement.segment = before.layout.segmentOf placement.length
  address : placement.address =
    before.layout.start placement.segment + before.count placement.segment
  room : before.layout.HasRoom (before.count placement.segment + placement.extent)
    placement.segment
  count : after.count = Function.update before.count placement.segment
    (before.count placement.segment + placement.extent)

/-- What a name takes is decided by layout and counters. -/
theorem Settles.congr {before after first last : Space} {placement : Placement}
    (hSettles : before.Settles after placement) (hFirst : first.layout = before.layout)
    (hFirstCount : first.count = before.count) (hLast : last.layout = after.layout)
    (hLastCount : last.count = after.count) : first.Settles last placement := by
  obtain ⟨hLayout, hSegment, hAddress, hRoom, hCount⟩ := hSettles
  rw [← hFirst] at hSegment hAddress hRoom
  rw [← hFirstCount] at hAddress hRoom hCount
  exact ⟨hLast.trans (hLayout.trans hFirst.symm), hSegment, hAddress, hRoom, hLastCount.trans hCount⟩

/-- The cells given away are those of the declared names, each given away once. -/
structure Charts (space : Space) (placements : List Placement) : Prop where
  segments : ∀ placement ∈ placements,
    placement.segment = space.layout.segmentOf placement.length
  within : ∀ placement ∈ placements, space.layout.start placement.segment ≤ placement.address ∧
    placement.address + placement.extent ≤
      space.layout.start placement.segment + space.count placement.segment
  ordered : placements.Pairwise fun first second => first.segment = second.segment →
    first.address + first.extent ≤ second.address
  total : ∀ segment, space.count segment =
    ((placements.filter fun placement => placement.segment = segment).map Placement.extent).sum
  scalars : space.layout.HasRoom (space.count .scalars) .scalars
  arrays : space.layout.HasRoom (space.count .arrays) .arrays

namespace Charts

variable {space after : Space} {placements : List Placement} {placement : Placement}

private theorem empty (layout : Layout) : Charts ⟨layout, .empty, 0, 0, 0, .empty⟩ [] where
  segments := by simp
  within := by simp
  ordered := .nil
  total := by intro segment; cases segment <;> rfl
  scalars := Nat.zero_le _
  arrays := Nat.zero_le _

variable (hCharts : space.Charts placements)

include hCharts

private theorem settle (hSettles : space.Settles after placement) :
    after.Charts (placements ++ [placement]) := by
  have hCount : ∀ segment, space.count segment ≤ after.count segment := by
    intro segment
    rw [hSettles.count, Function.update_apply]
    split
    · rename_i hSame
      rw [hSame]
      exact Nat.le_add_right _ _
    · exact Nat.le_refl _
  constructor
  · intro found hFound
    rw [hSettles.layout]
    rcases List.mem_append.mp hFound with hOld | hNew
    · exact hCharts.segments found hOld
    · rw [List.mem_singleton.mp hNew]
      exact hSettles.segment
  · intro found hFound
    rw [hSettles.layout]
    rcases List.mem_append.mp hFound with hOld | hNew
    · obtain ⟨hLow, hHigh⟩ := hCharts.within found hOld
      have hMore := hCount found.segment
      exact ⟨hLow, by omega⟩
    · rw [List.mem_singleton.mp hNew, hSettles.count, Function.update_self, hSettles.address]
      exact ⟨Nat.le_add_right _ _, Nat.le_of_eq (Nat.add_assoc _ _ _)⟩
  · refine List.pairwise_append.mpr ⟨hCharts.ordered, List.pairwise_singleton _ _, ?_⟩
    intro old hOld new hNew hSame
    rw [List.mem_singleton.mp hNew] at hSame ⊢
    rw [hSettles.address, ← hSame]
    exact (hCharts.within old hOld).2
  · intro segment
    rw [List.filter_append, List.map_append, List.sum_append, ← hCharts.total, hSettles.count,
      Function.update_apply]
    by_cases hSame : segment = placement.segment
    · simp [hSame]
    · simp [hSame, Ne.symm hSame]
  · rw [hSettles.layout, hSettles.count, Function.update_apply]
    split
    · rename_i hSame
      exact hSame ▸ hSettles.room
    · exact hCharts.scalars
  · rw [hSettles.layout, hSettles.count, Function.update_apply]
    split
    · rename_i hSame
      exact hSame ▸ hSettles.room
    · exact hCharts.arrays

private theorem hasRoom {found : Placement} (hFound : found ∈ placements) :
    space.layout.HasRoom (space.count found.segment) found.segment := by
  rw [hCharts.segments found hFound]
  unfold Layout.segmentOf
  split
  · exact hCharts.scalars
  · split
    · trivial
    · exact hCharts.arrays

private theorem encloses (hFault : space.layout.fault? = none) {found : Placement}
    (hFound : found ∈ placements) {cell : Nat} (hCovers : found.Covers cell) :
    space.layout.Encloses cell found.segment := by
  obtain ⟨hLow, hHigh⟩ := hCovers
  obtain ⟨hStart, hStop⟩ := hCharts.within found hFound
  exact Layout.encloses_of_hasRoom hFault (hCharts.hasRoom hFound) (by omega) (by omega)

private theorem apart (hFault : space.layout.fault? = none) :
    placements.Pairwise Placement.Apart := by
  refine hCharts.ordered.imp_of_mem ?_
  intro first second hFirst hSecond hOrder cell hCovers hAgain
  have hSame := Layout.segment_eq_of_encloses hFault (hCharts.encloses hFault hFirst hCovers)
    (hCharts.encloses hFault hSecond hAgain)
  have hBefore := hOrder hSame
  obtain ⟨-, hHigh⟩ := hCovers
  obtain ⟨hLow, -⟩ := hAgain
  omega

end Charts

/-- The counts in 64 bits are those without a bound. -/
structure Exact (space : Space) : Prop where
  loopSize : space.layout.loop.size.toNat = space.layout.loop.extent
  scalarsSize : space.layout.scalars.size.toNat = space.layout.scalars.extent
  arraysSize : space.layout.arrays.size.toNat = space.layout.arrays.extent
  nextScalar : space.scalars < space.layout.scalars.size →
    (space.layout.scalars.first + space.scalars).toNat =
      space.layout.scalars.first.toNat + space.scalars.toNat
  nextArray : space.arrays < space.layout.arrays.size →
    (space.layout.arrays.first + space.arrays).toNat =
      space.layout.arrays.first.toNat + space.arrays.toNat
  scalarsLeft : (space.layout.scalars.size - space.scalars).toNat + space.scalars.toNat =
    space.layout.scalars.extent
  arraysLeft : (space.layout.arrays.size - space.arrays).toNat + space.arrays.toNat =
    space.layout.arrays.extent

end Space

namespace AddressRange

private theorem toNat_first_add {range : AddressRange}
    (hOrder : range.first.toNat ≤ range.last.toNat) {count : UInt64}
    (hCount : count.toNat < range.extent) :
    (range.first + count).toNat = range.first.toNat + count.toNat := by
  have hLast := range.last.toNat_lt
  unfold extent at hCount
  rw [UInt64.toNat_add]
  omega

end AddressRange

private theorem Layout.Ordered.toNat_size {layout : Layout} (hOrdered : layout.Ordered) :
    layout.loop.size.toNat = layout.loop.extent ∧
      layout.scalars.size.toNat = layout.scalars.extent ∧
      layout.arrays.size.toNat = layout.arrays.extent := by
  have hLoop := hOrdered.loop
  have hLoopScalars := hOrdered.loopScalars
  have hScalars := hOrdered.scalars
  have hArrays := hOrdered.arrays
  have hLimit := layout.scalars.first.toNat_lt
  unfold AddressRange.extent
  refine ⟨?_, by rw [hOrdered.toNat_size_scalars]; omega, by rw [hOrdered.toNat_size_arrays]; omega⟩
  rw [AddressRange.size, UInt64.toNat_add,
    UInt64.toNat_sub_of_le _ _ (UInt64.le_iff_toNat_le.mpr hLoop)]
  change (_ + 1) % 18446744073709551616 = _
  omega

/-- Nothing wraps around while the counters stay inside their segments. -/
theorem Space.Charts.exact {space : Space} {placements : List Placement}
    (hCharts : space.Charts placements) (hFault : space.layout.fault? = none) : space.Exact := by
  have hOrdered := Layout.ordered_of_fault? hFault
  obtain ⟨hLoop, hScalars, hArrays⟩ := hOrdered.toNat_size
  have hScalarRoom : space.scalars.toNat ≤ space.layout.scalars.extent := hCharts.scalars
  have hArrayRoom : space.arrays.toNat ≤ space.layout.arrays.extent := hCharts.arrays
  refine ⟨hLoop, hScalars, hArrays, fun hRoom => ?_, fun hRoom => ?_, ?_, ?_⟩
  · rw [UInt64.lt_iff_toNat_lt, hScalars] at hRoom
    exact AddressRange.toNat_first_add hOrdered.scalars hRoom
  · rw [UInt64.lt_iff_toNat_lt, hArrays] at hRoom
    exact AddressRange.toNat_first_add hOrdered.arrays hRoom
  · rw [UInt64.toNat_sub_of_le _ _ (UInt64.le_iff_toNat_le.mpr (hScalars ▸ hScalarRoom)), hScalars]
    omega
  · rw [UInt64.toNat_sub_of_le _ _ (UInt64.le_iff_toNat_le.mpr (hArrays ▸ hArrayRoom)), hArrays]
    omega

/-! ### What a declaration does -/

namespace StoreAction

def chart (store : Store) : Layout × (Segment → Nat) × Nat × (ArrayRef → Int) :=
  (store.space.layout, store.space.count, store.arena.arrays.size,
    fun ref => (store.arena.array ref).length)

private theorem chart_modify (store : Store) (handle : Handle) (change : Value → Value) :
    chart { store with arena := store.arena.modify handle change } = chart store := by
  simp only [chart, Arena.array, Arena.arrays_modify]

private theorem chart_create (store : Store) (payload : Payload) :
    chart { store with arena := (store.arena.create payload).2 } = chart store := by
  simp only [chart, Arena.array, Arena.arrays_create]

private theorem chart_modifyArray (store : Store) (ref : ArrayRef) (change : ArrayInfo → ArrayInfo)
    (hBase : ∀ info, (change info).base = info.base)
    (hLength : ∀ info, (change info).length = info.length) :
    chart { store with arena := store.arena.modifyArray ref change } = chart store := by
  simp only [chart, Arena.array_modifyArray_same _ ref _ hBase hLength]
  simp only [Arena.modifyArray, Array.size_modify]

theorem value_leaves {γ : Type} (part : Store → γ) (handle : Handle) :
    (value handle).Leaves part := by
  refine .bind .get fun store => ?_
  split
  · exact .pure _
  · exact .throw _

private theorem create_leaves (payload : Payload) : (create payload).Leaves chart := by
  intro before handle after hGives
  rw [← ((create_gives before payload).unique hGives).2]
  exact chart_create before payload

private theorem recordOwner_leaves (address : Address) (handle : Handle) :
    (recordOwner address handle).Leaves chart := by
  refine .bind .get fun store => ?_
  split
  · exact .throw _
  · exact .modify fun _ => rfl

private theorem place_leaves (address : Address) (handle : Handle) :
    (place address handle).Leaves chart := by
  refine .bind (value_leaves _ handle) fun found => .bind .get fun store => ?_
  split
  · exact .throw _
  · exact .bind (recordOwner_leaves address handle) fun _ => .modify fun _ => chart_modify _ _ _

private theorem change_leaves (handle : Handle) (update : Value → Value) :
    (change handle update).Leaves chart :=
  .bind (value_leaves _ handle) fun _ => .bind (.modify fun _ => chart_modify _ _ _) fun _ => .pure _

private theorem declare_leaves (name : String) (kind : SymbolKind) (binding : Binding) :
    (declare name kind binding).Leaves chart := by
  refine .bind .get fun store => ?_
  split
  · exact .modify fun _ => rfl
  · exact .throw _

private theorem element_leaves (ref : ArrayRef) (offset : Int) :
    (element ref offset).Leaves chart := by
  intro before handle after hGives
  have hRest := hGives.of_get_bind
  cases hElement : before.arena.element? ref offset with
  | none =>
      simp only [hElement] at hRest
      exact Leaves.throw _ _ _ _ hRest
  | some found =>
      simp only [hElement] at hRest
      obtain ⟨-, rfl⟩ := (Gives.bind (.modify _ before) (.pure found.1 _)).unique hRest
      unfold Arena.element? at hElement
      simp only at hElement
      split at hElement
      · split at hElement
        · cases hElement
          rfl
        · cases hElement
          let payload := Payload.element
            ⟨some ((before.arena.array ref).newSlot (toString offset)), some offset, none, some ref⟩
          let note (info : ArrayInfo) : ArrayInfo :=
            { info with elements := info.elements ++ [(before.arena.create payload).1] }
          exact (chart_modifyArray { before with arena := (before.arena.create payload).2 } ref
            note (fun _ => rfl) fun _ => rfl).trans (chart_create before payload)
      · cases hElement

variable {before after : Store}

/-- A scalar takes the next cell of its segment. -/
theorem allocate_scalars_settles (hFault : before.space.layout.fault? = none) {handle : Handle}
    {address : Address} (hGives : (allocate .scalars handle).Gives before address after)
    (name : String) : before.space.Settles after.space ⟨name, .scalars, address.toNat, none⟩ := by
  have hOrdered := Layout.ordered_of_fault? hFault
  obtain ⟨-, hSize, -⟩ := hOrdered.toNat_size
  have hNext := hGives.of_get_bind.of_get_bind
  cases hFound : before.space.next? .scalars with
  | none =>
      simp only [hFound] at hNext
      cases hNext
  | some found =>
  simp only [hFound] at hNext
  simp only [Space.next?] at hFound
  split at hFound
  · cases hFound
  rename_i hRoom
  cases hFound
  obtain ⟨_, middle, hPlace, hCounts⟩ := hNext.exists_of_bind
  obtain ⟨_, counted, hCounts, hPure⟩ := hCounts.exists_of_bind
  obtain ⟨-, rfl⟩ := (Gives.modify _ middle).unique hCounts
  obtain ⟨rfl, rfl⟩ := (Gives.pure _ _).unique hPure
  have hKept := place_leaves _ _ _ _ _ hPlace
  simp only [chart, Prod.mk.injEq] at hKept
  obtain ⟨hLayout, hCount, -, -⟩ := hKept
  rw [UInt64.le_iff_toNat_le, hSize, Nat.not_le] at hRoom
  have hLimit := before.space.layout.scalars.size.toNat_lt
  have hMore : (middle.space.scalars + 1).toNat = before.space.scalars.toNat + 1 := by
    have hSame : middle.space.scalars.toNat = before.space.scalars.toNat :=
      congrFun hCount .scalars
    rw [UInt64.toNat_add, hSame]
    change (_ + 1) % _ = _
    omega
  refine ⟨hLayout, rfl, AddressRange.toNat_first_add hOrdered.scalars hRoom, hRoom, ?_⟩
  funext segment
  have hSame := congrFun hCount segment
  cases segment with
  | scalars =>
      rw [Function.update_self]
      exact hMore
  | loop | arrays | oversized | unnamed =>
      exact hSame.trans (Function.update_of_ne (by simp) _ _).symm

def arrayPlacement (name : String) (length : Nat) (info : ArrayInfo) : Placement :=
  ⟨name, if info.kind = .big then .oversized else .arrays, info.base.getD 0, some length⟩

/-- An array takes its cells behind those of its segment or of the plane above. -/
theorem allocateArray_settles (hFault : before.space.layout.fault? = none)
    (hRow : before.space.arrays.toNat ≤ before.space.layout.arrays.extent) {ref : ArrayRef}
    (hBound : ref < before.arena.arrays.size) {length : Nat}
    (hLength : (before.arena.array ref).length = length) (hSome : 0 < length) {head : Handle}
    (hGives : (allocateArray ref head).Gives before () after) (name : String) :
    before.space.Settles after.space (arrayPlacement name length (after.arena.array ref)) := by
  have hOrdered := Layout.ordered_of_fault? hFault
  obtain ⟨-, -, hSize⟩ := hOrdered.toNat_size
  have hLimit := before.space.layout.arrays.size.toNat_lt
  have hRest := hGives.of_get_bind
  have hPositive : ¬(length : Int) ≤ 0 := by omega
  simp only [hLength, Int.toNat_natCast, if_neg hPositive, hSize, Int.ofNat_le] at hRest
  by_cases hLong : before.space.layout.arrays.extent < length
  · rw [if_neg (Nat.not_le.mpr hLong)] at hRest
    obtain ⟨_, counted, hCounts, hDescribes⟩ := hRest.exists_of_bind
    obtain ⟨-, rfl⟩ := (Gives.modify _ before).unique hCounts
    obtain ⟨-, rfl⟩ := (Gives.modify _ _).unique hDescribes
    rw [Arena.array_modifyArray _ _ _ _ hBound, if_pos rfl]
    refine ⟨rfl, (if_pos hLong).symm, rfl, trivial, ?_⟩
    funext segment
    cases segment with
    | oversized =>
        rw [arrayPlacement, if_pos rfl, Function.update_self]
        rfl
    | loop | scalars | arrays | unnamed =>
        rw [arrayPlacement, if_pos rfl, Function.update_of_ne (by simp)]
        rfl
  · rw [if_pos (Nat.not_lt.mp hLong)] at hRest
    have hCount : length.toUInt64.toNat = length := by
      rw [Nat.toUInt64, UInt64.toNat_ofNat']
      omega
    have hLeft : (before.space.layout.arrays.size - before.space.arrays).toNat =
        before.space.layout.arrays.extent - before.space.arrays.toNat := by
      rw [UInt64.toNat_sub_of_le _ _ (UInt64.le_iff_toNat_le.mpr (hSize ▸ hRow)), hSize]
    split at hRest
    · obtain ⟨_, _, hThrows, -⟩ := hRest.exists_of_bind
      cases hThrows
    rename_i hRoom
    rw [UInt64.lt_iff_toNat_lt, hCount, hLeft] at hRoom
    obtain ⟨_, placed, hPlace, hRest⟩ := hRest.exists_of_bind
    obtain ⟨_, counted, hCounts, hDescribes⟩ := hRest.exists_of_bind
    obtain ⟨-, rfl⟩ := (Gives.modify _ _).unique hCounts
    obtain ⟨-, rfl⟩ := (Gives.modify _ _).unique hDescribes
    have hKept := place_leaves _ _ _ _ _ hPlace
    simp only [chart, Prod.mk.injEq] at hKept
    obtain ⟨hLayout, hSameCount, hArrays, -⟩ := hKept
    have hMore : (placed.space.arrays + length.toUInt64).toNat =
        before.space.arrays.toNat + length := by
      have hSame : placed.space.arrays.toNat = before.space.arrays.toNat :=
        congrFun hSameCount .arrays
      rw [UInt64.toNat_add, hSame, hCount]
      omega
    rw [Arena.array_modifyArray _ _ _ _ (hArrays ▸ hBound), if_pos rfl]
    refine ⟨hLayout, (if_neg hLong).symm, ?_, ?_, ?_⟩
    · exact AddressRange.toNat_first_add hOrdered.arrays (by omega)
    · change before.space.arrays.toNat + length ≤ _
      omega
    · funext segment
      have hSame := congrFun hSameCount segment
      cases segment with
      | arrays =>
          rw [arrayPlacement, if_neg (by simp), Function.update_self]
          exact hMore
      | loop | scalars | oversized | unnamed =>
          rw [arrayPlacement, if_neg (by simp), Function.update_of_ne (by simp)]
          exact hSame

end StoreAction

/-! ### All declarations -/

namespace Generating

variable {context after : Context}

private theorem run_eq_of_ok {α : Type} {action : Generating α} {value : α}
    (hOk : (action.run.run context).1 = .ok value) :
    action.run.run context = (.ok value, (action.run.run context).2) :=
  Prod.ext hOk rfl

theorem of_get_bind {α : Type} {next : Context → Generating α} {value : α}
    (hRun : (MonadState.get >>= next).run.run context = (.ok value, after)) :
    (next context).run.run context = (.ok value, after) :=
  hRun

theorem of_onStore {α : Type} {action : StoreAction α} {value : α}
    (hRun : (onStore action).run.run context = (.ok value, after)) :
    action.Gives context.store value after.store ∧ after = { context with store := after.store } := by
  rw [Ensures.run_onStore] at hRun
  unfold StoreAction.Gives
  rcases hGives : action.run.run context.store with ⟨result, store⟩
  rw [hGives] at hRun
  cases result with
  | ok found => cases hRun; exact ⟨rfl, rfl⟩
  | error fault => cases hRun

theorem of_placing {α : Type} {name : String} {action : StoreAction α} {value : α}
    (hRun : (placing name action).run.run context = (.ok value, after)) :
    action.Gives context.store value after.store ∧ after = { context with store := after.store } := by
  rw [Ensures.run_placing] at hRun
  unfold StoreAction.Gives
  rcases hGives : action.run.run context.store with ⟨result, store⟩
  rw [hGives] at hRun
  cases result with
  | ok found => cases hRun; exact ⟨rfl, rfl⟩
  | error fault => cases hRun

structure Adds (before after : Context) (declaration : Declaration) : Prop where
  options : after.options = before.options
  settles : ∃ placement, after.placements = before.placements.push placement ∧
    (placement.name, placement.length) = (declaration.name, declaration.length) ∧
    before.store.space.Settles after.store.space placement

private theorem space_eq_of_leaves {α : Type} {action : StoreAction α} {before after : Store}
    {value : α} (hLeaves : action.Leaves StoreAction.chart)
    (hGives : action.Gives before value after) :
    after.space.layout = before.space.layout ∧ after.space.count = before.space.count := by
  have hSame := hLeaves _ _ _ hGives
  simp only [StoreAction.chart, Prod.mk.injEq] at hSame
  exact ⟨hSame.1, hSame.2.1⟩

private theorem declareScalar_adds (hFault : context.store.space.layout.fault? = none)
    {declaration : Declaration} (hScalar : declaration.length = none)
    (hRun : (declareScalar declaration.name).run.run context = (.ok (), after)) :
    Adds context after declaration := by
  obtain ⟨handle, created, hCreate, hRest⟩ := exists_of_run_bind hRun
  obtain ⟨address, placed, hPlace, hRest⟩ := exists_of_run_bind hRest
  obtain ⟨_, declared, hDeclare, hNote⟩ := exists_of_run_bind hRest
  obtain ⟨hCreateGives, hCreated⟩ := of_onStore hCreate
  obtain ⟨hPlaceGives, hPlaced⟩ := of_placing hPlace
  obtain ⟨hDeclareGives, hDeclared⟩ := of_onStore hDeclare
  cases hNote
  obtain ⟨hLayout, hCount⟩ := space_eq_of_leaves (StoreAction.create_leaves _) hCreateGives
  obtain ⟨hLayout', hCount'⟩ := space_eq_of_leaves (StoreAction.declare_leaves _ _ _) hDeclareGives
  have hSettles := StoreAction.allocate_scalars_settles (hLayout ▸ hFault) hPlaceGives
    declaration.name
  rw [hDeclared, hPlaced, hCreated]
  exact ⟨rfl, _, rfl, by rw [hScalar], hSettles.congr hLayout.symm hCount.symm hLayout' hCount'⟩

private theorem noteArray_keeps {name : String} {ref : ArrayRef} {placement : Placement}
    (hRun : (do
      onStore (StoreAction.declare name .array (.array ref))
      modify fun context : Context =>
        { context with placements := context.placements.push placement }
        : Generating Unit).run.run context = (.ok (), after)) :
    after.options = context.options ∧
      after.placements = context.placements.push placement ∧
      after.store.space.layout = context.store.space.layout ∧
      after.store.space.count = context.store.space.count := by
  obtain ⟨_, declared, hDeclare, hNote⟩ := exists_of_run_bind hRun
  obtain ⟨hDeclareGives, hDeclared⟩ := of_onStore hDeclare
  cases hNote
  obtain ⟨hLayout, hCount⟩ := space_eq_of_leaves (StoreAction.declare_leaves _ _ _) hDeclareGives
  rw [hDeclared]
  exact ⟨rfl, rfl, hLayout, hCount⟩

private theorem declareArray_adds (hFault : context.store.space.layout.fault? = none)
    (hRow : context.store.space.arrays.toNat ≤ context.store.space.layout.arrays.extent)
    {declaration : Declaration} {length : Nat} (hArray : declaration.length = some length)
    (hSome : 0 < length)
    (hRun : (declareArray declaration.name length).run.run context = (.ok (), after)) :
    Adds context after declaration := by
  obtain ⟨ref, described, hDescribe, hRest⟩ := exists_of_run_bind hRun
  obtain ⟨head, headed, hHead, hRest⟩ := exists_of_run_bind hRest
  obtain ⟨_, placed, hPlace, hRest⟩ := exists_of_run_bind hRest
  obtain ⟨hDescribeGives, hDescribed⟩ := of_onStore hDescribe
  obtain ⟨hHeadGives, hHeaded⟩ := of_onStore hHead
  obtain ⟨hPlaceGives, hPlaced⟩ := of_placing hPlace
  have hDescribe := hDescribeGives.of_get_bind
  obtain ⟨_, _, hModify, hPure⟩ := hDescribe.exists_of_bind
  obtain ⟨-, rfl⟩ := (StoreAction.Gives.modify _ _).unique hModify
  obtain ⟨rfl, hStore⟩ := (StoreAction.Gives.pure _ _).unique hPure
  have hHeadedChart := StoreAction.element_leaves _ _ _ _ _ hHeadGives
  rw [← hStore] at hHeadedChart
  simp only [StoreAction.chart, Prod.mk.injEq] at hHeadedChart
  obtain ⟨hLayout, hCount, hSize, hLengths⟩ := hHeadedChart
  have hSettles := StoreAction.allocateArray_settles (hLayout ▸ hFault)
    (by rw [hLayout]; exact (congrFun hCount .arrays).trans_le hRow)
    (by rw [hSize]; simp)
    ((congrFun hLengths _).trans (by simp [Arena.array, ArrayInfo.unplaced]))
    hSome hPlaceGives declaration.name
  have hNamed : (declaration.name, some length) = (declaration.name, declaration.length) := by
    rw [hArray]
  have hMiddle : placed.options = context.options ∧ placed.placements = context.placements := by
    rw [hPlaced, hHeaded, hDescribed]
    exact ⟨rfl, rfl⟩
  have hRest := of_get_bind hRest
  simp only at hRest
  -- An array above the segments also marks its head, which moves no counter.
  split at hRest
  · rename_i hBig
    rw [StoreAction.arrayPlacement, if_pos hBig] at hSettles
    obtain ⟨_, marked, hMark, hRest⟩ := exists_of_run_bind hRest
    obtain ⟨hMarkGives, hMarked⟩ := of_onStore hMark
    obtain ⟨hLayout', hCount'⟩ := space_eq_of_leaves (StoreAction.change_leaves _ _) hMarkGives
    obtain ⟨hOptions, hPlacements, hNoted, hNotedCount⟩ := noteArray_keeps hRest
    rw [hMarked] at hOptions hPlacements
    refine ⟨hOptions.trans hMiddle.1, _, hPlacements.trans (by rw [hMiddle.2]), hNamed, ?_⟩
    exact hSettles.congr hLayout.symm hCount.symm (hNoted.trans hLayout') (hNotedCount.trans hCount')
  · rename_i hNative
    rw [StoreAction.arrayPlacement, if_neg hNative] at hSettles
    obtain ⟨hOptions, hPlacements, hNoted, hNotedCount⟩ := noteArray_keeps hRest
    refine ⟨hOptions.trans hMiddle.1, _, hPlacements.trans (by rw [hMiddle.2]), hNamed, ?_⟩
    exact hSettles.congr hLayout.symm hCount.symm hNoted hNotedCount

/-- A declaration that is accepted is one of a scalar, or of an array of some length. -/
theorem declareName_cases {declaration : Declaration}
    (hRun : (declareName declaration).run.run context = (.ok (), after)) :
    (declaration.length = none ∧
      (declareScalar declaration.name).run.run context = (.ok (), after)) ∨
    ∃ length, declaration.length = some length ∧ 0 < length ∧
      (declareArray declaration.name length).run.run context = (.ok (), after) := by
  have hRest := of_get_bind hRun
  simp only at hRest
  split at hRest
  · obtain ⟨_, _, hRefuses, -⟩ := exists_of_run_bind hRest
    cases hRefuses
  cases hLength : declaration.length with
  | none =>
      simp only [hLength] at hRest
      exact .inl ⟨rfl, hRest⟩
  | some length =>
      simp only [hLength] at hRest
      split at hRest
      · obtain ⟨_, _, hRefuses, -⟩ := exists_of_run_bind hRest
        cases hRefuses
      · rename_i hSome
        exact .inr ⟨length, rfl, Nat.pos_of_ne_zero hSome, hRest⟩

/-- A declaration that is accepted adds a placement. -/
theorem declareName_adds (hFault : context.store.space.layout.fault? = none)
    (hRow : context.store.space.arrays.toNat ≤ context.store.space.layout.arrays.extent)
    {declaration : Declaration}
    (hRun : (declareName declaration).run.run context = (.ok (), after)) :
    Adds context after declaration := by
  rcases declareName_cases hRun with ⟨hLength, hScalar⟩ | ⟨length, hLength, hPositive, hArray⟩
  · exact declareScalar_adds hFault hLength hScalar
  · exact declareArray_adds hFault hRow hLength hPositive hArray

end Generating

namespace Context

structure Charted (context : Context) (declarations : List Declaration) : Prop where
  layout : context.store.space.layout = context.options.layout
  charts : context.store.space.Charts context.placements.toList
  names : context.placements.toList.map (fun placement => (placement.name, placement.length)) =
    declarations.map fun declaration => (declaration.name, declaration.length)

theorem charted_empty (options : GeneratorOptions) : (Context.empty options).Charted [] :=
  ⟨rfl, .empty options.layout, rfl⟩

variable {context after : Context}

private theorem Charted.add {done : List Declaration} {declaration : Declaration}
    (hCharted : context.Charted done) (hAdds : Generating.Adds context after declaration) :
    after.Charted (done ++ [declaration]) := by
  obtain ⟨hOptions, placement, hPlacements, hName, hSettles⟩ := hAdds
  refine ⟨by rw [hSettles.layout, hCharted.layout, hOptions], ?_, ?_⟩
  · rw [hPlacements, Array.toList_push]
    exact hCharted.charts.settle hSettles
  · rw [hPlacements, Array.toList_push, List.map_append, List.map_append, hCharted.names]
    exact congrArg (fun last => _ ++ [last]) hName

/-- What one declaration keeps, all of them keep. -/
theorem Charted.addAll {declarations done : List Declaration} (hCharted : context.Charted done)
    (hFault : context.options.layout.fault? = none)
    (hRun : (Generating.declareAll declarations).run.run context = (.ok (), after)) :
    after.options = context.options ∧ after.Charted (done ++ declarations) := by
  induction declarations generalizing context done with
  | nil =>
      cases hRun
      rw [List.append_nil]
      exact ⟨rfl, hCharted⟩
  | cons declaration rest inductionHypothesis =>
      obtain ⟨_, middle, hFirst, hRest⟩ := Generating.exists_of_run_bind hRun
      have hAdds := Generating.declareName_adds (hCharted.layout ▸ hFault) hCharted.charts.arrays hFirst
      obtain ⟨hOptions, hAfter⟩ :=
        inductionHypothesis (hCharted.add hAdds) (hAdds.options ▸ hFault) hRest
      rw [List.append_assoc] at hAfter
      exact ⟨hOptions.trans hAdds.options, hAfter⟩

private theorem exists_of_declareAll_append {first rest : List Declaration}
    (hRun : (Generating.declareAll (first ++ rest)).run.run context = (.ok (), after)) :
    ∃ middle, (Generating.declareAll first).run.run context = (.ok (), middle) := by
  induction first generalizing context with
  | nil => exact ⟨context, rfl⟩
  | cons declaration more inductionHypothesis =>
      obtain ⟨_, middle, hFirst, hMore⟩ := Generating.exists_of_run_bind hRun
      obtain ⟨last, hLast⟩ := inductionHypothesis hMore
      refine ⟨last, ?_⟩
      simp only [Generating.declareAll, ExceptT.run_bind, StateT.run_bind, hFirst]
      exact hLast

/-- Declared names have cells of their own, inside the segments they are said to be in, and no
count made on the way wraps around. -/
theorem declared_cells_apart {options : GeneratorOptions} (hFault : options.layout.fault? = none)
    {declarations : List Declaration}
    (hRun : (Generating.declareAll declarations).run.run (.empty options) = (.ok (), after)) :
    let placements := after.placements.toList
    placements.map (fun placement => (placement.name, placement.length)) =
        declarations.map (fun declaration => (declaration.name, declaration.length)) ∧
      placements.Pairwise Placement.Apart ∧
      (∀ placement ∈ placements,
        (placement.segment = .scalars ↔ placement.length = none) ∧
        (placement.segment = .oversized ↔
          ∃ length, placement.length = some length ∧ options.layout.arrays.extent < length) ∧
        ∀ cell, placement.Covers cell → ¬options.layout.Encloses cell .loop ∧
          options.layout.Encloses cell placement.segment ∧
          options.layout.classify cell = some placement.segment) ∧
      ∀ first rest, declarations = first ++ rest → ∃ middle,
        (Generating.declareAll first).run.run (.empty options) = (.ok (), middle) ∧
          middle.store.space.layout = options.layout ∧ middle.store.space.Exact ∧
          ∀ segment, middle.store.space.count segment = ((middle.placements.toList.filter
            fun placement => placement.segment = segment).map Placement.extent).sum := by
  obtain ⟨hOptions, hCharted⟩ := (charted_empty options).addAll hFault hRun
  have hLayout : after.store.space.layout = options.layout := by
    rw [hCharted.layout, hOptions]
    rfl
  have hSound : after.store.space.layout.fault? = none := hLayout ▸ hFault
  refine ⟨hCharted.names, hCharted.charts.apart hSound, ?_, ?_⟩
  · intro placement hPlacement
    have hSegment := hCharted.charts.segments placement hPlacement
    rw [hLayout] at hSegment
    refine ⟨hSegment ▸ Layout.segmentOf_eq_scalars_iff,
      hSegment ▸ Layout.segmentOf_eq_oversized_iff, fun cell hCovers => ?_⟩
    have hEncloses := hCharted.charts.encloses hSound hPlacement hCovers
    rw [hLayout] at hEncloses
    refine ⟨fun hLoop => ?_, hEncloses, Layout.classify_of_encloses hFault hEncloses⟩
    have hSame := Layout.segment_eq_of_encloses hFault hEncloses hLoop
    exact Layout.segmentOf_ne_loop _ _ (hSegment.symm.trans hSame)
  · rintro first rest rfl
    obtain ⟨middle, hMiddle⟩ := exists_of_declareAll_append hRun
    obtain ⟨hSame, hDone⟩ := (charted_empty options).addAll hFault hMiddle
    have hMiddleLayout : middle.store.space.layout = options.layout := by
      rw [hDone.layout, hSame]
      rfl
    exact ⟨middle, hMiddle, hMiddleLayout, hDone.charts.exact (hMiddleLayout ▸ hFault),
      hDone.charts.total⟩

/-- One loop cell, one scalar, and arrays up to the last address there is. -/
def fullOptions : GeneratorOptions where
  registers := 5
  layout := ⟨⟨0, 0⟩, ⟨1, 1⟩, ⟨2, 18446744073709551615⟩, some 18446744073709551616⟩
  propagate := false

def fullDeclarations : List Declaration :=
  [⟨default, "long", some 18446744073709551615⟩, ⟨default, "t", some 18446744073709551614⟩,
    ⟨default, "x", none⟩]

theorem full_cells_apart :
    fullOptions.layout.fault? = none ∧
      ∃ after, (Generating.declareAll fullDeclarations).run.run (.empty fullOptions) =
          (.ok (), after) ∧
        after.placements.toList =
          [⟨"long", .oversized, 18446744073709551616, some 18446744073709551615⟩,
            ⟨"t", .arrays, 2, some 18446744073709551614⟩, ⟨"x", .scalars, 1, none⟩] ∧
        after.placements.toList.Pairwise Placement.Apart := by
  have hRun : ((Generating.declareAll fullDeclarations).run.run (.empty fullOptions)).1 =
      .ok () := by decide +kernel
  have hFault : fullOptions.layout.fault? = none := by decide
  have hWhole := Generating.run_eq_of_ok hRun
  exact ⟨hFault, _, hWhole, by decide +kernel, (declared_cells_apart hFault hWhole).2.1⟩

end Context

end RegisterCompiler
