/-
A ledger of the cells that are given away.

A grant is a row of cells that a call gave away.  The ledger lists the grants that are not taken
back, newest first, and is kept from the calls and their answers.  It tells which cells have
owners, and what each call adds or takes away, with the counters.
-/

import Mathlib.Data.List.Nodup
import RegisterCompiler.Proofs.Store.Ownership

set_option autoImplicit false

namespace RegisterCompiler

structure Grant where
  segment : Segment
  start : Nat
  length : Nat
deriving DecidableEq

namespace Grant

def Covers (grant : Grant) (cell : Nat) : Prop :=
  grant.start ≤ cell ∧ cell < grant.start + grant.length

def Apart (first second : Grant) : Prop :=
  ∀ cell, ¬(first.Covers cell ∧ second.Covers cell)

theorem apart_of_le {first second : Grant}
    (hOrder : first.start + first.length ≤ second.start ∨
      second.start + second.length ≤ first.start) : first.Apart second := by
  rintro cell ⟨⟨hLow, hHigh⟩, hFrom, hTo⟩
  omega

theorem apart_of_start_ne {first second : Grant} (hFirst : first.length = 1)
    (hSecond : second.length = 1) (hStart : first.start ≠ second.start) : first.Apart second := by
  apply apart_of_le
  omega

def ofArray (info : ArrayInfo) : Grant where
  segment := if info.kind = .big then .oversized else .arrays
  start := info.base.getD 0
  length := info.length.toNat

end Grant

/-! ### Segments -/

namespace Store

def origin (store : Store) : Segment → Nat
  | .loop => store.space.layout.loop.first.toNat
  | .scalars => store.space.layout.scalars.first.toNat
  | .arrays => store.space.layout.arrays.first.toNat
  | .oversized => store.space.layout.oversizedStart
  | .unnamed _ => 0

def counter (store : Store) : Segment → Nat
  | .scalars => store.space.scalars.toNat
  | .arrays => store.space.arrays.toNat
  | .oversized => store.space.oversized
  | .loop | .unnamed _ => 0

/-- The end of the cells of a segment that can be given away. -/
def bound (store : Store) : Segment → Nat
  | .loop => store.space.layout.loop.last.toNat + 1
  | .scalars => store.space.layout.scalars.last.toNat + 1
  | .arrays => store.space.layout.arrays.last.toNat + 1
  | .oversized => store.space.layout.oversizedStart + store.space.oversized
  | .unnamed _ => 0

/-- The segments follow each other; those without a name have no cells. -/
theorem bound_le_origin {store : Store} (hLayout : store.space.layout.Ordered)
    {first second : Segment} (hDifferent : first ≠ second) :
    store.bound first ≤ store.origin second ∨ store.bound second ≤ store.origin first ∨
      store.bound first = 0 ∨ store.bound second = 0 := by
  obtain ⟨hLoop, hLoopScalars, hScalars, hScalarsArrays, hArrays, hOversized⟩ := hLayout
  cases first <;> cases second <;> first
    | exact absurd rfl hDifferent
    | simp only [origin, bound]
      omega

theorem origin_congr {before after : Store} (hLayout : after.space.layout = before.space.layout)
    (segment : Segment) : after.origin segment = before.origin segment := by
  unfold origin
  rw [hLayout]

def isUnplaced (store : Store) (handle : Handle) : Bool :=
  (store.arena.get? handle).any fun value => value.chunk.isNone

theorem isUnplaced_iff {store : Store} {handle : Handle} : store.isUnplaced handle = true ↔
    ∃ value, store.arena.get? handle = some value ∧ value.chunk = none := by
  simp only [isUnplaced, Option.any_eq_true, Option.isNone_iff_eq_none]

end Store

namespace Grant

/-- A grant that lies in its segment, of one cell unless it is an array. -/
structure Within (grant : Grant) (store : Store) : Prop where
  low : store.origin grant.segment ≤ grant.start
  high : grant.start + grant.length ≤ store.bound grant.segment
  positive : 0 < grant.length
  single : grant.segment = .loop ∨ grant.segment = .scalars → grant.length = 1

namespace Within

variable {store : Store} {first second : Grant} (hFirst : first.Within store)
  (hSecond : second.Within store) (hLayout : store.space.layout.Ordered)

include hFirst hSecond hLayout

theorem apart_of_segment_ne (hSegment : first.segment ≠ second.segment) : first.Apart second := by
  have hLow := hFirst.low
  have hHigh := hFirst.high
  have hFrom := hSecond.low
  have hTo := hSecond.high
  have hSome := hFirst.positive
  have hMore := hSecond.positive
  have hOrder := Store.bound_le_origin hLayout hSegment
  apply apart_of_le
  omega

theorem segment_eq_of_start_eq (hStart : first.start = second.start) :
    first.segment = second.segment := by
  apply Classical.byContradiction
  intro hSegment
  have hSome := hFirst.positive
  have hMore := hSecond.positive
  apply hFirst.apart_of_segment_ne hSecond hLayout hSegment first.start
  unfold Covers
  omega

omit hSecond in
private theorem contains_iff {address : Address} (hStart : first.start = address.toNat) :
    (store.space.layout.loop.contains address = true ↔ first.segment = .loop) ∧
      (store.space.layout.scalars.contains address = true ↔ first.segment = .scalars) ∧
      (store.space.layout.arrays.contains address = true ↔ first.segment = .arrays) := by
  obtain ⟨hLow, hHigh, hPositive, -⟩ := hFirst
  obtain ⟨hLoop, hLoopScalars, hScalars, hScalarsArrays, hArrays, hOversized⟩ := hLayout
  rw [hStart] at hLow hHigh
  simp only [AddressRange.contains_iff]
  cases hKind : first.segment <;>
    simp only [hKind, Store.origin, Store.bound] at hLow hHigh <;>
    simp only [reduceCtorEq, iff_true, iff_false] <;> omega

end Within

end Grant

/-! ### Ledgers -/

namespace SpaceCall

/-- The cells that a call computes, if it asks for cells of a value that has none, or for cells
above the segments, and there is room for them. -/
def demand? (store : Store) : SpaceCall → Option Grant
  | .allocate segment handle =>
      if store.isUnplaced handle then
        (store.space.next? segment).map fun address => ⟨segment, address.toNat, 1⟩
      else none
  | .allocateArray ref head =>
      let info := store.arena.array ref
      let arrays := store.space.layout.arrays
      if info.length ≤ 0 then none
      else if arrays.size.toNat < info.length then
        some ⟨.oversized, store.space.layout.oversizedStart + store.space.oversized,
          info.length.toNat⟩
      else if store.isUnplaced head ∧
          store.space.arrays.toNat + info.length.toNat ≤ arrays.size.toNat then
        some ⟨.arrays, arrays.first.toNat + store.space.arrays.toNat, info.length.toNat⟩
      else none
  | _ => none

/-- The ledger after a call that succeeded with an answer and left a store behind. -/
def record (ledger : List Grant) (after : Store) : SpaceCall → Option Address → List Grant
  | .allocate segment _, some address => ⟨segment, address.toNat, 1⟩ :: ledger
  | .allocateRun segment handles, some start =>
      (List.range handles.length).map (fun step => ⟨segment, start.toNat + step, 1⟩) ++ ledger
  | .allocateArray ref _, _ => .ofArray (after.arena.array ref) :: ledger
  | .free address, _ => ledger.filter fun grant => grant.start ≠ address.toNat
  | .freeLoop, _ => ledger.filter fun grant => grant.segment ≠ .loop
  | _, _ => ledger

def enter (state : Store × List Grant) (call : SpaceCall) : Store × List Grant :=
  match call.action.run.run state.1 with
  | (.ok answer, after) => (after, record state.2 after call answer)
  | (.error _, after) => (after, state.2)

theorem enter_of_gives {store after : Store} {call : SpaceCall} {answer : Option Address}
    (hGives : call.action.Gives store answer after) (ledger : List Grant) :
    enter (store, ledger) call = (after, record ledger after call answer) := by
  unfold enter
  rw [hGives]

private theorem enter_of_refuses {store : Store} {call : SpaceCall} {fault : StoreFault}
    (hRefuses : call.action.Refuses store fault) (ledger : List Grant) :
    enter (store, ledger) call = (store, ledger) := by
  unfold enter
  rw [hRefuses]

end SpaceCall

/-- A ledger that tells which cells of a store have owners. -/
structure Accounts (ledger : List Grant) (store : Store) : Prop where
  apportioned : store.Apportioned
  owned : ∀ address : Address, (store.space.chunks.get? address).isSome = true ↔
    ∃ grant ∈ ledger, grant.segment ≠ .oversized ∧ grant.start = address.toNat
  within : ∀ grant ∈ ledger, grant.Within store
  lengths : ∀ grant ∈ ledger, grant.segment = .arrays → ∀ address : Address,
    address.toNat = grant.start → store.cellsAt address = grant.length

theorem accounts_empty {layout : Layout} (hValid : layout.fault? = none) (registers : Nat) :
    Accounts [] (.empty layout registers) where
  apportioned := Store.apportioned_empty hValid registers
  owned := fun address => by simp [Store.empty]
  within := fun _ hMem => absurd hMem List.not_mem_nil
  lengths := fun _ hMem => absurd hMem List.not_mem_nil

theorem Grant.Within.mono {grant : Grant} {before after : Store} (hWithin : grant.Within before)
    (hLayout : after.space.layout = before.space.layout)
    (hOversized : before.space.oversized ≤ after.space.oversized) : grant.Within after := by
  obtain ⟨hLow, hHigh, hPositive, hSingle⟩ := hWithin
  refine ⟨?_, ?_, hPositive, hSingle⟩
  · rw [Store.origin_congr hLayout]
    exact hLow
  · refine Nat.le_trans hHigh ?_
    cases grant.segment <;> simp only [Store.bound, hLayout] <;> omega

namespace Accounts

variable {ledger : List Grant} {store after : Store}

private theorem extend (hAccounts : Accounts ledger store) (hAfter : after.Apportioned)
    (hLayout : after.space.layout = store.space.layout)
    (hOversized : store.space.oversized ≤ after.space.oversized) {grants : List Grant}
    (hOwned : ∀ address : Address, (after.space.chunks.get? address).isSome = true ↔
      (∃ grant ∈ grants, grant.segment ≠ .oversized ∧ grant.start = address.toNat) ∨
        (store.space.chunks.get? address).isSome = true)
    (hWithin : ∀ grant ∈ grants, grant.Within after)
    (hCells : ∀ address, (store.space.chunks.get? address).isSome = true →
      after.cellsAt address = store.cellsAt address)
    (hLengths : ∀ grant ∈ grants, grant.segment = .arrays → ∀ address : Address,
      address.toNat = grant.start → after.cellsAt address = grant.length) :
    Accounts (grants ++ ledger) after where
  apportioned := hAfter
  owned := by
    intro address
    rw [hOwned, hAccounts.owned]
    simp only [List.mem_append, or_and_right, exists_or]
  within := by
    intro grant hGrant
    rcases List.mem_append.mp hGrant with hNew | hOld
    · exact hWithin grant hNew
    · exact (hAccounts.within grant hOld).mono hLayout hOversized
  lengths := by
    intro grant hGrant hSegment address hStart
    rcases List.mem_append.mp hGrant with hNew | hOld
    · exact hLengths grant hNew hSegment address hStart
    · have hTaken : (store.space.chunks.get? address).isSome = true :=
        (hAccounts.owned address).mpr ⟨grant, hOld, by rw [hSegment]; simp, hStart.symm⟩
      rw [hCells address hTaken]
      exact hAccounts.lengths grant hOld hSegment address hStart

private theorem release (hAccounts : Accounts ledger store) {address : Address} {handle : Handle}
    (hOwner : store.space.chunks.get? address = some handle)
    (hFrees : Store.Frees address handle store after) :
    Accounts (ledger.filter fun grant => grant.start ≠ address.toNat) after where
  apportioned := hFrees.apportioned hAccounts.apportioned hOwner
  owned := by
    intro place
    have hOwned := hAccounts.owned place
    rw [hFrees.chunks, OrderedMap.get?_erase]
    simp only [List.mem_filter, decide_eq_true_eq]
    by_cases hPlace : place = address
    · rw [if_pos hPlace, hPlace]
      constructor
      · intro hNone
        contradiction
      · rintro ⟨grant, ⟨-, hElsewhere⟩, -, hHere⟩
        exact absurd hHere hElsewhere
    · rw [if_neg hPlace, hOwned]
      constructor
      · rintro ⟨grant, hGrant, hSegment, hStart⟩
        refine ⟨grant, ⟨hGrant, ?_⟩, hSegment, hStart⟩
        rw [hStart]
        exact fun hSame => hPlace (UInt64.toNat_inj.mp hSame)
      · rintro ⟨grant, ⟨hGrant, -⟩, hSegment, hStart⟩
        exact ⟨grant, hGrant, hSegment, hStart⟩
  within := by
    intro grant hGrant
    have hOld := hAccounts.within grant (List.mem_filter.mp hGrant).1
    exact hOld.mono hFrees.layout (Nat.le_of_eq hFrees.oversized.symm)
  lengths := by
    intro grant hGrant hSegment place hStart
    obtain ⟨hOld, hElsewhere⟩ := List.mem_filter.mp hGrant
    rw [decide_eq_true_eq, ← hStart] at hElsewhere
    have hPlace : place ≠ address := fun hSame => hElsewhere (congrArg UInt64.toNat hSame)
    rw [← hAccounts.lengths grant hOld hSegment place hStart]
    apply Store.cellsAt_congr
    · rw [hFrees.heads, if_neg hPlace]
    · intro ref _
      rw [hFrees.described]
      split <;> rfl

end Accounts

/-! ### Rows of loop cells -/

theorem Store.row_addresses (start : Address) (handles : List Handle) :
    (Store.row start 0 handles).map Prod.fst =
      (List.range handles.length).map fun step => start + step.toUInt64 := by
  have hSteps : (handles.zipIdx 0).map Prod.snd = List.range handles.length := by
    rw [List.zipIdx_map_snd, List.range_eq_range']
  rw [Store.row, List.map_map, ← hSteps, List.map_map]
  rfl

private theorem Space.findRun_zero {chunks : OrderedMap Address Handle} {range : AddressRange}
    (hLast : range.last.toNat + 1 < UInt64.size) {count : UInt64} (hCount : count.toNat = 0)
    (fuel : Nat) (start : Address) : Space.findRun chunks range count fuel start = none := by
  cases fuel with
  | zero => rfl
  | succ fuel =>
      have hOne : (1 : UInt64).toNat = 1 := rfl
      have hStart := start.toNat_lt
      have hWord : UInt64.size = 2 ^ 64 := rfl
      have hOutside : ¬(start + count - 1 ≤ range.last ∧ start ≤ start + count - 1) := by
        rw [UInt64.le_iff_toNat_le, UInt64.le_iff_toNat_le, UInt64.toNat_sub, UInt64.toNat_add]
        omega
      rw [findRun, if_neg]
      simpa using hOutside

namespace SpaceCall.Found

variable {store : Store} {handles : List Handle} {start : Address}

private theorem spread (hFound : Found store handles start) (hLayout : store.space.layout.Ordered) :
    store.space.layout.loop.first.toNat ≤ start.toNat ∧
      start.toNat + handles.length ≤ store.space.layout.loop.last.toNat + 1 := by
  have hLast : store.space.layout.loop.last.toNat + 1 < UInt64.size := by
    have hOrder := hLayout.loopScalars
    exact Nat.lt_of_le_of_lt hOrder store.space.layout.scalars.first.toNat_lt
  -- the addresses are distinct, so there are not more than there are words
  have hFew : handles.length ≤ 2 ^ 64 := by
    apply Classical.byContradiction
    intro hMany
    have hDistinct := hFound.claimable.addresses
    rw [Store.row_addresses] at hDistinct
    have hSame : start + (0 : Nat).toUInt64 = start + (2 ^ 64).toUInt64 := rfl
    have hZero := List.inj_on_of_nodup_map hDistinct (List.mem_range.mpr (by omega))
      (List.mem_range.mpr (by omega)) hSame
    contradiction
  have hCount : handles.length.toUInt64.toNat = handles.length % 2 ^ 64 := rfl
  have hSome : handles.length.toUInt64.toNat ≠ 0 := by
    intro hNone
    have hNothing := hFound.found
    rw [Space.findRun_zero hLast hNone] at hNothing
    contradiction
  have hShort : handles.length.toUInt64.toNat = handles.length := by
    rw [hCount] at hSome ⊢
    apply Nat.mod_eq_of_lt
    apply Nat.lt_of_le_of_ne hFew
    intro hFull
    rw [hFull, Nat.mod_self] at hSome
    exact hSome rfl
  obtain ⟨hLow, hHigh, -⟩ := Space.findRun_spec (Nat.pos_of_ne_zero hSome) (Nat.le_refl _)
    hFound.found
  rw [hShort] at hHigh
  exact ⟨hLow, hHigh⟩

private theorem toNat_step (hFound : Found store handles start)
    (hLayout : store.space.layout.Ordered) {step : Nat} (hStep : step < handles.length) :
    (start + step.toUInt64).toNat = start.toNat + step := by
  have hSpread := hFound.spread hLayout
  have hLimit := store.space.layout.loop.last.toNat_lt
  rw [UInt64.toNat_add, Nat.toUInt64, UInt64.toNat_ofNat']
  omega

end SpaceCall.Found

namespace Accounts

variable {ledger : List Grant} {store after : Store}

private theorem row (hAccounts : Accounts ledger store) {handles : List Handle} {start : Address}
    (hFound : SpaceCall.Found store handles start) :
    Accounts ((List.range handles.length).map (fun step => ⟨.loop, start.toNat + step, 1⟩) ++
      ledger) (store.claimAll (Store.row start 0 handles)) := by
  have hLayout := hAccounts.apportioned.layout
  have hSame := store.sameCounts_claimAll (Store.row start 0 handles)
  obtain ⟨hLow, hHigh⟩ := hFound.spread hLayout
  refine hAccounts.extend (hAccounts.apportioned.claimAll hFound.claimable) hSame.layout
    (Nat.le_of_eq hSame.oversized.symm) ?_ ?_ ?_ ?_
  · intro address
    rw [Store.isSome_claimAll_iff, Store.row_addresses]
    refine or_congr_left ?_
    simp only [List.mem_map, List.mem_range, exists_exists_and_eq_and]
    constructor
    · rintro ⟨step, hStep, rfl⟩
      exact ⟨step, hStep, by simp, (hFound.toNat_step hLayout hStep).symm⟩
    · rintro ⟨step, hStep, -, hStart⟩
      refine ⟨step, hStep, UInt64.toNat_inj.mp ?_⟩
      rw [hFound.toNat_step hLayout hStep]
      exact hStart
  · intro grant hGrant
    obtain ⟨step, hStep, rfl⟩ := List.mem_map.mp hGrant
    rw [List.mem_range] at hStep
    refine ⟨?_, ?_, Nat.one_pos, fun _ => rfl⟩
    · simp only [Store.origin, hSame.layout]
      omega
    · simp only [Store.bound, hSame.layout]
      omega
  · intro address _
    apply Store.cellsAt_congr
    · rw [hSame.heads]
    · intro ref _
      rw [Arena.array_congr hSame.described]
  · intro grant hGrant hSegment
    obtain ⟨step, -, rfl⟩ := List.mem_map.mp hGrant
    contradiction

end Accounts

/-! ### Demands -/

/-- The next cell of a segment is the one that its counter points at. -/
theorem Store.toNat_of_next? {store : Store} {segment : Segment} {address : Address}
    (hLayout : store.space.layout.Ordered) (hNext : store.space.next? segment = some address) :
    address.toNat = store.origin segment + store.counter segment ∧
      address.toNat < store.bound segment := by
  rcases Store.next?_eq_some hNext with ⟨rfl, hRoom, rfl⟩ | ⟨rfl, hRoom, rfl⟩
  · obtain ⟨hPlace, hLast⟩ := AddressRange.toNat_first_add_of_lt_size
      (Nat.zero_lt_of_lt hLayout.loopScalars) hLayout.scalars (UInt64.lt_iff_toNat_lt.mp hRoom)
    exact ⟨hPlace, Nat.lt_succ_of_le hLast⟩
  · obtain ⟨hPlace, hLast⟩ := AddressRange.toNat_first_add_of_lt_size
      (Nat.zero_lt_of_lt hLayout.scalarsArrays) hLayout.arrays (UInt64.lt_iff_toNat_lt.mp hRoom)
    exact ⟨hPlace, Nat.lt_succ_of_le hLast⟩

theorem Store.Fits.toNat_start {store : Store} {ref : ArrayRef} (hFits : store.Fits ref)
    (hLayout : store.space.layout.Ordered) :
    (store.space.layout.arrays.first + store.space.arrays).toNat =
      store.space.layout.arrays.first.toNat + store.space.arrays.toNat := by
  have hPositive := hFits.positive
  have hRoom := hFits.room
  exact (AddressRange.toNat_first_add_of_lt_size (Nat.zero_lt_of_lt hLayout.scalarsArrays)
    hLayout.arrays (by omega)).1

namespace SpaceCall

inductive Asks (store : Store) : SpaceCall → Grant → Prop where
  | next {segment : Segment} {handle : Handle} {address : Address}
      (hUnplaced : store.isUnplaced handle = true)
      (hNext : store.space.next? segment = some address) :
      Asks store (.allocate segment handle) ⟨segment, address.toNat, 1⟩
  | native {ref : ArrayRef} {head : Handle} (hUnplaced : store.isUnplaced head = true)
      (hFits : store.Fits ref) :
      Asks store (.allocateArray ref head) ⟨.arrays,
        store.space.layout.arrays.first.toNat + store.space.arrays.toNat,
        (store.arena.array ref).length.toNat⟩
  | big {ref : ArrayRef} {head : Handle}
      (hLong : (store.space.layout.arrays.size.toNat : Int) < (store.arena.array ref).length) :
      Asks store (.allocateArray ref head) ⟨.oversized,
        store.space.layout.oversizedStart + store.space.oversized,
        (store.arena.array ref).length.toNat⟩

variable {store : Store} {call : SpaceCall} {grant : Grant}

theorem demand?_eq_some_iff : demand? store call = some grant ↔ Asks store call grant := by
  constructor
  · intro hDemand
    cases call with
    | allocate segment handle =>
        rw [demand?, Option.ite_none_right_eq_some] at hDemand
        obtain ⟨hUnplaced, hNext⟩ := hDemand
        obtain ⟨address, hAddress, rfl⟩ := Option.map_eq_some_iff.mp hNext
        exact .next hUnplaced hAddress
    | allocateArray ref head =>
        simp only [demand?] at hDemand
        split at hDemand
        · contradiction
        · rename_i hPositive
          split at hDemand
          · rename_i hLong
            cases hDemand
            exact .big hLong
          · rw [Option.ite_none_right_eq_some] at hDemand
            obtain ⟨⟨hUnplaced, hRoom⟩, hGrant⟩ := hDemand
            cases hGrant
            exact .native hUnplaced ⟨by omega, hRoom⟩
    | allocateRun segment handles => contradiction
    | free address => contradiction
    | freeLoop => contradiction
    | createArray name length => contradiction
    | values call => contradiction
  · intro hAsks
    cases hAsks with
    | next hUnplaced hNext =>
        rw [demand?, if_pos hUnplaced, hNext, Option.map_some]
    | native hUnplaced hFits =>
        have hPositive := hFits.positive
        have hRoom := hFits.room
        simp only [demand?]
        rw [if_neg (by omega), if_neg (by omega), if_pos ⟨hUnplaced, hRoom⟩]
    | big hLong =>
        simp only [demand?]
        rw [if_neg (by omega), if_pos hLong]

namespace Asks

theorem start_eq (hAsks : Asks store call grant) (hLayout : store.space.layout.Ordered) :
    grant.start = store.origin grant.segment + store.counter grant.segment := by
  cases hAsks with
  | next hUnplaced hNext => exact (Store.toNat_of_next? hLayout hNext).1
  | native hUnplaced hFits => rfl
  | big hLong => rfl

/-- Cells that are asked for lie in their segment, once those above the segments are counted. -/
theorem within (hAsks : Asks store call grant) (hLayout : store.space.layout.Ordered)
    {after : Store} (hSame : after.space.layout = store.space.layout)
    (hOversized : grant.segment = .oversized →
      store.space.oversized + grant.length ≤ after.space.oversized) : grant.Within after := by
  have hLow : after.origin grant.segment ≤ grant.start := by
    rw [hAsks.start_eq hLayout, Store.origin_congr hSame]
    exact Nat.le_add_right _ _
  cases hAsks with
  | next hUnplaced hNext =>
      have hHigh := (Store.toNat_of_next? hLayout hNext).2
      refine ⟨hLow, ?_, Nat.one_pos, fun _ => rfl⟩
      rcases Store.next?_eq_some hNext with ⟨rfl, -⟩ | ⟨rfl, -⟩
      all_goals
        simp only [Store.bound, hSame] at hHigh ⊢
        exact hHigh
  | native hUnplaced hFits =>
      have hPositive := hFits.positive
      have hRoom := hFits.room
      have hSize := hLayout.toNat_size_arrays
      have hOrder := hLayout.arrays
      refine ⟨hLow, ?_, by simp only; omega, fun hSingle => by simp at hSingle⟩
      simp only [Store.bound, hSame]
      omega
  | big hLong =>
      have hCounted := hOversized rfl
      refine ⟨hLow, ?_, by simp only; omega, fun hSingle => by simp at hSingle⟩
      simp only [Store.bound, hSame] at hCounted ⊢
      omega

end Asks

end SpaceCall

/-! ### Entries -/

namespace SpaceCall

/-- What a call that succeeds does to a ledger and the counters: it enters the cells that it
computed, takes a grant away, or changes nothing but loop cells. -/
inductive Entry (ledger : List Grant) (store after : Store) : SpaceCall → List Grant → Prop where
  | granted {call : SpaceCall} {grant : Grant} (hAsks : Asks store call grant)
      (hCounter : ∀ segment, after.counter segment =
        store.counter segment + if segment = grant.segment then grant.length else 0) :
      Entry ledger store after call (grant :: ledger)
  | freed {address : Address} {grant : Grant} (hGrant : grant ∈ ledger)
      (hSegment : grant.segment ≠ .oversized) (hStart : grant.start = address.toNat)
      (hCounter : ∀ segment, after.counter segment =
        store.counter segment - if segment = grant.segment then grant.length else 0) :
      Entry ledger store after (.free address)
        (ledger.filter fun held => held.start ≠ address.toNat)
  | other {call : SpaceCall} {entered : List Grant}
      (hSame : entered.filter (fun held => held.segment ≠ .loop) =
        ledger.filter fun held => held.segment ≠ .loop)
      (hCounter : ∀ segment, after.counter segment = store.counter segment) :
      Entry ledger store after call entered

variable {ledger : List Grant} {store after : Store}

structure Step (ledger : List Grant) (store after : Store) (call : SpaceCall)
    (entered : List Grant) : Prop where
  layout : after.space.layout = store.space.layout
  accounts : Accounts entered after
  entry : Entry ledger store after call entered

private theorem counter_congr (hSame : Store.SameCounts store after) (segment : Segment) :
    after.counter segment = store.counter segment := by
  cases segment <;> simp only [Store.counter, hSame.scalars, hSame.arrays, hSame.oversized]

private theorem isSome_get?_set_iff (chunks : OrderedMap Address Handle) (address place : Address)
    (handle : Handle) {grant : Grant} (hSegment : grant.segment ≠ .oversized)
    (hStart : grant.start = address.toNat) :
    ((chunks.set address handle).get? place).isSome = true ↔
      (∃ held ∈ [grant], held.segment ≠ .oversized ∧ held.start = place.toNat) ∨
        (chunks.get? place).isSome = true := by
  rw [OrderedMap.get?_set]
  by_cases hPlace : place = address
  · simp [hPlace, hSegment, hStart]
  · have hOther : address.toNat ≠ place.toNat := fun hSame =>
      hPlace (UInt64.toNat_inj.mp hSame).symm
    simp [hPlace, hStart, hOther]

private theorem cellsAt_of_open (hStore : store.Apportioned) {address : Address} {handle : Handle}
    (hOpen : store.Open address handle) : store.cellsAt address = 1 := by
  have hHeadless : store.space.heads.get? address = none := by
    rw [Option.eq_none_iff_forall_ne_some]
    intro ref hHead
    have hOwned := (hStore.headed address ref hHead).2.1
    rw [hOpen.vacant] at hOwned
    contradiction
  rw [Store.cellsAt, hHeadless]

/-- A cell that had no owner is given to a value. -/
theorem step_granted (hAccounts : Accounts ledger store) {call : SpaceCall} {grant : Grant}
    {address : Address} {handle : Handle} (hAfter : after.Apportioned)
    (hLayout : after.space.layout = store.space.layout)
    (hOversized : after.space.oversized = store.space.oversized)
    (hChunks : after.space.chunks = store.space.chunks.set address handle)
    (hVacant : store.space.chunks.get? address = none) (hSegment : grant.segment ≠ .oversized)
    (hStart : grant.start = address.toNat) (hAsks : Asks store call grant)
    (hCells : ∀ place, place ≠ address → after.cellsAt place = store.cellsAt place)
    (hLength : grant.segment = .arrays → after.cellsAt address = grant.length)
    (hCounter : ∀ segment, after.counter segment =
      store.counter segment + if segment = grant.segment then grant.length else 0) :
    Step ledger store after call (grant :: ledger) := by
  refine ⟨hLayout, ?_, .granted hAsks hCounter⟩
  refine @Accounts.extend _ _ _ hAccounts hAfter hLayout (Nat.le_of_eq hOversized.symm) [grant]
    ?_ ?_ ?_ ?_
  · intro place
    rw [hChunks]
    exact isSome_get?_set_iff _ address place handle hSegment hStart
  · intro held hHeld
    rw [List.mem_singleton.mp hHeld]
    exact hAsks.within hAccounts.apportioned.layout hLayout (absurd · hSegment)
  · intro place hOwned
    apply hCells
    rintro rfl
    rw [hVacant] at hOwned
    contradiction
  · intro held hHeld hArrays place hPlace
    rw [List.mem_singleton.mp hHeld] at hArrays hPlace ⊢
    rw [hStart] at hPlace
    rw [UInt64.toNat_inj.mp hPlace]
    exact hLength hArrays

private theorem step_next (hAccounts : Accounts ledger store) {segment : Segment} {handle : Handle}
    {address : Address} (hNext : store.space.next? segment = some address)
    (hOpen : store.Open address handle) :
    Step ledger store ((store.claim address handle).countUp segment) (.allocate segment handle)
      (⟨segment, address.toNat, 1⟩ :: ledger) := by
  have hStore := hAccounts.apportioned
  have hLayout := hStore.layout
  have hAsks : Asks store (.allocate segment handle) ⟨segment, address.toNat, 1⟩ :=
    .next (Store.isUnplaced_iff.mpr hOpen.unplaced) hNext
  have hAfter := (Effect.next hNext hOpen).apportioned hStore
  have hCells : ∀ place, ((store.claim address handle).countUp segment).cellsAt place =
      store.cellsAt place := by
    intro place
    apply Store.cellsAt_congr
    · simp only [Store.countUp, Store.claim]
      split <;> rfl
    · intro ref _
      exact congrArg ArrayInfo.length (Arena.array_congr (Arena.arrays_modify _ _ _) ref)
  have hLength := cellsAt_of_open hStore hOpen
  rw [← hCells] at hLength
  rcases Store.next?_eq_some hNext with ⟨rfl, hRoom, rfl⟩ | ⟨rfl, hRoom, rfl⟩
  all_goals
    refine step_granted hAccounts hAfter rfl rfl rfl hOpen.vacant (by simp) rfl hAsks
      (fun place _ => hCells place) (fun _ => hLength) ?_
    have hCounted := Store.toNat_add_one hRoom
    intro segment
    cases segment <;> first | exact hCounted | rfl

private theorem array_placeNative {ref : ArrayRef} (hFits : store.Fits ref) (head : Handle)
    (other : ArrayRef) :
    (store.placeNative ref head).arena.array other =
      if other = ref then { store.arena.array ref with
        base := some (store.space.layout.arrays.first + store.space.arrays).toNat
        kind := .native
        chunk := some (store.space.layout.arrays.first + store.space.arrays) }
      else store.arena.array other := by
  have hSame : ∀ place, (store.claim (store.space.layout.arrays.first + store.space.arrays)
      head).arena.array place = store.arena.array place := fun place =>
    Arena.array_congr (Arena.arrays_modify _ _ _) place
  have hBound : ref < (store.claim (store.space.layout.arrays.first + store.space.arrays)
      head).arena.arrays.size := by
    simp only [Store.claim, Arena.arrays_modify]
    exact Store.lt_size_of_length hFits.positive
  simp only [Store.placeNative, Arena.array_modifyArray _ _ _ _ hBound, hSame]

theorem ofArray_placeNative (hLayout : store.space.layout.Ordered) {ref : ArrayRef}
    (hFits : store.Fits ref) (head : Handle) :
    Grant.ofArray ((store.placeNative ref head).arena.array ref) =
      ⟨.arrays, store.space.layout.arrays.first.toNat + store.space.arrays.toNat,
        (store.arena.array ref).length.toNat⟩ := by
  rw [array_placeNative hFits, if_pos rfl, ← hFits.toNat_start hLayout]
  rfl

private theorem step_native (hAccounts : Accounts ledger store) {ref : ArrayRef} {head : Handle}
    (hUnplaced : (store.arena.array ref).base = none) (hFits : store.Fits ref)
    (hOpen : store.Open (store.space.layout.arrays.first + store.space.arrays) head) :
    Step ledger store (store.placeNative ref head) (.allocateArray ref head)
      (.ofArray ((store.placeNative ref head).arena.array ref) :: ledger) := by
  have hStore := hAccounts.apportioned
  have hArray := array_placeNative hFits head
  have hLengths : ∀ other, ((store.placeNative ref head).arena.array other).length =
      (store.arena.array other).length := by
    intro other
    rw [hArray]
    split
    · rename_i hSame
      rw [hSame]
    · rfl
  rw [ofArray_placeNative hStore.layout hFits]
  refine step_granted hAccounts (hStore.placeNative hFits hUnplaced hOpen) rfl rfl rfl
    hOpen.vacant (by simp) (hFits.toNat_start hStore.layout).symm
    (.native (Store.isUnplaced_iff.mpr hOpen.unplaced) hFits) ?_ ?_ ?_
  · intro place hOther
    refine Store.cellsAt_congr ?_ fun other _ => hLengths other
    simp only [Store.placeNative, OrderedMap.get?_set, if_neg hOther]
  · intro _
    have hHead : (store.placeNative ref head).space.heads.get?
        (store.space.layout.arrays.first + store.space.arrays) = some ref := by
      simp only [Store.placeNative, OrderedMap.get?_set, if_true]
    simp only [Store.cellsAt, hHead, hLengths]
  · have hCounted := hFits.toNat_arrays
    intro segment
    cases segment <;> first | exact hCounted | rfl

private theorem array_placeBig {ref : ArrayRef} (hPositive : 0 < (store.arena.array ref).length)
    (other : ArrayRef) :
    (store.placeBig ref).arena.array other =
      if other = ref then { store.arena.array ref with
        base := some (store.space.layout.oversizedStart + store.space.oversized)
        kind := .big }
      else store.arena.array other :=
  Arena.array_modifyArray store.arena ref other _ (Store.lt_size_of_length hPositive)

theorem ofArray_placeBig {ref : ArrayRef} (hPositive : 0 < (store.arena.array ref).length) :
    Grant.ofArray ((store.placeBig ref).arena.array ref) =
      ⟨.oversized, store.space.layout.oversizedStart + store.space.oversized,
        (store.arena.array ref).length.toNat⟩ := by
  rw [array_placeBig hPositive, if_pos rfl]
  rfl

private theorem step_big (hAccounts : Accounts ledger store) {ref : ArrayRef} {head : Handle}
    (hUnplaced : (store.arena.array ref).base = none)
    (hLong : (store.space.layout.arrays.size.toNat : Int) < (store.arena.array ref).length) :
    Step ledger store (store.placeBig ref) (.allocateArray ref head)
      (.ofArray ((store.placeBig ref).arena.array ref) :: ledger) := by
  have hPositive : 0 < (store.arena.array ref).length := by omega
  have hAsks : Asks store (.allocateArray ref head) ⟨.oversized,
      store.space.layout.oversizedStart + store.space.oversized,
      (store.arena.array ref).length.toNat⟩ := .big hLong
  rw [ofArray_placeBig hPositive]
  refine ⟨rfl, ?_, .granted hAsks ?_⟩
  · refine @Accounts.extend _ _ _ hAccounts
      (hAccounts.apportioned.placeBig hPositive hUnplaced) rfl (Nat.le_add_right _ _)
      [⟨.oversized, store.space.layout.oversizedStart + store.space.oversized,
        (store.arena.array ref).length.toNat⟩] ?_ ?_ ?_ ?_
    · intro address
      simp [Store.placeBig]
    · intro grant hNew
      rw [List.mem_singleton.mp hNew]
      exact hAsks.within hAccounts.apportioned.layout rfl fun _ => Nat.le_refl _
    · intro address _
      refine Store.cellsAt_congr rfl ?_
      intro other _
      rw [array_placeBig hPositive]
      split
      · rename_i hSame
        rw [hSame]
      · rfl
    · intro grant hNew hSegment
      rw [List.mem_singleton.mp hNew] at hSegment
      contradiction
  · intro segment
    cases segment <;> rfl

private theorem step_row (hAccounts : Accounts ledger store) {handles : List Handle}
    {start : Address} (hFound : Found store handles start) (call : SpaceCall) :
    Step ledger store (store.claimAll (Store.row start 0 handles)) call
      ((List.range handles.length).map (fun step => ⟨.loop, start.toNat + step, 1⟩) ++
        ledger) := by
  have hSame := store.sameCounts_claimAll (Store.row start 0 handles)
  refine ⟨hSame.layout, hAccounts.row hFound, .other ?_ (counter_congr hSame)⟩
  rw [List.filter_append, List.filter_map]
  simp

private theorem step_idle (hAccounts : Accounts ledger store) {arena : Arena} (call : SpaceCall)
    (hAfter : Store.Apportioned { store with arena := arena })
    (hLengths : ∀ address ref, store.space.heads.get? address = some ref →
      (arena.array ref).length = (store.arena.array ref).length) :
    Step ledger store { store with arena := arena } call ledger := by
  refine ⟨rfl, ?_, .other rfl ?_⟩
  · refine @Accounts.extend _ _ _ hAccounts hAfter rfl (Nat.le_refl _) [] ?_ ?_ ?_ ?_
    · intro address
      simp
    · intro grant hNew
      contradiction
    · intro address _
      exact Store.cellsAt_congr rfl (hLengths address)
    · intro grant hNew
      contradiction
  · intro segment
    cases segment <;> rfl

private theorem step_free (hAccounts : Accounts ledger store) {address : Address} {handle : Handle}
    (hOwner : store.space.chunks.get? address = some handle)
    (hFrees : Store.Frees address handle store after) :
    Step ledger store after (.free address)
      (ledger.filter fun grant => grant.start ≠ address.toNat) := by
  obtain ⟨grant, hGrant, hSegment, hStart⟩ :=
    (hAccounts.owned address).mp (Option.isSome_of_eq_some hOwner)
  refine ⟨hFrees.layout, hAccounts.release hOwner hFrees, .freed hGrant hSegment hStart ?_⟩
  have hWithin := hAccounts.within grant hGrant
  obtain ⟨hLoop, hScalars, hArrays⟩ := hWithin.contains_iff hAccounts.apportioned.layout hStart
  have hCount := hFrees.scalars
  have hCells := hFrees.arrays
  have hTotal := hFrees.oversized
  simp only [hScalars] at hCount
  simp only [hArrays] at hCells
  intro segment
  cases segment with
  | loop => exact (Nat.zero_sub _).symm
  | unnamed number => exact (Nat.zero_sub _).symm
  | oversized =>
      rw [if_neg hSegment.symm]
      exact hTotal
  | scalars =>
      simp only [Store.counter, hCount]
      by_cases hKind : grant.segment = .scalars
      · rw [if_pos hKind, if_pos hKind.symm, hWithin.single (.inr hKind)]
      · rw [if_neg hKind, if_neg (Ne.symm hKind)]
        rfl
  | arrays =>
      simp only [Store.counter, hCells]
      by_cases hKind : grant.segment = .arrays
      · rw [if_pos hKind, if_pos hKind.symm,
          hAccounts.lengths grant hGrant hKind address hStart.symm]
      · rw [if_neg hKind, if_neg (Ne.symm hKind)]
        rfl

private theorem counter_free_loop (hStore : store.Apportioned) {address : Address} {handle : Handle}
    (hFrees : Store.Frees address handle store after)
    (hLoop : store.space.layout.loop.contains address = true) (segment : Segment) :
    after.counter segment = store.counter segment := by
  have hLoopScalars := hStore.layout.loopScalars
  have hScalars := hStore.layout.scalars
  have hScalarsArrays := hStore.layout.scalarsArrays
  rw [AddressRange.contains_iff] at hLoop
  have hCount := hFrees.scalars
  have hCells := hFrees.arrays
  rw [if_neg (by rw [AddressRange.contains_iff]; omega)] at hCount hCells
  cases segment <;> first | exact hCount | exact hCells | exact hFrees.oversized | rfl

private theorem release_each {addresses : List Address} (hAccounts : Accounts ledger store)
    (hFrees : Store.FreesEach addresses store after)
    (hLoop : ∀ address ∈ addresses, store.space.layout.loop.contains address = true) :
    Accounts (ledger.filter fun grant => addresses.all (grant.start ≠ ·.toNat)) after ∧
      after.space.layout = store.space.layout ∧
      ∀ segment, after.counter segment = store.counter segment := by
  induction hFrees generalizing ledger with
  | nil store => simpa using hAccounts
  | @cons address rest before middle after handle hOwner hFirst _ inductionHypothesis =>
      have hStep := step_free hAccounts hOwner hFirst
      have hRest : ∀ other ∈ rest, middle.space.layout.loop.contains other = true := by
        intro other hOther
        rw [hFirst.layout]
        exact hLoop other (List.mem_cons_of_mem address hOther)
      obtain ⟨hAfter, hLayout, hCounter⟩ := inductionHypothesis hStep.accounts hRest
      -- no counter changes on the way, so only the two filters have to become one
      refine ⟨?_, hLayout.trans hFirst.layout, ?_⟩
      · rw [List.filter_filter] at hAfter
        refine Eq.mp (congrArg (Accounts · after) (List.filter_congr ?_)) hAfter
        intro grant _
        simp [Bool.and_comm]
      · intro segment
        rw [hCounter, counter_free_loop hAccounts.apportioned hFirst
          (hLoop address List.mem_cons_self)]

private theorem step_freeLoop (hAccounts : Accounts ledger store)
    (hFrees : Store.FreesEach (StoreAction.loopCells store) store after) :
    Step ledger store after .freeLoop (ledger.filter fun grant => grant.segment ≠ .loop) := by
  have hCells := fun address => @StoreAction.mem_loopCells_iff store address
  obtain ⟨hAfter, hLayout, hCounter⟩ := release_each hAccounts hFrees
    fun address hAddress => ((hCells address).mp hAddress).2
  have hSame : (ledger.filter fun grant =>
      (StoreAction.loopCells store).all (grant.start ≠ ·.toNat)) =
      ledger.filter fun grant => grant.segment ≠ .loop := by
    apply List.filter_congr
    intro grant hGrant
    have hWithin := hAccounts.within grant hGrant
    rw [Bool.eq_iff_iff, List.all_eq_true, decide_eq_true_eq]
    simp only [decide_eq_true_eq]
    constructor
    · intro hElsewhere hKind
      have hStart : grant.start = grant.start.toUInt64.toNat := by
        have hHigh := hWithin.high
        have hPositive := hWithin.positive
        have hLimit := store.space.layout.loop.last.toNat_lt
        rw [hKind, Store.bound] at hHigh
        rw [Nat.toUInt64, UInt64.toNat_ofNat', Nat.mod_eq_of_lt (by omega)]
      have hLoop := (hWithin.contains_iff hAccounts.apportioned.layout hStart).1.mpr hKind
      have hOwned := (hAccounts.owned grant.start.toUInt64).mpr
        ⟨grant, hGrant, by rw [hKind]; simp, hStart⟩
      exact hElsewhere _ ((hCells _).mpr ⟨hOwned, hLoop⟩) hStart
    · intro hKind address hAddress hStart
      exact hKind ((hWithin.contains_iff hAccounts.apportioned.layout hStart).1.mp
        ((hCells address).mp hAddress).2)
  rw [hSame] at hAfter
  refine ⟨hLayout, hAfter, .other ?_ hCounter⟩
  rw [List.filter_filter]
  simp

private theorem Effect.step {call : SpaceCall} {answer : Option Address}
    (hEffect : Effect store call answer after) (hAccounts : Accounts ledger store) :
    Step ledger store after call (record ledger after call answer) := by
  have hAfter := hEffect.apportioned hAccounts.apportioned
  cases hEffect with
  | next hNext hOpen => exact step_next hAccounts hNext hOpen
  | loop hFound => exact step_row hAccounts hFound _
  | run hFound => exact step_row hAccounts hFound _
  | native hUnplaced hFits hOpen => exact step_native hAccounts hUnplaced hFits hOpen
  | big hUnplaced hLong => exact step_big hAccounts hUnplaced hLong
  | free hOwner hFrees => exact step_free hAccounts hOwner hFrees
  | freeLoop hFrees => exact step_freeLoop hAccounts hFrees
  | createArray =>
      refine step_idle hAccounts _ hAfter ?_
      intro address ref hHead
      have hBound := hAccounts.apportioned.lt_size_of_head hHead
      rw [array_createArray_of_ne _ _ _ (Nat.ne_of_lt hBound)]
  | values hWell hArrays hChunks =>
      refine step_idle hAccounts _ hAfter ?_
      intro address ref _
      rw [Arena.array_congr hArrays]

/-- A call that is allowed fails and changes nothing, or succeeds and enters what it did. -/
theorem enter_outcome (hAccounts : Accounts ledger store) {call : SpaceCall}
    (hAllowed : Allowed store call) :
    (∃ fault, call.action.Refuses store fault ∧ enter (store, ledger) call = (store, ledger)) ∨
      ∃ answer after entered, call.action.Gives store answer after ∧
        enter (store, ledger) call = (after, entered) ∧
        Step ledger store after call entered := by
  rcases outcome hAccounts.apportioned hAllowed with
    ⟨fault, hRefuses⟩ | ⟨answer, after, hGives, hEffect⟩
  · exact .inl ⟨fault, hRefuses, enter_of_refuses hRefuses ledger⟩
  · exact .inr ⟨answer, after, _, hGives, enter_of_gives hGives ledger, hEffect.step hAccounts⟩

end SpaceCall

end RegisterCompiler
