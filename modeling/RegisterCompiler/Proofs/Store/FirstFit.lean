/-
The lowest first fit among the loop cells.

The search for a run of free loop cells looks at one window after the other.  A window with an
owned address is left behind that address, so each round passes one owned address at least and
the search ends.  It stops at the lowest run, and it fails only if there is none; then nothing
is changed.
-/

import RegisterCompiler.Proofs.Store.Grants
import RegisterCompiler.Proofs.Store.Vacancies

set_option autoImplicit false

namespace RegisterCompiler

open StoreAction (Gives Refuses)

/-! ### The search without a bound on its rounds -/

namespace Space

variable {chunks : OrderedMap Address Handle} {range : AddressRange} {count : UInt64}

/-- The test for a window: its last address is not behind the range, and it did not wrap around
to an address before the first one. -/
def Window (range : AddressRange) (count : UInt64) (start : Address) : Prop :=
  start + count - 1 ≤ range.last ∧ start ≤ start + count - 1

/-- The test for a window is passed by no window whose end wraps around. -/
theorem window_iff {start : Address} (hCount : 0 < count.toNat) :
    Window range count start ↔ start.toNat + count.toNat ≤ range.last.toNat + 1 := by
  have hOne : (1 : UInt64).toNat = 1 := rfl
  have hStart := start.toNat_lt
  have hBound := count.toNat_lt
  have hLast := range.last.toNat_lt
  rw [Window, UInt64.le_iff_toNat_le, UInt64.le_iff_toNat_le, UInt64.toNat_sub, UInt64.toNat_add]
  omega

private theorem toNat_window_end {start : Address} (hCount : 0 < count.toNat)
    (hWindow : Window range count start) :
    (start + count - 1).toNat = start.toNat + count.toNat - 1 := by
  have hOne : (1 : UInt64).toNat = 1 := rfl
  have hInside := (window_iff hCount).mp hWindow
  have hLast := range.last.toNat_lt
  rw [UInt64.toNat_sub, UInt64.toNat_add]
  omega

inductive Searches (chunks : OrderedMap Address Handle) (range : AddressRange) (count : UInt64) :
    Nat → Address → Option Address → Prop
  | outside {start : Address} (hOutside : ¬Window range count start) :
      Searches chunks range count 1 start none
  | free {start : Address} (hWindow : Window range count start)
      (hFree : (chunks.range start (start + count - 1)).head? = none) :
      Searches chunks range count 1 start (some start)
  | last {start : Address} {owner : Handle} (hWindow : Window range count start)
      (hClash : (chunks.range start (start + count - 1)).head? = some (range.last, owner)) :
      Searches chunks range count 1 start none
  | next {rounds : Nat} {start clash : Address} {owner : Handle} {found : Option Address}
      (hWindow : Window range count start)
      (hClash : (chunks.range start (start + count - 1)).head? = some (clash, owner))
      (hOther : clash ≠ range.last) (hRest : Searches chunks range count rounds (clash + 1) found) :
      Searches chunks range count (rounds + 1) start found

private theorem findRun_outside {start : Address} (hOutside : ¬Window range count start)
    (fuel : Nat) :
    findRun chunks range count (fuel + 1) start = none := by
  unfold Window at hOutside
  simp only [findRun, Bool.and_eq_true, decide_eq_true_eq, if_neg hOutside]

private theorem findRun_free {start : Address} (hWindow : Window range count start)
    (hFree : (chunks.range start (start + count - 1)).head? = none) (fuel : Nat) :
    findRun chunks range count (fuel + 1) start = some start := by
  unfold Window at hWindow
  simp only [findRun, Bool.and_eq_true, decide_eq_true_eq, if_pos hWindow, hFree]

private theorem findRun_clash {start clash : Address} {owner : Handle}
    (hWindow : Window range count start)
    (hClash : (chunks.range start (start + count - 1)).head? = some (clash, owner)) (fuel : Nat) :
    findRun chunks range count (fuel + 1) start =
      if clash = range.last then none else findRun chunks range count fuel (clash + 1) := by
  unfold Window at hWindow
  simp only [findRun, Bool.and_eq_true, decide_eq_true_eq, if_pos hWindow, hClash]

/-- An owned address in a window, unless it is the last one of the range, has another one behind
it, from which on fewer addresses are owned. -/
theorem ownedFrom_clash_lt {start clash : Address} {owner : Handle} (hCount : 0 < count.toNat)
    (hWindow : Window range count start)
    (hClash : (chunks.range start (start + count - 1)).head? = some (clash, owner))
    (hOther : clash ≠ range.last) : ownedFrom chunks (clash + 1) < ownedFrom chunks start := by
  have hEntry := (OrderedMap.mem_range_iff chunks _ _ _).mp (List.mem_of_mem_head? hClash)
  have hHigh : clash.toNat ≤ (start + count - 1).toNat := UInt64.le_iff_toNat_le.mp hEntry.2.2
  have hInside := (window_iff hCount).mp hWindow
  have hBelow : clash.toNat ≠ range.last.toNat :=
    fun hSame => hOther (UInt64.toNat_inj.mp hSame)
  have hBehind : clash < clash + 1 := by
    have hBound := range.last.toNat_lt
    have hOne : (1 : UInt64).toNat = 1 := rfl
    rw [toNat_window_end hCount hWindow] at hHigh
    rw [UInt64.lt_iff_toNat_lt, UInt64.toNat_add]
    omega
  exact ownedFrom_lt hEntry.1 hEntry.2.1 hBehind

/-- The search ends, after as many rounds as there are owned addresses and one more. -/
theorem searches_findRun {fuel : Nat} {start : Address} (hCount : 0 < count.toNat)
    (hFuel : ownedFrom chunks start < fuel) :
    ∃ rounds ≤ fuel, Searches chunks range count rounds start
      (findRun chunks range count fuel start) := by
  induction fuel generalizing start with
  | zero => exact absurd hFuel (Nat.not_lt_zero _)
  | succ fuel inductionHypothesis =>
      by_cases hWindow : Window range count start
      case neg =>
        rw [findRun_outside hWindow]
        exact ⟨1, by omega, .outside hWindow⟩
      cases hClash : (chunks.range start (start + count - 1)).head? with
      | none =>
          rw [findRun_free hWindow hClash]
          exact ⟨1, by omega, .free hWindow hClash⟩
      | some entry =>
          cases entry with
          | mk clash owner =>
              rw [findRun_clash hWindow hClash]
              by_cases hLast : clash = range.last
              · rw [hLast] at hClash
                rw [if_pos hLast]
                exact ⟨1, by omega, .last hWindow hClash⟩
              · have hFewer := ownedFrom_clash_lt hCount hWindow hClash hLast
                have hLeft : ownedFrom chunks (clash + 1) < fuel := by omega
                rcases inductionHypothesis hLeft with ⟨rounds, hRounds, hRest⟩
                rw [if_neg hLast]
                exact ⟨rounds + 1, by omega, .next hWindow hClash hLast hRest⟩

end Space

/-! ### Placing a row -/

namespace Store

variable {store : Store} {pairs : List (Address × Handle)}

structure OwnsRow (store : Store) (start : Address) (handles : List Handle) : Prop where
  owner : ∀ (index : Nat) handle, handles[index]? = some handle →
    store.space.chunks.get? (start + index.toUInt64) = some handle
  chunk : ∀ (index : Nat) handle, handles[index]? = some handle →
    (store.arena.get? handle).bind Value.chunk = some (start + index.toUInt64)

private theorem owner_claimAll_of_notMem {address : Address}
    (hOther : address ∉ pairs.map Prod.fst) :
    (store.claimAll pairs).space.chunks.get? address = store.space.chunks.get? address := by
  induction pairs generalizing store with
  | nil => rfl
  | cons first rest inductionHypothesis =>
      rw [List.map_cons, List.mem_cons, not_or] at hOther
      change ((store.claim first.1 first.2).claimAll rest).space.chunks.get? address = _
      rw [inductionHypothesis hOther.2, claim, OrderedMap.get?_set, if_neg hOther.1]

private theorem get?_claimAll_of_notMem {handle : Handle} (hOther : handle ∉ pairs.map Prod.snd) :
    (store.claimAll pairs).arena.get? handle = store.arena.get? handle := by
  induction pairs generalizing store with
  | nil => rfl
  | cons first rest inductionHypothesis =>
      rw [List.map_cons, List.mem_cons, not_or] at hOther
      change ((store.claim first.1 first.2).claimAll rest).arena.get? handle = _
      rw [inductionHypothesis hOther.2]
      simp only [get?_claim, if_neg hOther.1, Option.map_id']

/-- Cells that are taken have their values as owners, and the values have their cells. -/
theorem Claimable.owns (hClaimable : store.Claimable pairs) {pair : Address × Handle}
    (hPair : pair ∈ pairs) :
    (store.claimAll pairs).space.chunks.get? pair.1 = some pair.2 ∧
      ((store.claimAll pairs).arena.get? pair.2).bind Value.chunk = some pair.1 := by
  induction pairs generalizing store with
  | nil => contradiction
  | cons first rest inductionHypothesis =>
      rcases List.mem_cons.mp hPair with rfl | hRest
      · rcases (hClaimable.opened pair hPair).unplaced with ⟨value, hLive, -⟩
        have hAddress := (List.nodup_cons.mp hClaimable.addresses).1
        have hHandle := (List.nodup_cons.mp hClaimable.handles).1
        constructor
        · change ((store.claim pair.1 pair.2).claimAll rest).space.chunks.get? pair.1 = _
          rw [owner_claimAll_of_notMem hAddress, claim, OrderedMap.get?_set, if_pos rfl]
        · change (((store.claim pair.1 pair.2).claimAll rest).arena.get? pair.2).bind _ = _
          rw [get?_claimAll_of_notMem hHandle, get?_claim, hLive]
          simp
      · exact inductionHypothesis hClaimable.claim_tail hRest

private theorem getElem?_row (start : Address) (done : Nat) (handles : List Handle) (index : Nat) :
    (row start done handles)[index]? =
      handles[index]?.map fun handle => (start + (done + index).toUInt64, handle) := by
  simp [row, List.getElem?_zipIdx, Function.comp_def]

private theorem Claimable.ownsRow {start : Address} {handles : List Handle}
    (hClaimable : store.Claimable (row start 0 handles)) :
    (store.claimAll (row start 0 handles)).OwnsRow start handles := by
  have hPair : ∀ (index : Nat) handle, handles[index]? = some handle →
      (start + index.toUInt64, handle) ∈ row start 0 handles := by
    intro index handle hHandle
    apply List.mem_of_getElem? (i := index)
    rw [getElem?_row, hHandle, Nat.zero_add, Option.map_some]
  exact ⟨fun index handle hHandle => (hClaimable.owns (hPair index handle hHandle)).1,
    fun index handle hHandle => (hClaimable.owns (hPair index handle hHandle)).2⟩

/-- A free run of loop cells can be taken for distinct values without cells. -/
theorem claimable_row {start : Address} {handles : List Handle}
    (hRun : store.setting.RunAt handles.length start.toNat) (hNodup : handles.Nodup)
    (hUnplaced : ∀ handle ∈ handles, ∃ value, store.arena.get? handle = some value ∧
      value.chunk = none) : store.Claimable (row start 0 handles) := by
  have hLimit := store.setting.layout.loop.last.toNat_lt
  have hLast := hRun.last
  have hStep : ∀ index < handles.length, (start + index.toUInt64).toNat = start.toNat + index := by
    intro index hIndex
    rw [UInt64.toNat_add, Nat.toUInt64, UInt64.toNat_ofNat']
    omega
  constructor
  · intro pair hPair
    rcases List.mem_iff_getElem?.mp hPair with ⟨index, hIndex⟩
    rw [getElem?_row, Nat.zero_add] at hIndex
    rcases Option.map_eq_some_iff.mp hIndex with ⟨handle, hHandle, rfl⟩
    have hBound := (List.getElem?_eq_some_iff.mp hHandle).1
    have hFree : store.setting.owner (start + index.toUInt64) = none := by
      apply hRun.free
      · rw [hStep index hBound]
        omega
      · rw [hStep index hBound]
        omega
    exact ⟨hFree, hUnplaced handle (List.mem_of_getElem? hHandle)⟩
  · rw [row_addresses]
    apply List.Nodup.map_on _ List.nodup_range
    intro first hFirst second hSecond hSame
    have hEqual := congrArg UInt64.toNat hSame
    rw [hStep first (List.mem_range.mp hFirst), hStep second (List.mem_range.mp hSecond)] at hEqual
    omega
  · rw [row, List.map_map]
    exact (List.zipIdx_map_fst 0 handles).symm ▸ hNodup

end Store

namespace StoreAction

variable {store : Store}

private theorem placeRun_gives_of_claimable {start : Address} {done : Nat} {handles : List Handle}
    (hClaimable : store.Claimable (Store.row start done handles)) :
    (placeRun start done handles).Gives store ()
      (store.claimAll (Store.row start done handles)) := by
  induction handles generalizing store done with
  | nil => exact .pure () store
  | cons handle rest inductionHypothesis =>
      have hOpen := hClaimable.opened (start + done.toUInt64, handle) List.mem_cons_self
      have hTaken := Gives.tryCatch (place_gives_of_open hOpen) fun fault => do
        for step in List.range done do
          unplace (start + step.toUInt64)
        throw fault
      exact hTaken.bind (inductionHypothesis hClaimable.claim_tail)

/-- Loop cells are taken at the lowest place where there are enough of them.  If there is no such
place, nothing is changed.  The search comes to its end, and no window that wraps around passes
for a fit. -/
theorem allocateRun_first_fit {handles : List Handle} (hNonempty : handles ≠ [])
    (hShort : handles.length < UInt64.size) (hNodup : handles.Nodup)
    (hUnplaced : ∀ handle ∈ handles, ∃ value, store.arena.get? handle = some value ∧
      value.chunk = none) :
    ((∃ start after, (allocateRun .loop handles).Gives store start after) ↔
      ∃ place, store.setting.RunAt handles.length place) ∧
    (∀ start after, (allocateRun .loop handles).Gives store start after →
      store.setting.LowestRun handles.length start ∧
        after = store.claimAll (Store.row start 0 handles) ∧ after.OwnsRow start handles) ∧
    ((¬∃ place, store.setting.RunAt handles.length place) →
      (allocateRun .loop handles).Refuses store (.noRun store.space.layout.loop handles.length)) ∧
    (∃ rounds ≤ store.space.chunks.size + 1,
      Space.Searches store.space.chunks store.space.layout.loop handles.length.toUInt64 rounds
        store.space.layout.loop.first
        (Space.findRun store.space.chunks store.space.layout.loop handles.length.toUInt64
          (store.space.chunks.size + 1) store.space.layout.loop.first)) ∧
    ∀ start, Space.Window store.space.layout.loop handles.length.toUInt64 start ↔
      start.toNat + handles.length ≤ store.space.layout.loop.last.toNat + 1 := by
  have hPositive : 0 < handles.length := List.length_pos_iff.mpr hNonempty
  have hCount : handles.length.toUInt64.toNat = handles.length := Nat.mod_eq_of_lt hShort
  have hSome : 0 < handles.length.toUInt64.toNat := by rwa [hCount]
  have hEnds : ∃ rounds ≤ store.space.chunks.size + 1,
      Space.Searches store.space.chunks store.space.layout.loop handles.length.toUInt64 rounds
        store.space.layout.loop.first
        (Space.findRun store.space.chunks store.space.layout.loop handles.length.toUInt64
          (store.space.chunks.size + 1) store.space.layout.loop.first) :=
    Space.searches_findRun hSome (Nat.lt_succ_of_le (List.length_filter_le _ _))
  have hWindow : ∀ start, Space.Window store.space.layout.loop handles.length.toUInt64 start ↔
      start.toNat + handles.length ≤ store.space.layout.loop.last.toNat + 1 := by
    intro start
    rw [Space.window_iff hSome, hCount]
  cases hFound : Space.findRun store.space.chunks store.space.layout.loop
      handles.length.toUInt64 (store.space.chunks.size + 1) store.space.layout.loop.first with
  | none =>
      rw [hFound] at hEnds
      have hNoRun := Store.not_runAt_of_findRun hPositive hShort hFound
      have hRefuses := allocateRun_refuses_of_findRun hNonempty hFound
      have hNever : ∀ start after, ¬(allocateRun .loop handles).Gives store start after := by
        intro start after hGives
        cases hGives.symm.trans hRefuses
      refine ⟨?_, ?_, fun _ => hRefuses, hEnds, hWindow⟩
      · constructor
        · intro hSucceeds
          rcases hSucceeds with ⟨start, after, hGives⟩
          exact absurd hGives (hNever start after)
        · intro hRun
          rcases hRun with ⟨place, hPlace⟩
          exact absurd hPlace (hNoRun place)
      · intro start after hGives
        exact absurd hGives (hNever start after)
  | some start =>
      rw [hFound] at hEnds
      have hLowest := Store.lowestRun_of_findRun hPositive hShort hFound
      have hClaimable := Store.claimable_row hLowest.run hNodup hUnplaced
      have hTakes := allocateRun_gives_of_findRun hNonempty hFound
        (placeRun_gives_of_claimable hClaimable)
      have hThere : ∃ place, store.setting.RunAt handles.length place :=
        ⟨start.toNat, hLowest.run⟩
      refine ⟨iff_of_true ⟨start, _, hTakes⟩ hThere, ?_, fun hNone => absurd hThere hNone, hEnds,
        hWindow⟩
      intro other after hGives
      rcases hTakes.unique hGives with ⟨rfl, rfl⟩
      exact ⟨hLowest, rfl, hClaimable.ownsRow⟩

def holed : Store :=
  let one := (Arena.empty.create .missing).2
  let two := (one.create .missing).2
  let three := (two.create .missing).2
  let four := (three.create .missing).2
  ({ Store.empty .standard 8 with arena := four }.claim 0 ⟨0, 1⟩).claim 2 ⟨1, 1⟩

theorem allocateRun_first_fit_behind_holes :
    ∃ after, (allocateRun .loop [⟨2, 1⟩, ⟨3, 1⟩]).Gives holed 3 after ∧
      holed.setting.LowestRun 2 3 ∧ after.OwnsRow 3 [⟨2, 1⟩, ⟨3, 1⟩] := by
  have hUnplaced : ∀ handle ∈ [(⟨2, 1⟩ : Handle), ⟨3, 1⟩],
      ∃ value, holed.arena.get? handle = some value ∧ value.chunk = none := by
    simp only [List.forall_mem_cons]
    exact ⟨⟨_, rfl, rfl⟩, ⟨_, rfl, rfl⟩, nofun⟩
  have hGives : (allocateRun .loop [⟨2, 1⟩, ⟨3, 1⟩]).Gives holed 3
      (holed.claimAll (Store.row 3 0 [⟨2, 1⟩, ⟨3, 1⟩])) := rfl
  have hFit := allocateRun_first_fit (by decide) (by decide) (by decide) hUnplaced
  rcases hFit.2.1 3 _ hGives with ⟨hLowest, -, hOwns⟩
  exact ⟨_, hGives, hLowest, hOwns⟩

end StoreAction

end RegisterCompiler
