/-
Cells that are computed while they still have owners.

A call that asks for cells computes them from a counter, and only the first one is looked up.
So after cells were taken back out of order, cells that are in use are noticed exactly when a
grant starts where the new one does.  Between grants of single cells, and between arrays of one
length, that is all there is to notice, and nothing collides while the newest cells are taken back
first.  An array that is overlapped in its middle is not noticed.
-/

import RegisterCompiler.Proofs.Store.Grants

set_option autoImplicit false

namespace RegisterCompiler

open StoreAction (Gives Refuses)

namespace SpaceCall

variable {ledger : List Grant} {store : Store} {call : SpaceCall} {grant held : Grant}

namespace Asks

private theorem segment_cases (hAsks : Asks store call grant) :
    grant.segment = .scalars ∨ grant.segment = .arrays ∨ grant.segment = .oversized := by
  cases hAsks with
  | next hUnplaced hNext =>
      rcases Store.next?_eq_some hNext with ⟨hScalars, -⟩ | ⟨hArrays, -⟩
      · exact .inl hScalars
      · exact .inr (.inl hArrays)
  | native hUnplaced hFits => exact .inr (.inl rfl)
  | big hLong => exact .inr (.inr rfl)

/-- Cells that are asked for and those that are given away lie in the segments of one store, in
which the cells above the segments are counted. -/
theorem all_within (hAsks : Asks store call grant) (hAccounts : Accounts ledger store) :
    ∃ larger : Store, larger.space.layout.Ordered ∧ grant.Within larger ∧
      ∀ held ∈ ledger, held.Within larger := by
  have hLayout := hAccounts.apportioned.layout
  refine ⟨{ store with space := { store.space with
    oversized := store.space.oversized + grant.length } }, hLayout, ?_, ?_⟩
  · exact hAsks.within hLayout rfl fun _ => Nat.le_refl _
  · intro held hHeld
    exact (hAccounts.within held hHeld).mono rfl (Nat.le_add_right _ _)

variable (hAsks : Asks store call grant) (hAccounts : Accounts ledger store)
  (hHeld : held ∈ ledger)

include hAsks hAccounts hHeld

private theorem apart_of_segment_ne (hSegment : held.segment ≠ grant.segment) :
    held.Apart grant := by
  obtain ⟨larger, hLayout, hGrant, hLedger⟩ := hAsks.all_within hAccounts
  exact (hLedger held hHeld).apart_of_segment_ne hGrant hLayout hSegment

private theorem segment_eq_of_start_eq (hStart : held.start = grant.start) :
    held.segment = grant.segment := by
  obtain ⟨larger, hLayout, hGrant, hLedger⟩ := hAsks.all_within hAccounts
  exact (hLedger held hHeld).segment_eq_of_start_eq hGrant hLayout hStart

private theorem not_apart_of_start_eq (hStart : held.start = grant.start) : ¬held.Apart grant := by
  obtain ⟨larger, -, hGrant, hLedger⟩ := hAsks.all_within hAccounts
  have hSome := (hLedger held hHeld).positive
  have hMore := hGrant.positive
  intro hApart
  apply hApart held.start
  unfold Grant.Covers
  omega

private theorem end_le_of_oversized (hOld : held.segment = .oversized)
    (hNew : grant.segment = .oversized) : held.start + held.length ≤ grant.start := by
  have hHigh := (hAccounts.within held hHeld).high
  have hStart := hAsks.start_eq hAccounts.apportioned.layout
  rw [hOld] at hHigh
  rw [hNew] at hStart
  rw [hStart]
  exact hHigh

/-- Only arrays overlap without a common start. -/
theorem arrays_of_not_apart (hStart : held.start ≠ grant.start) (hOverlap : ¬held.Apart grant) :
    held.segment = .arrays ∧ grant.segment = .arrays := by
  have hSegment : held.segment = grant.segment := by
    apply Classical.byContradiction
    intro hDifferent
    exact hOverlap (hAsks.apart_of_segment_ne hAccounts hHeld hDifferent)
  rcases hAsks.segment_cases with hScalars | hArrays | hOversized
  · obtain ⟨larger, -, hGrant, hLedger⟩ := hAsks.all_within hAccounts
    refine absurd (Grant.apart_of_start_ne ?_ ?_ hStart) hOverlap
    · exact (hLedger held hHeld).single (.inr (hSegment.trans hScalars))
    · exact hGrant.single (.inr hScalars)
  · exact ⟨hSegment.trans hArrays, hArrays⟩
  · refine absurd (Grant.apart_of_le (.inl ?_)) hOverlap
    exact hAsks.end_le_of_oversized hAccounts hHeld (hSegment.trans hOversized) hOversized

end Asks

/-! ### Answers -/

/-- How a call that asks for cells is answered: if they collide, it is refused and names the first
of them, and otherwise they are given to it. -/
structure Answers (state : Store × List Grant) (call : SpaceCall) (grant : Grant)
    (collides : Prop) : Prop where
  refused : collides → ∃ address : Address, address.toNat = grant.start ∧
    call.action.Refuses state.1 (.addressInUse address)
  given : ¬collides → ∃ answer after, call.action.Gives state.1 answer after ∧
    enter state call = (after, grant :: state.2)

private theorem Answers.congr {state : Store × List Grant} {collides clashes : Prop}
    (hAnswers : Answers state call grant collides) (hSame : collides ↔ clashes) :
    Answers state call grant clashes := by
  rw [← propext hSame]
  exact hAnswers

private theorem Asks.isSome_iff (hAsks : Asks store call grant) (hAccounts : Accounts ledger store)
    (hLower : grant.segment ≠ .oversized) {address : Address}
    (hAddress : address.toNat = grant.start) :
    (store.space.chunks.get? address).isSome = true ↔
      ∃ held ∈ ledger, held.start = grant.start := by
  rw [hAccounts.owned, hAddress]
  constructor
  · rintro ⟨held, hHeld, -, hStart⟩
    exact ⟨held, hHeld, hStart⟩
  · rintro ⟨held, hHeld, hStart⟩
    refine ⟨held, hHeld, ?_, hStart⟩
    rw [hAsks.segment_eq_of_start_eq hAccounts hHeld hStart]
    exact hLower

/-- An allocation that puts a value at the first of its cells is answered by the owner of that
cell. -/
theorem Asks.answers_of_place (hAsks : Asks store call grant) (hAccounts : Accounts ledger store)
    (hLower : grant.segment ≠ .oversized) {address : Address} {handle : Handle}
    (hAddress : address.toNat = grant.start) (hUnplaced : store.isUnplaced handle = true)
    (hRefused : ∀ fault, (StoreAction.place address handle).Refuses store fault →
      call.action.Refuses store fault)
    (hGiven : store.Open address handle → ∃ answer after, call.action.Gives store answer after ∧
      record ledger after call answer = grant :: ledger) :
    Answers (store, ledger) call grant (∃ held ∈ ledger, held.start = grant.start) := by
  have hOwned := hAsks.isSome_iff hAccounts hLower hAddress
  obtain ⟨value, hLive, hChunk⟩ := Store.isUnplaced_iff.mp hUnplaced
  constructor
  · intro hCollides
    refine ⟨address, hAddress, hRefused _ ?_⟩
    exact StoreAction.place_refuses_owned hLive hChunk (hOwned.mpr hCollides)
  · intro hFree
    rw [← hOwned, Bool.not_eq_true, Option.isSome_eq_false_iff, Option.isNone_iff_eq_none] at hFree
    obtain ⟨answer, after, hGives, hRecord⟩ := hGiven ⟨hFree, value, hLive, hChunk⟩
    refine ⟨answer, after, hGives, ?_⟩
    rw [enter_of_gives hGives, hRecord]

private theorem Asks.answers (hAsks : Asks store call grant) (hAccounts : Accounts ledger store) :
    Answers (store, ledger) call grant (∃ held ∈ ledger, held.start = grant.start) := by
  have hStore := hAccounts.apportioned
  have hAgain := hAsks
  cases hAsks with
  | @next segment handle address hUnplaced hNext =>
      have hLower : segment ≠ .oversized := by
        rcases Store.next?_eq_some hNext with ⟨rfl, -⟩ | ⟨rfl, -⟩ <;> simp
      refine hAgain.answers_of_place hAccounts hLower rfl hUnplaced ?_ ?_
      · intro fault hRefuses
        exact (StoreAction.allocate_refuses_next hNext hRefuses).map some
      · intro hOpen
        exact ⟨some address, _, (StoreAction.allocate_gives_next hNext hOpen).map some, rfl⟩
  | @native ref head hUnplaced hFits =>
      refine hAgain.answers_of_place hAccounts (by simp) (hFits.toNat_start hStore.layout)
        hUnplaced ?_ ?_
      · intro fault hRefuses
        exact (StoreAction.allocateArray_refuses hStore hFits hRefuses).bind _
      · intro hOpen
        refine ⟨none, _, (StoreAction.allocateArray_gives hStore hFits hOpen).bind (.pure none _),
          ?_⟩
        rw [record, ofArray_placeNative hStore.layout hFits]
  | @big ref head hLong =>
      -- no owner is looked up here, and none has to be: these cells are never taken back
      constructor
      · rintro ⟨held, hHeld, hStart⟩
        have hOld := hAgain.segment_eq_of_start_eq hAccounts hHeld hStart
        have hEnd := hAgain.end_le_of_oversized hAccounts hHeld hOld rfl
        have hPositive := (hAccounts.within held hHeld).positive
        omega
      · intro _
        have hGives : (allocateArray ref head).action.Gives store none (store.placeBig ref) :=
          (StoreAction.allocateArray_gives_big hLong head).bind (.pure none _)
        refine ⟨none, _, hGives, ?_⟩
        rw [enter_of_gives hGives, record, ofArray_placeBig (by omega)]

/-- What holds of an empty store and its ledger holds after any calls, if the calls that succeed
keep it. -/
theorem reached_induction {layout : Layout} {registers : Nat} (hValid : layout.fault? = none)
    {allowed : Store × List Grant → SpaceCall → Prop}
    (hAllowed : ∀ state call, allowed state call → Allowed state.1 call)
    (holds : List Grant → Store → Prop) (hEmpty : holds [] (.empty layout registers))
    (hStep : ∀ ledger store after call entered, Accounts ledger store → holds ledger store →
      allowed (store, ledger) call → Step ledger store after call entered → holds entered after)
    {state : Store × List Grant}
    (hReached : Reached allowed enter (.empty layout registers, []) state) :
    Accounts state.2 state.1 ∧ holds state.2 state.1 := by
  induction hReached with
  | start => exact ⟨accounts_empty hValid registers, hEmpty⟩
  | @call state call _ hCall inductionHypothesis =>
      obtain ⟨hAccounts, hHolds⟩ := inductionHypothesis
      rcases enter_outcome hAccounts (hAllowed state call hCall) with
        ⟨fault, -, hSame⟩ | ⟨answer, after, entered, -, hEnter, hEntered⟩
      · rw [hSame]
        exact ⟨hAccounts, hHolds⟩
      · rw [hEnter]
        exact ⟨hEntered.accounts, hStep _ _ _ _ _ hAccounts hHolds hCall hEntered⟩

section Loop

variable {entered : List Grant} (hSame : entered.filter (fun held => held.segment ≠ .loop) =
  ledger.filter fun held => held.segment ≠ .loop)

include hSame

private theorem mem_of_filter_eq (hHeld : held ∈ entered) (hCounted : held.segment ≠ .loop) :
    held ∈ ledger := by
  have hKept : held ∈ entered.filter fun held => held.segment ≠ .loop :=
    List.mem_filter.mpr ⟨hHeld, decide_eq_true hCounted⟩
  rw [hSame] at hKept
  exact (List.mem_filter.mp hKept).1

private theorem filter_segment_eq {segment : Segment} (hCounted : segment ≠ .loop) :
    (entered.filter fun held => held.segment = segment) =
      ledger.filter fun held => held.segment = segment := by
  have hFilter : ∀ grants : List Grant, (grants.filter fun held => held.segment = segment) =
      (grants.filter fun held => held.segment ≠ .loop).filter
        fun held => held.segment = segment := by
    intro grants
    rw [List.filter_filter]
    apply List.filter_congr
    intro held _
    rw [← Bool.decide_and, decide_eq_decide]
    constructor
    · rintro rfl
      exact ⟨rfl, hCounted⟩
    · exact And.left
  rw [hFilter entered, hSame, ← hFilter]

end Loop

private theorem mem_of_demand?_eq_none (hAccounts : Accounts ledger store)
    (hAllowed : Allowed store call) (hNone : demand? store call = none)
    (hHeld : held ∈ (enter (store, ledger) call).2) (hSegment : held.segment ≠ .loop) :
    held ∈ ledger := by
  rcases enter_outcome hAccounts hAllowed with
    ⟨fault, -, hSame⟩ | ⟨answer, after, entered, -, hEnter, hStep⟩
  · rw [hSame] at hHeld
    exact hHeld
  · rw [hEnter] at hHeld
    cases hStep.entry with
    | granted hAsks hCounter =>
        rw [demand?_eq_some_iff.mpr hAsks] at hNone
        contradiction
    | freed hGrant hLower hStart hCounter => exact (List.mem_filter.mp hHeld).1
    | other hSame hCounter => exact mem_of_filter_eq hSame hHeld hSegment

/-! ### Arrays of one length -/

/-- A call that is allowed and asks for array cells, if it does, in one length. -/
def Regular (stride : Nat) (state : Store × List Grant) (call : SpaceCall) : Prop :=
  Allowed state.1 call ∧ ∀ grant, demand? state.1 call = some grant →
    grant.segment = .arrays → grant.length = stride

/-- A ledger and a counter in which array cells come in one length. -/
structure Paced (stride : Nat) (ledger : List Grant) (store : Store) : Prop where
  counter : stride ∣ store.counter .arrays
  grants : ∀ held ∈ ledger, held.segment = .arrays → held.length = stride ∧
    ∃ before, held.start = store.origin .arrays + stride * before

private theorem Paced.step {stride : Nat} {after : Store} {entered : List Grant}
    (hPaced : Paced stride ledger store) (hAccounts : Accounts ledger store)
    (hRegular : Regular stride (store, ledger) call)
    (hStep : Step ledger store after call entered) : Paced stride entered after := by
  have hOrigin := Store.origin_congr hStep.layout .arrays
  cases hStep.entry with
  | @granted _ grant hAsks hCounter =>
      have hStart := hAsks.start_eq hAccounts.apportioned.layout
      have hLength := hRegular.2 grant (demand?_eq_some_iff.mpr hAsks)
      constructor
      · rw [hCounter]
        split
        · rename_i hArrays
          rw [hLength hArrays.symm]
          exact Nat.dvd_add hPaced.counter (Nat.dvd_refl stride)
        · exact hPaced.counter
      · intro held hHeld hArrays
        rw [hOrigin]
        rcases List.mem_cons.mp hHeld with rfl | hOld
        · obtain ⟨before, hBefore⟩ := hPaced.counter
          rw [hArrays, hBefore] at hStart
          exact ⟨hLength hArrays, before, hStart⟩
        · exact hPaced.grants held hOld hArrays
  | @freed address grant hGrant hLower hStart hCounter =>
      constructor
      · rw [hCounter]
        split
        · rename_i hArrays
          rw [(hPaced.grants grant hGrant hArrays.symm).1]
          exact Nat.dvd_sub hPaced.counter (Nat.dvd_refl stride)
        · exact hPaced.counter
      · intro held hHeld hArrays
        rw [hOrigin]
        exact hPaced.grants held (List.mem_filter.mp hHeld).1 hArrays
  | other hSame hCounter =>
      constructor
      · rw [hCounter]
        exact hPaced.counter
      · intro held hHeld hArrays
        have hOld := mem_of_filter_eq hSame hHeld (by rw [hArrays]; simp)
        rw [hOrigin]
        exact hPaced.grants held hOld hArrays

private theorem paced_empty (stride : Nat) (layout : Layout) (registers : Nat) :
    Paced stride [] (.empty layout registers) where
  counter := Nat.dvd_zero stride
  grants := fun _ hHeld => absurd hHeld List.not_mem_nil

private theorem Paced.start_eq_of_not_apart {stride : Nat} (hPaced : Paced stride ledger store)
    (hAccounts : Accounts ledger store) (hAsks : Asks store call grant)
    (hLength : grant.segment = .arrays → grant.length = stride) (hHeld : held ∈ ledger)
    (hOverlap : ¬held.Apart grant) : held.start = grant.start := by
  apply Classical.byContradiction
  intro hStart
  obtain ⟨hOld, hNew⟩ := hAsks.arrays_of_not_apart hAccounts hHeld hStart hOverlap
  obtain ⟨hSame, before, hBefore⟩ := hPaced.grants held hHeld hOld
  obtain ⟨count, hCount⟩ := hPaced.counter
  have hPlace := hAsks.start_eq hAccounts.apportioned.layout
  rw [hNew, hCount] at hPlace
  apply hOverlap
  apply Grant.apart_of_le
  rw [hSame, hLength hNew, hBefore, hPlace]
  rcases Nat.lt_trichotomy before count with hLess | hEqual | hMore
  · have hNext := Nat.mul_le_mul_left stride (Nat.succ_le_of_lt hLess)
    rw [Nat.mul_succ] at hNext
    omega
  · rw [hBefore, hPlace, hEqual] at hStart
    contradiction
  · have hNext := Nat.mul_le_mul_left stride (Nat.succ_le_of_lt hMore)
    rw [Nat.mul_succ] at hNext
    omega

/-! ### The newest first -/

/-- A call that is allowed and takes back, if it takes back cells that are counted, the newest of
their segment. -/
def Orderly (state : Store × List Grant) (call : SpaceCall) : Prop :=
  Allowed state.1 call ∧ ∀ address, call = .free address → ∀ grant ∈ state.2,
    grant.start = address.toNat → grant.segment ≠ .loop → grant.segment ≠ .oversized →
      (state.2.filter fun held => held.segment = grant.segment).head? = some grant

/-- Grants that fill the cells between a floor and a top, the newest uppermost. -/
def Stacked (floor : Nat) : List Grant → Nat → Prop
  | [], top => top = floor
  | grant :: rest, top => grant.start + grant.length = top ∧ Stacked floor rest grant.start

private theorem Stacked.end_le {floor top : Nat} {grants : List Grant}
    (hStacked : Stacked floor grants top) (hHeld : held ∈ grants) :
    held.start + held.length ≤ top := by
  induction grants generalizing top with
  | nil => contradiction
  | cons grant rest inductionHypothesis =>
      obtain ⟨hTop, hRest⟩ := hStacked
      rcases List.mem_cons.mp hHeld with rfl | hOld
      · exact Nat.le_of_eq hTop
      · have hBelow := inductionHypothesis hRest hOld
        omega

/-- A ledger in which the grants of every counted segment lie upon each other up to its counter. -/
def Piled (ledger : List Grant) (store : Store) : Prop :=
  ∀ segment, segment ≠ .loop →
    Stacked (store.origin segment) (ledger.filter fun held => held.segment = segment)
      (store.origin segment + store.counter segment)

private theorem Piled.filter_freed (hPiled : Piled ledger store) (hAccounts : Accounts ledger store)
    (hGrant : grant ∈ ledger) {segment : Segment} (hCounted : segment ≠ .loop)
    (hNewest : grant.segment = segment →
      (ledger.filter fun held => held.segment = segment).head? = some grant) :
    ((ledger.filter fun held => held.start ≠ grant.start).filter
        fun held => held.segment = segment) =
      if grant.segment = segment then (ledger.filter fun held => held.segment = segment).tail
      else ledger.filter fun held => held.segment = segment := by
  rw [List.filter_filter, ← List.filter_congr fun _ _ => Bool.and_comm _ _, ← List.filter_filter]
  have hStacked := hPiled segment hCounted
  split
  · rename_i hSegment
    obtain ⟨rest, hRest⟩ := List.head?_eq_some_iff.mp (hNewest hSegment)
    rw [hRest] at hStacked
    -- what lies below the newest grant starts lower, so nothing else goes
    rw [hRest, List.tail_cons, List.filter_cons_of_neg (by simp), List.filter_eq_self]
    intro held hHeld
    have hBelow := hStacked.2.end_le hHeld
    have hOld : held ∈ ledger := by
      have hMember : held ∈ ledger.filter fun held => held.segment = segment := by
        rw [hRest]
        exact List.mem_cons_of_mem grant hHeld
      exact (List.mem_filter.mp hMember).1
    have hPositive := (hAccounts.within held hOld).positive
    rw [decide_eq_true_eq]
    omega
  · rename_i hSegment
    -- grants with a common start are of one segment
    rw [List.filter_eq_self]
    intro held hHeld
    obtain ⟨hOld, hKind⟩ := List.mem_filter.mp hHeld
    rw [decide_eq_true_eq] at hKind ⊢
    intro hStart
    rw [(hAccounts.within held hOld).segment_eq_of_start_eq (hAccounts.within grant hGrant)
      hAccounts.apportioned.layout hStart] at hKind
    exact hSegment hKind

private theorem Piled.step {after : Store} {entered : List Grant} (hPiled : Piled ledger store)
    (hAccounts : Accounts ledger store) (hOrderly : Orderly (store, ledger) call)
    (hStep : Step ledger store after call entered) : Piled entered after := by
  intro segment hCounted
  have hStacked := hPiled segment hCounted
  rw [Store.origin_congr hStep.layout]
  cases hStep.entry with
  | @granted _ grant hAsks hCounter =>
      have hStart := hAsks.start_eq hAccounts.apportioned.layout
      rw [hCounter]
      by_cases hSegment : grant.segment = segment
      · rw [List.filter_cons_of_pos (by simpa using hSegment), if_pos hSegment.symm]
        rw [hSegment] at hStart
        refine ⟨by omega, ?_⟩
        rw [hStart]
        exact hStacked
      · rw [List.filter_cons_of_neg (by simpa using hSegment), if_neg (Ne.symm hSegment)]
        exact hStacked
  | @freed address grant hGrant hLower hStart hCounter =>
      have hNewest : grant.segment = segment →
          (ledger.filter fun held => held.segment = segment).head? = some grant := by
        intro hSegment
        rw [← hSegment] at hCounted ⊢
        exact hOrderly.2 address rfl grant hGrant hStart hCounted hLower
      rw [← hStart, hPiled.filter_freed hAccounts hGrant hCounted hNewest, hCounter]
      by_cases hSegment : grant.segment = segment
      · obtain ⟨rest, hRest⟩ := List.head?_eq_some_iff.mp (hNewest hSegment)
        rw [hRest] at hStacked
        obtain ⟨hTop, hBelow⟩ := hStacked
        rw [if_pos hSegment, if_pos hSegment.symm, hRest, List.tail_cons]
        have hLow := (hAccounts.within grant hGrant).low
        rw [hSegment] at hLow
        have hLeft : store.origin segment + (store.counter segment - grant.length) =
            grant.start := by omega
        rw [hLeft]
        exact hBelow
      · rw [if_neg hSegment, if_neg (Ne.symm hSegment)]
        exact hStacked
  | other hSame hCounter =>
      rw [filter_segment_eq hSame hCounted, hCounter]
      exact hStacked

private theorem Piled.apart (hPiled : Piled ledger store) (hAccounts : Accounts ledger store)
    (hAsks : Asks store call grant) (hHeld : held ∈ ledger) : held.Apart grant := by
  by_cases hSegment : held.segment = grant.segment
  · have hCounted : grant.segment ≠ .loop := by
      rcases hAsks.segment_cases with hKind | hKind | hKind <;> rw [hKind] <;> simp
    have hBelow := (hPiled grant.segment hCounted).end_le
      (List.mem_filter.mpr ⟨hHeld, decide_eq_true hSegment⟩)
    rw [← hAsks.start_eq hAccounts.apportioned.layout] at hBelow
    exact Grant.apart_of_le (.inl hBelow)
  · exact hAsks.apart_of_segment_ne hAccounts hHeld hSegment

private theorem piled_empty (layout : Layout) (registers : Nat) :
    Piled [] (.empty layout registers) := by
  intro segment _
  cases segment <;> rfl

end SpaceCall

open SpaceCall in
/-- Cells that are in use are noticed where a grant starts.  After any calls, one that asks for
cells is refused and names the first of them when a grant that was not taken back starts there,
and is given them otherwise.  Then only arrays can overlap, and no other call gives cells away but
loop cells.  If all array cells are asked for in one length, a call is refused whenever its cells
are not apart from those that are given away.  If the newest cells of a segment are taken back
first, they always are apart and given. -/
theorem collisions_surfaced_at_starts {layout : Layout} (hValid : layout.fault? = none)
    (registers : Nat) :
    (∀ state, Reached (fun state call => Allowed state.1 call) enter
        (.empty layout registers, []) state → ∀ call, Allowed state.1 call →
      (demand? state.1 call = none → ∀ held ∈ (enter state call).2, held.segment ≠ .loop →
        held ∈ state.2) ∧
      ∀ grant, demand? state.1 call = some grant →
        Answers state call grant (∃ held ∈ state.2, held.start = grant.start) ∧
        ∀ held ∈ state.2, held.start ≠ grant.start → ¬held.Apart grant →
          held.segment = .arrays ∧ grant.segment = .arrays) ∧
    (∀ stride state, Reached (Regular stride) enter (.empty layout registers, []) state →
      ∀ call, Regular stride state call → ∀ grant, demand? state.1 call = some grant →
        Answers state call grant (∃ held ∈ state.2, ¬held.Apart grant)) ∧
    ∀ state, Reached Orderly enter (.empty layout registers, []) state →
      ∀ call, Orderly state call → ∀ grant, demand? state.1 call = some grant →
        (∀ held ∈ state.2, held.Apart grant) ∧ Answers state call grant False := by
  refine ⟨?_, ?_, ?_⟩
  · intro state hReached call hAllowed
    obtain ⟨hAccounts, -⟩ := reached_induction hValid (fun _ _ hCall => hCall) (fun _ _ => True)
      trivial (fun _ _ _ _ _ _ _ _ _ => trivial) hReached
    refine ⟨?_, ?_⟩
    · intro hNone held hHeld hSegment
      exact mem_of_demand?_eq_none hAccounts hAllowed hNone hHeld hSegment
    · intro grant hDemand
      have hAsks := demand?_eq_some_iff.mp hDemand
      refine ⟨hAsks.answers hAccounts, ?_⟩
      intro held hHeld hStart hOverlap
      exact hAsks.arrays_of_not_apart hAccounts hHeld hStart hOverlap
  · intro stride state hReached call hRegular grant hDemand
    have hAsks := demand?_eq_some_iff.mp hDemand
    obtain ⟨hAccounts, hPaced⟩ := reached_induction hValid (fun _ _ hCall => hCall.1)
      (Paced stride) (paced_empty stride layout registers)
      (fun _ _ _ _ _ hAccounts hPaced hCall hStep => hPaced.step hAccounts hCall hStep) hReached
    refine (hAsks.answers hAccounts).congr (exists_congr fun held => and_congr_right ?_)
    intro hHeld
    constructor
    · exact hAsks.not_apart_of_start_eq hAccounts hHeld
    · exact hPaced.start_eq_of_not_apart hAccounts hAsks (hRegular.2 grant hDemand) hHeld
  · intro state hReached call hOrderly grant hDemand
    have hAsks := demand?_eq_some_iff.mp hDemand
    obtain ⟨hAccounts, hPiled⟩ := reached_induction hValid (fun _ _ hCall => hCall.1) Piled
      (piled_empty layout registers)
      (fun _ _ _ _ _ hAccounts hPiled hCall hStep => hPiled.step hAccounts hCall hStep) hReached
    have hApart : ∀ held ∈ state.2, held.Apart grant := fun held hHeld =>
      hPiled.apart hAccounts hAsks hHeld
    refine ⟨hApart, (hAsks.answers hAccounts).congr ⟨?_, False.elim⟩⟩
    rintro ⟨held, hHeld, hStart⟩
    exact hAsks.not_apart_of_start_eq hAccounts hHeld hStart (hApart held hHeld)

open SpaceCall in
/-- Two arrays of two cells are placed.  When the first is taken back, the next one is refused the
cells of the second; when the second is, the next one gets them. -/
theorem freed_first_collision_surfaced :
    (∃ state, Reached (Regular 2) enter (.empty .standard 5, []) state ∧
      state.2 = [⟨.arrays, 1048578, 2⟩] ∧ ∃ address : Address, address.toNat = 1048578 ∧
        (allocateArray 2 ⟨2, 1⟩).action.Refuses state.1 (.addressInUse address)) ∧
    ∃ state, Reached Orderly enter (.empty .standard 5, []) state ∧
      state.2 = [⟨.arrays, 1048576, 2⟩] ∧ ∃ answer after,
        (allocateArray 2 ⟨2, 1⟩).action.Gives state.1 answer after := by
  obtain ⟨-, hRegular, hOrderly⟩ := @collisions_surfaced_at_starts .standard rfl 5
  have hMade : Reached (Regular 2) enter (.empty .standard 5, []) _ :=
    .call (.createArray "c" 2) (.call (.createArray "b" 2) (.call (.createArray "a" 2)
      (.call (.values (.create (.constant 9))) (.call (.values (.create (.constant 8)))
        (.call (.values (.create (.constant 7))) .start ⟨by trivial, nofun⟩) ⟨by trivial, nofun⟩)
      ⟨by trivial, nofun⟩) ⟨by trivial, nofun⟩) ⟨by trivial, nofun⟩) ⟨by trivial, nofun⟩
  have hReached : Reached (Regular 2) enter (.empty .standard 5, []) _ :=
    .call (.free 1048576) (.call (.allocateArray 1 ⟨1, 1⟩) (.call (.allocateArray 0 ⟨0, 1⟩) hMade
      ⟨by exact fun _ _ => rfl, by rintro _ ⟨⟩ _; rfl⟩)
      ⟨by exact fun _ _ => rfl, by rintro _ ⟨⟩ _; rfl⟩) ⟨by trivial, nofun⟩
  have hBuilt : Reached Orderly enter (.empty .standard 5, []) _ :=
    .call (.createArray "c" 2) (.call (.createArray "b" 2) (.call (.createArray "a" 2)
      (.call (.values (.create (.constant 9))) (.call (.values (.create (.constant 8)))
        (.call (.values (.create (.constant 7))) .start ⟨by trivial, nofun⟩) ⟨by trivial, nofun⟩)
      ⟨by trivial, nofun⟩) ⟨by trivial, nofun⟩) ⟨by trivial, nofun⟩) ⟨by trivial, nofun⟩
  have hArrived : Reached Orderly enter (.empty .standard 5, []) _ :=
    .call (.free 1048578) (.call (.allocateArray 1 ⟨1, 1⟩) (.call (.allocateArray 0 ⟨0, 1⟩) hBuilt
      ⟨by exact fun _ _ => rfl, nofun⟩) ⟨by exact fun _ _ => rfl, nofun⟩)
      ⟨by trivial, by
        rintro _ ⟨⟩ grant hGrant hStart - -
        rcases List.mem_cons.mp hGrant with rfl | hOther
        · rfl
        · rw [List.mem_singleton.mp hOther] at hStart
          contradiction⟩
  refine ⟨⟨_, hReached, rfl, ?_⟩, _, hArrived, rfl, ?_⟩
  · refine (hRegular 2 _ hReached _ ⟨?_, ?_⟩ ⟨.arrays, 1048578, 2⟩ rfl).refused ?_
    · exact fun _ _ => rfl
    · rintro _ ⟨⟩ _
      rfl
    · refine ⟨⟨.arrays, 1048578, 2⟩, List.mem_singleton.mpr rfl, ?_⟩
      intro hApart
      exact hApart 1048578 ⟨⟨by decide, by decide⟩, by decide, by decide⟩
  · obtain ⟨answer, after, hGives, -⟩ := (hOrderly _ hArrived (.allocateArray 2 ⟨2, 1⟩)
      ⟨fun _ _ => rfl, nofun⟩ ⟨.arrays, 1048578, 2⟩ rfl).2.given id
    exact ⟨answer, after, hGives⟩

open SpaceCall in
/-- An array of one cell, one of three and another of one: when the first is taken back, the next
one is given a cell of the second, which is still in use. -/
theorem array_overlap_not_surfaced :
    ∃ state, Reached (fun state call => Allowed state.1 call) enter (.empty .standard 5, []) state ∧
      state.2 = [⟨.arrays, 1048577, 3⟩] ∧ Allowed state.1 (.allocateArray 2 ⟨2, 1⟩) ∧
      (∃ answer after, (allocateArray 2 ⟨2, 1⟩).action.Gives state.1 answer after ∧
        enter state (.allocateArray 2 ⟨2, 1⟩) =
          (after, [⟨.arrays, 1048579, 1⟩, ⟨.arrays, 1048577, 3⟩])) ∧
      ¬Grant.Apart ⟨.arrays, 1048577, 3⟩ ⟨.arrays, 1048579, 1⟩ := by
  have hMade : Reached (fun state call => Allowed state.1 call) enter (.empty .standard 5, []) _ :=
    .call (.createArray "c" 1) (.call (.createArray "b" 3) (.call (.createArray "a" 1)
      (.call (.values (.create (.constant 9))) (.call (.values (.create (.constant 8)))
        (.call (.values (.create (.constant 7))) .start (by trivial)) (by trivial)) (by trivial))
      (by trivial)) (by trivial)) (by trivial)
  have hReached : Reached (fun state call => Allowed state.1 call) enter
      (.empty .standard 5, []) _ :=
    .call (.free 1048576) (.call (.allocateArray 1 ⟨1, 1⟩) (.call (.allocateArray 0 ⟨0, 1⟩) hMade
      (by exact fun _ _ => rfl)) (by exact fun _ _ => rfl)) (by trivial)
  refine ⟨_, hReached, rfl, fun _ _ => rfl, ⟨_, _, rfl, rfl⟩, ?_⟩
  intro hApart
  exact hApart 1048579 ⟨⟨by decide, by decide⟩, by decide, by decide⟩

end RegisterCompiler
