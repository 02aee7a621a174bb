/-
Free loop cells.

The search for loop cells finds the lowest run of free addresses that is long enough, and it
fails only if there is none.  So whether cells can be taken, and which, depends only on which
cells have owners.
-/

import RegisterCompiler.Proofs.Generator.Ensures
import RegisterCompiler.Proofs.Store.Housing

set_option autoImplicit false

namespace RegisterCompiler

namespace Setting

variable {first second third setting : Setting} {fewer count : Nat}

structure SameCells (first second : Setting) : Prop where
  layout : second.layout = first.layout
  owners : ∀ address, (second.owner address).isSome = (first.owner address).isSome

namespace SameCells

theorem refl (setting : Setting) : setting.SameCells setting :=
  ⟨rfl, fun _ => rfl⟩

theorem symm (hSame : first.SameCells second) : second.SameCells first :=
  ⟨hSame.layout.symm, fun address => (hSame.owners address).symm⟩

theorem trans (hFirst : first.SameCells second) (hSecond : second.SameCells third) :
    first.SameCells third :=
  ⟨hSecond.layout.trans hFirst.layout,
    fun address => (hSecond.owners address).trans (hFirst.owners address)⟩

private theorem owner_eq_none_iff (hSame : first.SameCells second) (address : Address) :
    second.owner address = none ↔ first.owner address = none := by
  rw [← Option.not_isSome_iff_eq_none, ← Option.not_isSome_iff_eq_none, hSame.owners]

end SameCells

/-- A place in the loop segment where so many cells in a row have no owner. -/
structure RunAt (setting : Setting) (count start : Nat) : Prop where
  first : setting.layout.loop.first.toNat ≤ start
  last : start + count ≤ setting.layout.loop.last.toNat + 1
  free : ∀ address : Address, start ≤ address.toNat → address.toNat < start + count →
    setting.owner address = none

private theorem RunAt.congr {start : Nat} (hRun : first.RunAt count start)
    (hSame : first.SameCells second) : second.RunAt count start := by
  constructor
  · rw [hSame.layout]
    exact hRun.first
  · rw [hSame.layout]
    exact hRun.last
  · intro address hLow hHigh
    exact (hSame.owner_eq_none_iff address).mpr (hRun.free address hLow hHigh)

def Vacant (setting : Setting) (count : Nat) : Prop :=
  0 < count → ∃ start, setting.RunAt count start

theorem vacant_zero (setting : Setting) : setting.Vacant 0 :=
  fun hPositive => absurd hPositive (Nat.lt_irrefl 0)

theorem Vacant.mono (hVacant : setting.Vacant count) (hFewer : fewer ≤ count) :
    setting.Vacant fewer := by
  intro hPositive
  obtain ⟨start, hRun⟩ := hVacant (Nat.lt_of_lt_of_le hPositive hFewer)
  refine ⟨start, hRun.first, ?_, ?_⟩
  · have hLast := hRun.last
    omega
  · intro address hLow hHigh
    exact hRun.free address hLow (by omega)

theorem Vacant.congr (hVacant : first.Vacant count) (hSame : first.SameCells second) :
    second.Vacant count := by
  intro hPositive
  obtain ⟨start, hRun⟩ := hVacant hPositive
  exact ⟨start, hRun.congr hSame⟩

/-- The lowest place where so many cells in a row have no owner. -/
structure LowestRun (setting : Setting) (count : Nat) (start : Address) : Prop where
  run : setting.RunAt count start.toNat
  lowest : ∀ other, setting.RunAt count other → start.toNat ≤ other

theorem LowestRun.congr {start : Address} (hLowest : first.LowestRun count start)
    (hSame : first.SameCells second) : second.LowestRun count start where
  run := hLowest.run.congr hSame
  lowest := fun other hOther => hLowest.lowest other (hOther.congr hSame.symm)

theorem LowestRun.unique {start other : Address} (hFirst : setting.LowestRun count start)
    (hSecond : setting.LowestRun count other) : start = other := by
  apply UInt64.toNat_inj.mp
  apply Nat.le_antisymm
  · exact hFirst.lowest _ hSecond.run
  · exact hSecond.lowest _ hFirst.run

end Setting

/-! ### The search -/

namespace Space

def ownedFrom (chunks : OrderedMap Address Handle) (start : Address) : Nat :=
  (chunks.entries.filter fun entry => decide (start ≤ entry.1)).length

theorem ownedFrom_lt {chunks : OrderedMap Address Handle} {start next : Address}
    {entry : Address × Handle} (hEntry : entry ∈ chunks.entries) (hLow : start ≤ entry.1)
    (hNext : entry.1 < next) : ownedFrom chunks next < ownedFrom chunks start := by
  have hMore : ∀ found : Address × Handle, next ≤ found.1 → start ≤ found.1 := by
    intro found hFound
    rw [UInt64.le_iff_toNat_le] at *
    rw [UInt64.lt_iff_toNat_lt] at hNext
    omega
  unfold ownedFrom
  have hSub : (chunks.entries.filter fun found => decide (next ≤ found.1)) =
      (chunks.entries.filter fun found => decide (start ≤ found.1)).filter
        fun found => decide (next ≤ found.1) := by
    rw [List.filter_filter]
    apply List.filter_congr
    intro found _
    by_cases hFound : next ≤ found.1
    · simp [hFound, hMore found hFound]
    · simp [hFound]
  rw [hSub]
  apply List.length_filter_lt_length_iff_exists.mpr
  refine ⟨entry, List.mem_filter.mpr ⟨hEntry, decide_eq_true hLow⟩, ?_⟩
  rw [UInt64.lt_iff_toNat_lt] at hNext
  simp only [decide_eq_true_eq, UInt64.le_iff_toNat_le]
  omega

/-- The search passes no run of free addresses. -/
theorem findRun_least {chunks : OrderedMap Address Handle} {range : AddressRange} {count : UInt64}
    {fuel : Nat} {start : Address} {place : Nat} (hCount : 0 < count.toNat)
    (hFuel : ownedFrom chunks start < fuel) (hStart : start.toNat ≤ place)
    (hLast : place + count.toNat ≤ range.last.toNat + 1)
    (hFree : ∀ address : Address, place ≤ address.toNat → address.toNat < place + count.toNat →
      chunks.get? address = none) :
    ∃ found, findRun chunks range count fuel start = some found ∧ found.toNat ≤ place := by
  induction fuel generalizing start with
  | zero => exact absurd hFuel (Nat.not_lt_zero _)
  | succ fuel inductionHypothesis =>
      have hEnd := range.last.toNat_lt
      have hOne : (1 : UInt64).toNat = 1 := rfl
      have hStop : (start + count - 1).toNat = start.toNat + count.toNat - 1 := by
        rw [UInt64.toNat_sub, UInt64.toNat_add]
        omega
      have hFits : (decide (start + count - 1 ≤ range.last) &&
          decide (start ≤ start + count - 1)) = true := by
        rw [Bool.and_eq_true, decide_eq_true_eq, decide_eq_true_eq, UInt64.le_iff_toNat_le,
          UInt64.le_iff_toNat_le, hStop]
        omega
      simp only [findRun, hFits, if_true]
      cases hClash : (chunks.range start (start + count - 1)).head? with
      | none => exact ⟨start, rfl, hStart⟩
      | some clash =>
          obtain ⟨address, owner⟩ := clash
          obtain ⟨hEntry, hLow, hHigh⟩ := (OrderedMap.mem_range_iff chunks _ _ _).mp
            (List.mem_of_mem_head? hClash)
          simp only at hLow hHigh
          -- A run that begins at or before the owned address would contain it.
          have hBehind : address.toNat < place := by
            apply Classical.byContradiction
            intro hBefore
            rw [UInt64.le_iff_toNat_le] at hHigh
            have hNone := hFree address (by omega) (by omega)
            simp only [OrderedMap.get?, Option.map_eq_none_iff, List.find?_eq_none] at hNone
            exact hNone (address, owner) hEntry (beq_iff_eq.mpr (Std.compare_eq_iff_eq.mpr rfl))
          have hNext : (address + 1).toNat = address.toNat + 1 := by
            rw [UInt64.toNat_add]
            omega
          have hOther : address ≠ range.last := by
            rintro rfl
            omega
          simp only [if_neg hOther]
          apply inductionHypothesis
          · have hAbove : address < address + 1 := by
              rw [UInt64.lt_iff_toNat_lt, hNext]
              exact Nat.lt_succ_self _
            have hFewer := ownedFrom_lt hEntry hLow hAbove
            omega
          · omega

end Space

namespace Store

variable {store : Store} {count : Nat}

/-- The search among the loop cells finds the lowest run. -/
theorem lowestRun_of_findRun (hPositive : 0 < count) (hShort : count < UInt64.size)
    {start : Address}
    (hFound : Space.findRun store.space.chunks store.space.layout.loop count.toUInt64
      (store.space.chunks.size + 1) store.space.layout.loop.first = some start) :
    store.setting.LowestRun count start := by
  have hCount : count.toUInt64.toNat = count := Nat.mod_eq_of_lt hShort
  obtain ⟨hFirst, hLast, hFree⟩ :=
    Space.findRun_spec (by rw [hCount]; exact hPositive) (Nat.le_refl _) hFound
  rw [hCount] at hLast hFree
  refine ⟨⟨hFirst, hLast, hFree⟩, ?_⟩
  intro other hOther
  obtain ⟨least, hLeast, hBelow⟩ := Space.findRun_least (by rw [hCount]; exact hPositive)
    (Nat.lt_succ_of_le (List.length_filter_le _ _)) hOther.first
    (by rw [hCount]; exact hOther.last) (by rw [hCount]; exact hOther.free)
  cases hFound.symm.trans hLeast
  exact hBelow

/-- The search among the loop cells fails only if there is no run. -/
theorem not_runAt_of_findRun (hPositive : 0 < count) (hShort : count < UInt64.size)
    (hNone : Space.findRun store.space.chunks store.space.layout.loop count.toUInt64
      (store.space.chunks.size + 1) store.space.layout.loop.first = none) (place : Nat) :
    ¬store.setting.RunAt count place := by
  intro hRun
  have hCount : count.toUInt64.toNat = count := Nat.mod_eq_of_lt hShort
  obtain ⟨least, hLeast, -⟩ := Space.findRun_least (by rw [hCount]; exact hPositive)
    (Nat.lt_succ_of_le (List.length_filter_le _ _)) hRun.first
    (by rw [hCount]; exact hRun.last) (by rw [hCount]; exact hRun.free)
  cases hNone.symm.trans hLeast

end Store

namespace StoreAction

variable {before after : Store}

/-! ### Taking cells -/

/-- A value that takes a cell becomes its owner. -/
theorem place_owner {address : Address} {handle : Handle}
    (hGives : (place address handle).Gives before () after) :
    after.setting.layout = before.setting.layout ∧ ∀ other,
      after.setting.owner other = if other = address then some handle
        else before.setting.owner other := by
  obtain ⟨found, valued, hValue, hRest⟩ := hGives.exists_of_bind
  have hValued : valued = before := by
    have hRead := hValue.of_get_bind
    cases hFound : before.arena.get? handle with
    | none => rw [hFound] at hRead; cases hRead
    | some value => rw [hFound] at hRead; cases hRead; rfl
  cases hValued
  have hRest := hRest.of_get_bind
  cases hChunk : found.chunk with
  | some owned => rw [hChunk] at hRest; cases hRest
  | none =>
      rw [hChunk] at hRest
      obtain ⟨_, recorded, hRecord, hNote⟩ := hRest.exists_of_bind
      obtain ⟨-, rfl⟩ := (Gives.modify _ recorded).unique hNote
      have hRecord := hRecord.of_get_bind
      cases hInsert : before.space.chunks.insert? address handle with
      | none => rw [hInsert] at hRecord; cases hRecord
      | some chunks =>
          rw [hInsert] at hRecord
          obtain ⟨-, rfl⟩ := (Gives.modify _ before).unique hRecord
          unfold OrderedMap.insert? at hInsert
          split at hInsert
          · cases hInsert
          · cases hInsert
            exact ⟨rfl, fun other => OrderedMap.get?_set _ _ _ _⟩

def InRun (start count : Nat) (address : Address) : Prop :=
  start ≤ address.toNat ∧ address.toNat < start + count

instance (start count : Nat) (address : Address) : Decidable (InRun start count address) :=
  inferInstanceAs (Decidable (_ ∧ _))

private theorem placeRun_owners {start : Address} {done : Nat} {handles : List Handle}
    (hFits : start.toNat + done + handles.length ≤ UInt64.size)
    (hGives : (placeRun start done handles).Gives before () after) :
    after.setting.layout = before.setting.layout ∧ ∀ address,
      (after.setting.owner address).isSome =
        ((before.setting.owner address).isSome ||
          decide (InRun (start.toNat + done) handles.length address)) := by
  induction handles generalizing before done with
  | nil =>
      obtain ⟨-, rfl⟩ := (Gives.pure () before).unique hGives
      refine ⟨rfl, fun address => ?_⟩
      have hNone : ¬InRun (start.toNat + done) ([] : List Handle).length address := by
        rintro ⟨hLow, hHigh⟩
        rw [List.length_nil] at hHigh
        omega
      rw [decide_eq_false hNone, Bool.or_false]
  | cons handle rest inductionHypothesis =>
      obtain ⟨_, middle, hPlace, hRest⟩ := hGives.exists_of_bind
      have hPlace := hPlace.of_tryCatch fun fault middle hBack => by
        obtain ⟨_, _, -, hAgain⟩ := hBack.exists_of_bind
        cases hAgain
      rw [List.length_cons] at hFits ⊢
      obtain ⟨hLayout, hOwner⟩ := place_owner hPlace
      obtain ⟨hRestLayout, hOwners⟩ := inductionHypothesis (by omega) hRest
      refine ⟨hRestLayout.trans hLayout, fun address => ?_⟩
      have hSize : UInt64.size = 2 ^ 64 := rfl
      have hHere : (start + done.toUInt64).toNat = start.toNat + done := by
        rw [UInt64.toNat_add, show done.toUInt64.toNat = done % 2 ^ 64 from rfl]
        omega
      rw [hOwners, hOwner]
      by_cases hSame : address = start + done.toUInt64
      · have hIn : InRun (start.toNat + done) (rest.length + 1) address := by
          rw [hSame, InRun, hHere]
          omega
        rw [if_pos hSame, Option.isSome_some, Bool.true_or, decide_eq_true hIn, Bool.or_true]
      · have hOther : address.toNat ≠ start.toNat + done := by
          rw [← hHere]
          exact fun hEqual => hSame (UInt64.toNat_inj.mp hEqual)
        rw [if_neg hSame]
        congr 1
        rw [decide_eq_decide]
        unfold InRun
        omega

/-- Cells are taken at the lowest place where there are enough of them. -/
theorem allocateRun_owners {handles : List Handle} (hShort : handles.length < UInt64.size)
    {start : Address} (hGives : (allocateRun .loop handles).Gives before start after) :
    before.setting.LowestRun handles.length start ∧
      after.setting.layout = before.setting.layout ∧ ∀ address,
        (after.setting.owner address).isSome =
          ((before.setting.owner address).isSome ||
            decide (InRun start.toNat handles.length address)) := by
  unfold allocateRun at hGives
  simp only [ne_eq, not_true_eq_false, if_false] at hGives
  split at hGives
  · obtain ⟨_, _, hThrow, -⟩ := hGives.exists_of_bind
    cases hThrow
  · rename_i hNonempty
    have hPositive : 0 < handles.length := by
      cases handles with
      | nil => exact absurd rfl hNonempty
      | cons handle rest => exact Nat.succ_pos _
    have hRest := hGives.of_get_bind
    split at hRest
    · cases hRest
    · rename_i found hFound
      obtain ⟨_, placed, hPlace, hPure⟩ := hRest.exists_of_bind
      obtain ⟨rfl, rfl⟩ := (Gives.pure _ placed).unique hPure
      have hLowest := Store.lowestRun_of_findRun hPositive hShort hFound
      have hLast : _ ≤ before.space.layout.loop.last.toNat + 1 := hLowest.run.last
      have hEnd := before.space.layout.loop.last.toNat_lt
      obtain ⟨hLayout, hOwners⟩ := placeRun_owners (by
        have hSize : UInt64.size = 2 ^ 64 := rfl
        omega) hPlace
      exact ⟨hLowest, hLayout, hOwners⟩

/-! ### Steps that take no cell -/

def Sober {α : Type} (action : StoreAction α) : Prop :=
  ∀ before fault after, action.run.run before = (.error fault, after) → fault.isExhaustion = false

namespace Sober

variable {α β : Type}

theorem pure (value : α) : Sober (pure value : StoreAction α) := by
  intro before fault after hRun
  cases hRun

private theorem get : Sober (MonadState.get : StoreAction Store) := by
  intro before fault after hRun
  cases hRun

theorem modify (change : Store → Store) : Sober (modify change : StoreAction Unit) := by
  intro before fault after hRun
  cases hRun

private theorem throw {fault : StoreFault} (hFault : fault.isExhaustion = false) :
    Sober (throw fault : StoreAction α) := by
  intro before found after hRun
  cases hRun
  exact hFault

theorem bind {action : StoreAction α} {next : α → StoreAction β} (hAction : action.Sober)
    (hNext : ∀ value, (next value).Sober) : (action >>= next).Sober := by
  intro before fault after hRun
  simp only [ExceptT.run_bind, StateT.run_bind] at hRun
  cases hFirst : action.run.run before with
  | mk outcome middle =>
      rw [hFirst] at hRun
      cases outcome with
      | ok value => exact hNext value middle fault after hRun
      | error found =>
          cases hRun
          exact hAction _ _ _ hFirst

private theorem tryCatch {action : StoreAction α} {handler : StoreFault → StoreAction α}
    (hAction : action.Sober)
    (hHandler : ∀ fault, fault.isExhaustion = false → (handler fault).Sober) :
    (tryCatch action handler).Sober := by
  intro before fault after hRun
  change (ExceptT.tryCatch action handler).run.run before = _ at hRun
  simp only [ExceptT.tryCatch, ExceptT.run_mk, StateT.run_bind] at hRun
  cases hFirst : action.run.run before with
  | mk outcome middle =>
      rw [show StateT.run action before = (outcome, middle) from hFirst] at hRun
      cases outcome with
      | ok value => cases hRun
      | error found =>
          exact hHandler found (hAction before found middle hFirst) middle fault after hRun

private theorem forEach {ι : Type} {step : ι → StoreAction Unit} (hStep : ∀ item, (step item).Sober)
    (items : List ι) : Sober (forIn items PUnit.unit fun item _ => do
      step item
      Pure.pure (ForInStep.yield PUnit.unit) : StoreAction PUnit) := by
  induction items with
  | nil => exact .pure _
  | cons item rest inductionHypothesis =>
      rw [List.forIn_cons, bind_assoc]
      apply (hStep item).bind
      intro _
      rw [pure_bind]
      exact inductionHypothesis

end Sober

class Modest {α : Type} (action : StoreAction α) : Prop where
  sober : action.Sober
  space : action.Leaves fun store => store.space

namespace Modest

variable {α β : Type}

instance pure (value : α) : Modest (pure value : StoreAction α) :=
  ⟨.pure value, .pure value⟩

instance get : Modest (MonadState.get : StoreAction Store) :=
  ⟨.get, .get⟩

private theorem throw {fault : StoreFault} (hFault : fault.isExhaustion = false) :
    Modest (throw fault : StoreAction α) :=
  ⟨.throw hFault, .throw fault⟩

private theorem modify {change : Store → Store}
    (hSpace : ∀ store, (change store).space = store.space) :
    Modest (modify change : StoreAction Unit) :=
  ⟨.modify change, .modify hSpace⟩

instance bind (action : StoreAction α) (next : α → StoreAction β) [hAction : Modest action]
    [hNext : ∀ value, Modest (next value)] : Modest (action >>= next) :=
  ⟨hAction.sober.bind fun value => (hNext value).sober,
    hAction.space.bind fun value => (hNext value).space⟩

private theorem andThen {action : StoreAction α} {next : α → StoreAction β} [Modest action]
    (hNext : ∀ value, Modest (next value)) : Modest (action >>= next) :=
  inferInstance

end Modest

instance modifyArena_modest (change : Arena → Arena) : Modest (modifyArena change) :=
  .modify fun _ => rfl

instance modifySymbols_modest (change : SymbolTable → SymbolTable) :
    Modest (modifySymbols change) :=
  .modify fun _ => rfl

instance value_modest (handle : Handle) : Modest (value handle) := by
  unfold value
  refine .andThen fun store => ?_
  split
  · infer_instance
  · exact .throw rfl

instance create_modest (payload : Payload) : Modest (create payload) := by
  unfold create
  infer_instance

instance free_modest (handle : Handle) : Modest (free handle) := by
  unfold free
  refine .andThen fun store => ?_
  split
  · infer_instance
  · exact .throw rfl

instance element_modest (ref : ArrayRef) (offset : Int) : Modest (element ref offset) := by
  unfold element
  refine .andThen fun store => ?_
  simp only
  split
  · infer_instance
  · exact .throw rfl

instance dynamicElement_modest (ref : ArrayRef) (index : String) :
    Modest (dynamicElement ref index) := by
  unfold dynamicElement
  infer_instance

instance change_modest (handle : Handle) (update : Value → Value) :
    Modest (change handle update) := by
  unfold change
  infer_instance

instance forgetSymbolic_modest (handle : Handle) : Modest (forgetSymbolic handle) := by
  unfold forgetSymbolic
  refine .andThen fun found => ?_
  split
  · infer_instance
  · exact .throw rfl
  · rename_i element _
    have hThrow : ∀ name, Modest (throw (.missingSlot name) : StoreAction PUnit) :=
      fun _ => .throw rfl
    split
    · infer_instance
    · infer_instance
  · infer_instance

instance setFresh_modest (name : String) (fresh : Bool) : Modest (setFresh name fresh) :=
  modifySymbols_modest _

instance undeclare_modest (name : String) : Modest (undeclare name) :=
  modifySymbols_modest _

instance declare_modest (name : String) (kind : SymbolKind) (binding : Binding) :
    Modest (declare name kind binding) := by
  unfold declare
  refine .andThen fun store => ?_
  split
  · infer_instance
  · rename_i fault hFault
    apply Modest.throw
    rw [SymbolTable.declare_eq] at hFault
    split at hFault
    · cases hFault
      rfl
    · split at hFault
      · cases hFault
        rfl
      · cases hFault

private theorem space_unlink (store : Store) (register : Int) :
    (store.unlink register).space = store.space := by
  unfold Store.unlink
  split
  · rfl
  · rfl

instance checkAllocatable_modest (register : Int) : Modest (checkAllocatable register) := by
  unfold checkAllocatable
  refine .andThen fun store => ?_
  split
  · exact .throw rfl
  · infer_instance

private theorem vacate_modest (register : Int) (entry : Register) : Modest
    (modify fun store => (store.unlink register).setRegister register entry : StoreAction Unit) :=
  .modify fun store => space_unlink store register

instance release_modest (register : Int) : Modest (release register) := by
  have := vacate_modest register ⟨.free, none⟩
  unfold release
  infer_instance

instance reserve_modest (register : Int) : Modest (reserve register) := by
  have := vacate_modest register ⟨.inUse, none⟩
  unfold reserve
  infer_instance

instance setState_modest (register : Int) (state : RegisterState) :
    Modest (setState register state) := by
  have hMark : Modest (modify fun store => store.markRegister register state : StoreAction Unit) :=
    .modify fun _ => rfl
  unfold setState
  refine .andThen fun _ => ?_
  split
  · infer_instance
  · refine .andThen fun store => ?_
    split
    · exact .throw rfl
    · infer_instance

instance bind_modest (register : Int) (handle : Handle) : Modest (bind register handle) := by
  have hUnlink : Modest (modify fun store => store.unlink register : StoreAction Unit) :=
    .modify fun store => space_unlink store register
  have hPart : ∀ previous, Modest
      (modify fun store => (store.unlink previous).markRegister previous .free : StoreAction Unit) :=
    fun previous => .modify fun store => space_unlink store previous
  have hSet : Modest (modify fun store =>
      store.setRegister register ⟨.busy, some handle⟩ : StoreAction Unit) :=
    .modify fun _ => rfl
  have hThrow : ∀ previous, Modest (throw (.registerOutside previous) : StoreAction PUnit) :=
    fun _ => .throw rfl
  unfold bind
  refine .andThen fun _ => .andThen fun _ => .andThen fun _ => .andThen fun found => ?_
  simp only
  split
  · refine .andThen fun store => ?_
    split
    · infer_instance
    · infer_instance
  · infer_instance

/-! ### Failing for want of memory -/

theorem place_sober (address : Address) (handle : Handle) : (place address handle).Sober := by
  apply Sober.bind (value_modest handle).sober
  intro found
  refine .bind .get fun store => ?_
  split
  · exact .throw rfl
  · refine .bind (.bind .get fun store => ?_) fun _ => .modify _
    split
    · exact .throw rfl
    · exact .modify _

private theorem unplace_sober (address : Address) : (unplace address).Sober := by
  refine .bind .get fun store => ?_
  split
  · exact .pure ()
  · exact .bind (.modify _) fun _ => .modify _

private theorem placeRun_sober (start : Address) (done : Nat) (handles : List Handle) :
    (placeRun start done handles).Sober := by
  induction handles generalizing done with
  | nil => exact .pure ()
  | cons handle rest inductionHypothesis =>
      refine .bind (.tryCatch (place_sober _ _) ?_) fun _ => inductionHypothesis _
      intro fault hFault
      exact .bind (.forEach (fun _ => unplace_sober _) _) fun _ => .throw hFault

/-- Cells are refused for want of memory only if there is no place for them. -/
theorem not_vacant_of_allocateRun {handles : List Handle} (hShort : handles.length < UInt64.size)
    {fault : StoreFault}
    (hRun : (allocateRun .loop handles).run.run before = (.error fault, after))
    (hFault : fault.isExhaustion = true) : ¬before.setting.Vacant handles.length := by
  unfold allocateRun at hRun
  simp only [ne_eq, not_true_eq_false, if_false] at hRun
  split at hRun
  · cases hRun
    cases hFault
  · rename_i hNonempty
    have hPositive : 0 < handles.length := by
      cases handles with
      | nil => exact absurd rfl hNonempty
      | cons handle rest => exact Nat.succ_pos _
    rw [run_get_bind] at hRun
    cases hFound : Space.findRun before.space.chunks before.space.layout.loop
        handles.length.toUInt64 (before.space.chunks.size + 1) before.space.layout.loop.first with
    | some start =>
        rw [hFound] at hRun
        have hSober := Sober.bind (placeRun_sober start 0 handles) fun _ => .pure start
        rw [hSober before fault after hRun] at hFault
        cases hFault
    | none =>
        intro hVacant
        obtain ⟨place, hPlace⟩ := hVacant hPositive
        exact Store.not_runAt_of_findRun hPositive hShort hFound place hPlace

/-! ### Giving cells back -/

theorem freeAt_sober (address : Address) : (freeAt address).Sober := by
  refine .bind .get fun store => ?_
  split
  · exact .throw rfl
  · refine .bind ?_ fun _ => .bind (unplace_sober address) fun _ => (free_modest _).sober
    refine .bind .get fun store => ?_
    simp only
    split
    · exact .modify _
    · split
      · split
        · exact .bind (.modify _) fun _ => .modify _
        · exact .modify _
      · exact .pure _

private theorem uncount_layout (address : Address) :
    (uncount address).Leaves fun store => store.space.layout := by
  refine .bind .get fun store => ?_
  simp only
  split
  · exact .modify fun _ => rfl
  · split
    · split
      · exact .bind (.modify fun _ => rfl) fun _ => .modify fun _ => rfl
      · exact .modify fun _ => rfl
    · exact .pure _

/-- A cell that is given back has no owner. -/
theorem freeAt_owner {address : Address} {value : Value}
    (hGives : (freeAt address).Gives before value after) :
    after.setting.layout = before.setting.layout ∧ ∀ other,
      after.setting.owner other = if other = address then none
        else before.setting.owner other := by
  have hRest := hGives.of_get_bind
  cases hOwner : before.space.chunks.get? address with
  | none => rw [hOwner] at hRest; cases hRest
  | some handle =>
      rw [hOwner] at hRest
      obtain ⟨_, counted, hCount, hRest⟩ := hRest.exists_of_bind
      obtain ⟨_, parted, hPart, hFree⟩ := hRest.exists_of_bind
      have hChunks : counted.space.chunks = before.space.chunks :=
        uncount_leaves address _ _ _ hCount
      have hLayout : counted.space.layout = before.space.layout :=
        uncount_layout address _ _ _ hCount
      have hSpace : after.space = parted.space := (free_modest handle).space _ _ _ hFree
      have hPart := hPart.of_get_bind
      rw [hChunks, hOwner] at hPart
      obtain ⟨-, rfl⟩ := (Gives.bind (.modify _ counted) (.modify _ _)).unique hPart
      constructor
      · exact (congrArg Space.layout hSpace).trans hLayout
      · intro other
        change after.space.chunks.get? other = _
        rw [hSpace]
        change (counted.space.chunks.erase address).get? other = _
        rw [OrderedMap.get?_erase, hChunks]
        rfl

end StoreAction

end RegisterCompiler
