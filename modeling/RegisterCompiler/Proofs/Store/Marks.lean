/-
Which values live.

A value is marked by what it is, an element at a fixed offset of an array, another element
or no element, and by whether it owns a cell.  A handle is born once it was given out, and
is never given out again.  An operation keeps the store when old values keep their marks or
die, and new ones own a cell.
-/

import RegisterCompiler.Proofs.Store.Cells

set_option autoImplicit false

namespace RegisterCompiler

/-- What a value is: an element at a fixed offset of an array, another element, or neither. -/
inductive Mark where
  | fixed (ref : ArrayRef) (offset : Int)
  | dynamic
  | other
deriving Repr, DecidableEq

def Payload.mark : Payload → Mark
  | .element ⟨_, some offset, none, some ref⟩ => .fixed ref offset
  | .element _ => .dynamic
  | .constant _ | .plain _ | .missing => .other

theorem Payload.mark_eq_fixed_iff {payload : Payload} {ref : ArrayRef} {offset : Int} :
    payload.mark = .fixed ref offset ↔
      ∃ slot, payload = .element ⟨slot, some offset, none, some ref⟩ := by
  constructor
  · intro hMark
    unfold mark at hMark
    split at hMark
    · cases hMark
      exact ⟨_, rfl⟩
    all_goals cases hMark
  · rintro ⟨slot, rfl⟩
    rfl

/-- An element that is addressed through a variable is at no fixed offset. -/
theorem Payload.mark_eq_dynamic {element : ArrayElement} (hIndex : element.index ≠ none) :
    (Payload.element element).mark = .dynamic := by
  unfold mark
  split
  · rename_i hSame
    cases hSame
    exact absurd rfl hIndex
  · rfl
  all_goals contradiction

theorem Value.mark_mapPlain (value : Value) (change : PlainVariable → PlainVariable) :
    (value.mapPlain change).payload.mark = value.payload.mark ∧
      (value.mapPlain change).chunk = value.chunk := by
  obtain ⟨payload, register, chunk⟩ := value
  cases payload with
  | constant constant => exact ⟨rfl, rfl⟩
  | plain scalar => exact ⟨rfl, rfl⟩
  | missing => exact ⟨rfl, rfl⟩
  | element element =>
      obtain ⟨slot, offset, index, array⟩ := element
      refine ⟨?_, rfl⟩
      cases offset <;> cases index <;> cases array <;> rfl

/-! ### Handles -/

namespace Arena

/-- What the value of a handle is, and whether it owns a cell. -/
def mark? (arena : Arena) (handle : Handle) : Option (Mark × Bool) :=
  (arena.get? handle).map fun value => (value.payload.mark, value.chunk.isSome)

def Born (arena : Arena) (handle : Handle) : Prop :=
  ∃ slot, arena.slots[handle.index]? = some slot ∧ handle.generation ≤ slot.generation

/-- A handle that was given out and whose value owns a cell as long as it lives. -/
structure Housed (arena : Arena) (handle : Handle) : Prop where
  born : arena.Born handle
  owns : ∀ mark owns, arena.mark? handle = some (mark, owns) → owns = true

variable {arena : Arena} {handle : Handle}

theorem mark?_eq_some_iff {mark : Mark} {owns : Bool} :
    arena.mark? handle = some (mark, owns) ↔
      ∃ value, arena.get? handle = some value ∧ value.payload.mark = mark ∧
        value.chunk.isSome = owns := by
  rw [mark?, Option.map_eq_some_iff]
  simp only [Prod.mk.injEq]

theorem born_of_get? {value : Value} (hLive : arena.get? handle = some value) :
    arena.Born handle :=
  ⟨_, (get?_eq_some_iff.mp hLive).2, Nat.le_refl _⟩

theorem born_of_mark? {mark : Mark × Bool} (hMark : arena.mark? handle = some mark) :
    arena.Born handle := by
  obtain ⟨value, hLive, -⟩ := Option.map_eq_some_iff.mp hMark
  exact born_of_get? hLive

theorem housed_of_get? {value : Value} (hLive : arena.get? handle = some value)
    (hChunk : value.chunk.isSome = true) : arena.Housed handle := by
  refine ⟨born_of_get? hLive, ?_⟩
  intro mark owns hMark
  obtain ⟨found, hFound, -, hOwns⟩ := mark?_eq_some_iff.mp hMark
  rw [hLive] at hFound
  rw [← hOwns, ← Option.some.inj hFound]
  exact hChunk

/-! ### Creating -/

section Creating

variable (hWell : arena.WellFormed) (payload : Payload)

include hWell

theorem not_born_create : ¬arena.Born (arena.create payload).1 := by
  rintro ⟨slot, hSlot, hGeneration⟩
  unfold create at hSlot hGeneration
  cases hFree : arena.freeSlots with
  | nil => simp [hFree] at hSlot
  | cons index rest =>
      obtain ⟨found, hFound, -⟩ := hWell.empty index (by rw [hFree]; exact List.mem_cons_self)
      simp only [hFree, Array.getD_eq_getD_getElem?, hFound, Option.getD_some,
        Option.some.injEq] at hSlot hGeneration
      rw [← hSlot] at hGeneration
      omega

theorem mark?_create (other : Handle) :
    (arena.create payload).2.mark? other =
      if other = (arena.create payload).1 then some (payload.mark, false)
      else arena.mark? other := by
  unfold mark?
  split
  · rename_i hSame
    rw [hSame, get?_create_self hWell]
    rfl
  · rename_i hOther
    rw [get?_create_of_ne hWell payload hOther]

end Creating

theorem born_create (payload : Payload) (hBorn : arena.Born handle) :
    (arena.create payload).2.Born handle := by
  obtain ⟨slot, hSlot, hGeneration⟩ := hBorn
  have hBound := (Array.getElem?_eq_some_iff.mp hSlot).1
  unfold create
  cases hFree : arena.freeSlots with
  | nil =>
      refine ⟨slot, ?_, hGeneration⟩
      rw [Array.getElem?_push, if_neg (Nat.ne_of_lt hBound)]
      exact hSlot
  | cons index rest =>
      by_cases hSame : index = handle.index
      · refine ⟨⟨slot.generation + 1, some (.ofPayload payload)⟩, ?_, Nat.le_succ_of_le hGeneration⟩
        simp only [hSame, Array.set!_eq_setIfInBounds, Array.getElem?_setIfInBounds, hBound, if_true,
          Array.getD_eq_getD_getElem?, hSlot, Option.getD_some]
      · refine ⟨slot, ?_, hGeneration⟩
        simp only [Array.set!_eq_setIfInBounds]
        rw [Array.getElem?_setIfInBounds, if_neg hSame]
        exact hSlot

/-! ### Destroying and changing -/

theorem born_set {value : Value} (hLive : arena.get? handle = some value)
    (content : Option Value) (freeSlots : List Nat) (other : Handle) :
    Born { arena with
        slots := arena.slots.set! handle.index ⟨handle.generation, content⟩
        freeSlots := freeSlots } other ↔ arena.Born other := by
  have hSlot := (get?_eq_some_iff.mp hLive).2
  have hBound := (Array.getElem?_eq_some_iff.mp hSlot).1
  unfold Born
  simp only [Array.set!_eq_setIfInBounds, Array.getElem?_setIfInBounds]
  by_cases hSame : handle.index = other.index
  · rw [← hSame, hSlot]
    simp [hBound]
  · simp [hSame]

theorem born_modify (arena : Arena) (handle other : Handle) (change : Value → Value) :
    (arena.modify handle change).Born other ↔ arena.Born other := by
  unfold modify
  split
  · exact Iff.rfl
  · rename_i hLive
    exact born_set hLive _ _ other

theorem mark?_modify_of_ne (change : Value → Value) {other : Handle} (hOther : other ≠ handle) :
    (arena.modify handle change).mark? other = arena.mark? other := by
  rw [mark?, mark?, get?_modify, if_neg hOther]

theorem mark?_modify {change : Value → Value}
    (hChange : ∀ value, (change value).payload.mark = value.payload.mark ∧
      (change value).chunk = value.chunk) (handle other : Handle) :
    (arena.modify handle change).mark? other = arena.mark? other := by
  rw [mark?, mark?, get?_modify]
  split
  · rename_i hSame
    rw [hSame, Option.map_map]
    congr 1
    funext value
    obtain ⟨hMark, hChunk⟩ := hChange value
    simp only [Function.comp_apply, hMark, hChunk]
  · rfl

/-- A destroyed value is gone, and no other. -/
theorem marks_of_free? (hWell : arena.WellFormed) {value : Value} {after : Arena}
    (hFree : arena.free? handle = some (value, after)) :
    after.WellFormed ∧ after.arrays = arena.arrays ∧
      (∀ other, after.Born other ↔ arena.Born other) ∧
      ∀ other, after.mark? other = if other = handle then none else arena.mark? other := by
  have hLive : ∃ found, arena.get? handle = some found := by
    unfold free? at hFree
    obtain ⟨found, hFound, -⟩ := Option.map_eq_some_iff.mp hFree
    exact ⟨found, hFound⟩
  obtain ⟨found, hLive⟩ := hLive
  obtain ⟨rest, hRest, hWellAfter, hArrays, hGet⟩ := free?_of_get? hWell hLive
  have hBorn : ∀ other, after.Born other ↔ arena.Born other := by
    rw [free?, hLive, Option.map_some] at hFree
    cases hFree
    exact born_set hLive none (handle.index :: arena.freeSlots)
  rw [hRest] at hFree
  cases hFree
  refine ⟨hWellAfter, hArrays, hBorn, ?_⟩
  intro other
  rw [mark?, mark?, hGet]
  split <;> rfl

end Arena

/-! ### Operations that keep the store -/

namespace Store

/-- Values that were there keep their marks or die as allowed, new ones are no elements and own
a cell, and nothing but values with a cell comes to own a cell or to a register. -/
structure Keeps (dead : Handle → Prop) (before after : Store) : Prop where
  wellFormed : after.arena.WellFormed
  born : ∀ handle, before.arena.Born handle → after.arena.Born handle
  old : ∀ handle, before.arena.Born handle →
    after.arena.mark? handle = before.arena.mark? handle ∨
      after.arena.mark? handle = none ∧ dead handle
  new : ∀ handle mark, ¬before.arena.Born handle → after.arena.mark? handle = some mark →
    mark = (.other, true)
  elements : ∀ ref, (after.arena.array ref).elements = (before.arena.array ref).elements
  owners : ∀ address handle, after.space.chunks.get? address = some handle →
    before.space.chunks.get? address = some handle ∨ after.arena.Housed handle
  occupants : ∀ register handle, after.occupant? register = some handle →
    before.occupant? register = some handle ∨ after.arena.Housed handle

namespace Keeps

variable {dead : Handle → Prop} {before middle after : Store}

theorem housed (hKeeps : before.Keeps dead after) {handle : Handle}
    (hHoused : before.arena.Housed handle) : after.arena.Housed handle := by
  refine ⟨hKeeps.born handle hHoused.born, ?_⟩
  intro mark owns hMark
  cases hKeeps.old handle hHoused.born with
  | inl hSame =>
      rw [hSame] at hMark
      exact hHoused.owns mark owns hMark
  | inr hDead =>
      rw [hDead.1] at hMark
      contradiction

theorem mark?_of_born (hKeeps : before.Keeps dead after) {handle : Handle}
    (hBorn : before.arena.Born handle) {mark : Mark × Bool}
    (hMark : after.arena.mark? handle = some mark) : before.arena.mark? handle = some mark := by
  cases hKeeps.old handle hBorn with
  | inl hSame => exact hSame ▸ hMark
  | inr hGone =>
      rw [hGone.1] at hMark
      contradiction

theorem mark?_cases (hKeeps : before.Keeps dead after) {handle : Handle} {mark : Mark × Bool}
    (hMark : after.arena.mark? handle = some mark) :
    before.arena.mark? handle = some mark ∨ mark = (.other, true) := by
  by_cases hBorn : before.arena.Born handle
  · exact .inl (hKeeps.mark?_of_born hBorn hMark)
  · exact .inr (hKeeps.new handle mark hBorn hMark)

theorem mark?_fixed (hKeeps : before.Keeps dead after) {handle : Handle} {ref : ArrayRef}
    {offset : Int} {owns : Bool}
    (hMark : after.arena.mark? handle = some (.fixed ref offset, owns)) :
    before.arena.mark? handle = some (.fixed ref offset, owns) := by
  cases hKeeps.mark?_cases hMark with
  | inl hBefore => exact hBefore
  | inr hOther => cases hOther

/-- A change that touches no value. -/
theorem of_marks (hWell : after.arena.WellFormed)
    (hBorn : ∀ handle, before.arena.Born handle → after.arena.Born handle)
    (hMarks : ∀ handle, after.arena.mark? handle = before.arena.mark? handle)
    (hElements : ∀ ref, (after.arena.array ref).elements = (before.arena.array ref).elements)
    (hChunks : after.space.chunks = before.space.chunks)
    (hOccupants : ∀ register handle, after.occupant? register = some handle →
      before.occupant? register = some handle) : before.Keeps dead after where
  wellFormed := hWell
  born := hBorn
  old := fun handle _ => .inl (hMarks handle)
  new := by
    intro handle mark hUnborn hMark
    rw [hMarks] at hMark
    exact absurd (Arena.born_of_mark? hMark) hUnborn
  elements := hElements
  owners := fun address handle hOwner => .inl (hChunks ▸ hOwner)
  occupants := fun register handle hOccupant => .inl (hOccupants register handle hOccupant)

theorem refl (hWell : before.arena.WellFormed) : before.Keeps dead before :=
  .of_marks hWell (fun _ hBorn => hBorn) (fun _ => rfl) (fun _ => rfl) rfl fun _ _ hOccupant => hOccupant

theorem trans (hFirst : before.Keeps dead middle) (hSecond : middle.Keeps dead after) :
    before.Keeps dead after where
  wellFormed := hSecond.wellFormed
  born := fun handle hBorn => hSecond.born handle (hFirst.born handle hBorn)
  old := by
    intro handle hBorn
    cases hSecond.old handle (hFirst.born handle hBorn) with
    | inr hDead => exact .inr hDead
    | inl hSame =>
        rw [hSame]
        exact hFirst.old handle hBorn
  new := by
    intro handle mark hUnborn hMark
    by_cases hLater : middle.arena.Born handle
    · cases hSecond.old handle hLater with
      | inl hSame =>
          rw [hSame] at hMark
          exact hFirst.new handle mark hUnborn hMark
      | inr hDead =>
          rw [hDead.1] at hMark
          contradiction
    · exact hSecond.new handle mark hLater hMark
  elements := fun ref => (hSecond.elements ref).trans (hFirst.elements ref)
  owners := by
    intro address handle hOwner
    cases hSecond.owners address handle hOwner with
    | inr hHoused => exact .inr hHoused
    | inl hBefore => exact (hFirst.owners address handle hBefore).imp_right hSecond.housed
  occupants := by
    intro register handle hOccupant
    cases hSecond.occupants register handle hOccupant with
    | inr hHoused => exact .inr hHoused
    | inl hBefore => exact (hFirst.occupants register handle hBefore).imp_right hSecond.housed

theorem mono {more : Handle → Prop} (hKeeps : before.Keeps dead after)
    (hMore : ∀ handle, dead handle → more handle) : before.Keeps more after where
  wellFormed := hKeeps.wellFormed
  born := hKeeps.born
  old := fun handle hBorn => (hKeeps.old handle hBorn).imp_right (And.imp_right (hMore handle))
  new := hKeeps.new
  elements := hKeeps.elements
  owners := hKeeps.owners
  occupants := hKeeps.occupants

end Keeps

/-! ### Registers -/

variable {store : Store} {register other : Int} {handle : Handle}

private theorem occupant?_of_setRegister {state : RegisterState}
    (hOccupant : (store.setRegister register ⟨state, none⟩).occupant? other = some handle) :
    store.occupant? other = some handle := by
  obtain ⟨found, hFound⟩ := occupant?_eq_some_iff.mp hOccupant
  obtain ⟨hLow, hEntry⟩ := register?_eq_some_iff.mp hFound
  simp only [setRegister, Array.set!_eq_setIfInBounds, Array.getElem?_setIfInBounds] at hEntry
  split at hEntry
  · split at hEntry <;> cases hEntry
  · exact occupant?_eq_some_iff.mpr ⟨found, register?_eq_some_iff.mpr ⟨hLow, hEntry⟩⟩

private theorem occupant?_of_modify {change : Register → Register} {arena : Arena}
    (hChange : ∀ entry : Register, (change entry).occupant = none ∨
      (change entry).occupant = entry.occupant)
    (hOccupant : Store.occupant? { store with
      arena := arena
      registers := store.registers.modify register.toNat change } other = some handle) :
    store.occupant? other = some handle := by
  obtain ⟨found, hFound⟩ := occupant?_eq_some_iff.mp hOccupant
  obtain ⟨hLow, hEntry⟩ := register?_eq_some_iff.mp hFound
  simp only [Array.getElem?_modify] at hEntry
  split at hEntry
  · obtain ⟨entry, hOld, hNew⟩ := Option.map_eq_some_iff.mp hEntry
    have hSame := hChange entry
    rw [hNew] at hSame
    cases hSame with
    | inl hNone => contradiction
    | inr hKept =>
        refine occupant?_eq_some_iff.mpr ⟨entry.state, register?_eq_some_iff.mpr ⟨hLow, ?_⟩⟩
        rw [hOld, show some handle = entry.occupant from hKept]
  · exact occupant?_eq_some_iff.mpr ⟨found, register?_eq_some_iff.mpr ⟨hLow, hEntry⟩⟩

theorem keeps_unlink (hWell : store.arena.WellFormed) (register : Int) {dead : Handle → Prop} :
    store.Keeps dead (store.unlink register) := by
  unfold unlink
  split
  · exact .refl hWell
  · rename_i handle _
    apply Keeps.of_marks
    · exact Arena.wellFormed_modify hWell _ _
    · exact fun other hBorn => (Arena.born_modify _ _ _ _).mpr hBorn
    · apply Arena.mark?_modify
      intro value
      split <;> exact ⟨rfl, rfl⟩
    · intro ref
      rw [Arena.array_congr (Arena.arrays_modify _ _ _)]
    · rfl
    · intro other found hOccupant
      exact occupant?_of_modify (fun _ => .inl rfl) hOccupant

private theorem keeps_setRegister (hWell : store.arena.WellFormed) (register : Int)
    (state : RegisterState) {dead : Handle → Prop} :
    store.Keeps dead (store.setRegister register ⟨state, none⟩) :=
  .of_marks hWell (fun _ hBorn => hBorn) (fun _ => rfl) (fun _ => rfl) rfl
    fun _ _ => occupant?_of_setRegister

theorem keeps_markRegister (hWell : store.arena.WellFormed) (register : Int)
    (state : RegisterState) {dead : Handle → Prop} :
    store.Keeps dead (store.markRegister register state) :=
  .of_marks hWell (fun _ hBorn => hBorn) (fun _ => rfl) (fun _ => rfl) rfl
    fun _ _ => occupant?_of_modify fun _ => .inr rfl

/-- A change of what is known about a value keeps the store. -/
theorem keeps_modify (hWell : store.arena.WellFormed) (handle : Handle) {change : Value → Value}
    (hChange : ∀ value, (change value).payload.mark = value.payload.mark ∧
      (change value).chunk = value.chunk) {dead : Handle → Prop} :
    store.Keeps dead { store with arena := store.arena.modify handle change } := by
  apply Keeps.of_marks
  · exact Arena.wellFormed_modify hWell _ _
  · exact fun other hBorn => (Arena.born_modify _ _ _ _).mpr hBorn
  · exact Arena.mark?_modify hChange handle
  · intro ref
    rw [Arena.array_congr (Arena.arrays_modify _ _ _)]
  · rfl
  · exact fun _ _ hOccupant => hOccupant

end Store

namespace StoreAction

class Steady {α : Type} (action : StoreAction α) : Prop where
  keeps : ∀ before value after, action.Gives before value after → before.arena.WellFormed →
    before.Keeps (fun _ => False) after

namespace Steady

variable {α β : Type}

instance pure (value : α) : Steady (pure value : StoreAction α) where
  keeps := by
    intro before found after hGives hWell
    rw [← ((Gives.pure value before).unique hGives).2]
    exact .refl hWell

instance get : Steady (MonadState.get : StoreAction Store) where
  keeps := by
    intro before found after hGives hWell
    rw [← ((Gives.get before).unique hGives).2]
    exact .refl hWell

instance throw (fault : StoreFault) : Steady (throw fault : StoreAction α) where
  keeps := fun _ _ _ hGives => by cases hGives

instance bind (action : StoreAction α) (next : α → StoreAction β) [hAction : Steady action]
    [hNext : ∀ value, Steady (next value)] : Steady (action >>= next) where
  keeps := by
    intro before result after hGives hWell
    obtain ⟨value, middle, hFirst, hSecond⟩ := hGives.exists_of_bind
    have hMiddle := hAction.keeps before value middle hFirst hWell
    exact hMiddle.trans ((hNext value).keeps middle result after hSecond hMiddle.wellFormed)

theorem andThen {action : StoreAction α} {next : α → StoreAction β} [Steady action]
    (hNext : ∀ value, Steady (next value)) : Steady (action >>= next) :=
  inferInstance

instance ite {condition : Prop} [Decidable condition] (first second : StoreAction α)
    [hFirst : Steady first] [hSecond : Steady second] :
    Steady (if condition then first else second) := by
  split
  · exact hFirst
  · exact hSecond

theorem modify {change : Store → Store}
    (hChange : ∀ store : Store, store.arena.WellFormed →
      store.Keeps (fun _ => False) (change store)) : Steady (modify change : StoreAction Unit) where
  keeps := by
    intro before found after hGives hWell
    rw [← ((Gives.modify change before).unique hGives).2]
    exact hChange before hWell

end Steady

instance value_steady (handle : Handle) : Steady (value handle) := by
  unfold value
  refine .andThen fun store => ?_
  split
  · infer_instance
  · infer_instance

instance checkAllocatable_steady (register : Int) : Steady (checkAllocatable register) := by
  unfold checkAllocatable
  infer_instance

private theorem vacate_steady (register : Int) (state : RegisterState) : Steady
    (modify fun store => (store.unlink register).setRegister register ⟨state, none⟩) := by
  apply Steady.modify
  intro store hWell
  have hUnlink : store.Keeps (fun _ => False) (store.unlink register) :=
    Store.keeps_unlink hWell register
  exact hUnlink.trans (Store.keeps_setRegister hUnlink.wellFormed register state)

instance release_steady (register : Int) : Steady (release register) := by
  have hVacate := vacate_steady register .free
  unfold release
  infer_instance

instance reserve_steady (register : Int) : Steady (reserve register) := by
  have hVacate := vacate_steady register .inUse
  unfold reserve
  infer_instance

instance setState_steady (register : Int) (state : RegisterState) :
    Steady (setState register state) := by
  have hMark : Steady (modify fun store => store.markRegister register state) :=
    .modify fun _ hWell => Store.keeps_markRegister hWell register state
  unfold setState
  infer_instance

instance modifySymbols_steady (change : SymbolTable → SymbolTable) :
    Steady (modifySymbols change) :=
  .modify fun _ hWell => .of_marks hWell (fun _ hBorn => hBorn) (fun _ => rfl) (fun _ => rfl) rfl
    fun _ _ hOccupant => hOccupant

instance setFresh_steady (name : String) (fresh : Bool) : Steady (setFresh name fresh) :=
  modifySymbols_steady _

instance undeclare_steady (name : String) : Steady (undeclare name) :=
  modifySymbols_steady _

instance declare_steady (name : String) (kind : SymbolKind) (binding : Binding) :
    Steady (declare name kind binding) := by
  unfold declare
  refine .andThen fun store => ?_
  split
  · infer_instance
  · infer_instance

theorem change_steady (handle : Handle) {update : Value → Value}
    (hUpdate : ∀ value, (update value).payload.mark = value.payload.mark ∧
      (update value).chunk = value.chunk) : Steady (change handle update) := by
  have hModify : Steady (modifyArena fun arena => arena.modify handle update) :=
    .modify fun _ hWell => Store.keeps_modify hWell handle hUpdate
  unfold change
  infer_instance

instance forgetSymbolic_steady (handle : Handle) : Steady (forgetSymbolic handle) := by
  have hModify : Steady (modifyArena fun arena => arena.modify handle Value.forgetExpression) :=
    .modify fun _ hWell => Store.keeps_modify hWell handle fun value => value.mark_mapPlain _
  unfold forgetSymbolic
  refine .andThen fun found => ?_
  simp only
  split
  · infer_instance
  · infer_instance
  · infer_instance
  · infer_instance

end StoreAction

end RegisterCompiler
