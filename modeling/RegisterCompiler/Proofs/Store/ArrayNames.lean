/-
The names of arrays.

An array is named when it is described and keeps its name.  Whatever an operation on a store
does with memory cells, registers, values and symbols, and whether it succeeds or fails, the
arrays are named as before.
-/

import RegisterCompiler.Proofs.Store.Vacancies

set_option autoImplicit false

namespace RegisterCompiler

namespace Arena

def arrayNames (arena : Arena) : List String :=
  arena.arrays.toList.map ArrayInfo.name

variable {before after : Arena}

private theorem arrayNames_congr (hArrays : after.arrays = before.arrays) :
    after.arrayNames = before.arrayNames := by
  rw [arrayNames, arrayNames, hArrays]

@[simp]
theorem arrayNames_create (arena : Arena) (payload : Payload) :
    (arena.create payload).2.arrayNames = arena.arrayNames :=
  arrayNames_congr (arrays_create arena payload)

@[simp]
theorem arrayNames_modify (arena : Arena) (handle : Handle) (change : Value → Value) :
    (arena.modify handle change).arrayNames = arena.arrayNames :=
  arrayNames_congr (arrays_modify arena handle change)

private theorem arrayNames_modifyArray (arena : Arena) (ref : ArrayRef)
    {change : ArrayInfo → ArrayInfo} (hChange : ∀ info, (change info).name = info.name) :
    (arena.modifyArray ref change).arrayNames = arena.arrayNames := by
  simp only [arrayNames, modifyArray, Array.toList_modify]
  apply List.ext_getElem?
  intro index
  simp only [List.getElem?_map, List.getElem?_modify]
  cases arena.arrays.toList[index]? with
  | none => rfl
  | some info =>
      by_cases hSame : ref = index
      · simp [hSame, hChange]
      · simp [hSame]

theorem arrayNames_createArray (arena : Arena) (name : String) (length : Int) :
    (arena.createArray name length).2.arrayNames = arena.arrayNames ++ [name] := by
  simp [arrayNames, createArray, ArrayInfo.unplaced]

private theorem arrayNames_element? {arena : Arena} {ref : ArrayRef} {offset : Int}
    {found : Handle × Arena} (hElement : arena.element? ref offset = some found) :
    found.2.arrayNames = arena.arrayNames := by
  unfold element? at hElement
  dsimp only at hElement
  by_cases hRange : (arena.array ref).inRange offset = true
  · rw [if_pos hRange] at hElement
    cases hUsed : arena.usedElement? ref offset with
    | some handle =>
        rw [hUsed] at hElement
        cases hElement
        rfl
    | none =>
        rw [hUsed] at hElement
        cases hElement
        refine (arrayNames_modifyArray _ ref ?_).trans (arrayNames_create arena _)
        exact fun _ => rfl
  · rw [if_neg hRange] at hElement
    cases hElement

theorem name_array (arena : Arena) (ref : ArrayRef) :
    (arena.array ref).name ∈ arena.arrayNames ∨ (arena.array ref).name = "" := by
  rw [array, Array.getD_eq_getD_getElem?]
  cases hInfo : arena.arrays[ref]? with
  | none => exact .inr rfl
  | some info =>
      have hMem : info ∈ arena.arrays.toList :=
        List.mem_of_getElem? (Array.getElem?_toList.trans hInfo)
      exact .inl (List.mem_map_of_mem hMem)

end Arena

namespace StoreAction

class Faithful {α : Type} (action : StoreAction α) : Prop where
  arrayNames : ∀ store : Store,
    (action.run.run store).2.arena.arrayNames = store.arena.arrayNames

namespace Faithful

variable {α β : Type}

instance pure (value : α) : Faithful (pure value : StoreAction α) :=
  ⟨fun _ => rfl⟩

instance get : Faithful (MonadState.get : StoreAction Store) :=
  ⟨fun _ => rfl⟩

instance throw (fault : StoreFault) : Faithful (throw fault : StoreAction α) :=
  ⟨fun _ => rfl⟩

private theorem modify {change : Store → Store}
    (hChange : ∀ store, (change store).arena.arrayNames = store.arena.arrayNames) :
    Faithful (modify change : StoreAction Unit) :=
  ⟨hChange⟩

instance bind (action : StoreAction α) (next : α → StoreAction β) [hAction : Faithful action]
    [hNext : ∀ value, Faithful (next value)] : Faithful (action >>= next) where
  arrayNames := by
    intro store
    have hFirst := hAction.arrayNames store
    simp only [ExceptT.run_bind, StateT.run_bind]
    cases hRun : action.run.run store with
    | mk result middle =>
        rw [hRun] at hFirst
        cases result with
        | ok value => exact ((hNext value).arrayNames middle).trans hFirst
        | error fault => exact hFirst

private theorem andThen {action : StoreAction α} {next : α → StoreAction β} [Faithful action]
    (hNext : ∀ value, Faithful (next value)) : Faithful (action >>= next) :=
  inferInstance

instance ite (condition : Prop) [Decidable condition] (first second : StoreAction α)
    [Faithful first] [Faithful second] : Faithful (if condition then first else second) := by
  split <;> infer_instance

instance tryCatch (action : StoreAction α) (handler : StoreFault → StoreAction α)
    [hAction : Faithful action] [hHandler : ∀ fault, Faithful (handler fault)] :
    Faithful (tryCatch action handler) where
  arrayNames := by
    intro store
    have hFirst := hAction.arrayNames store
    change (StateT.run (ExceptT.tryCatch action handler).run store).2.arena.arrayNames = _
    simp only [ExceptT.tryCatch, ExceptT.run_mk, StateT.run_bind]
    cases hRun : action.run.run store with
    | mk result middle =>
        rw [hRun] at hFirst
        rw [show StateT.run action store = (result, middle) from hRun]
        cases result with
        | ok value => exact hFirst
        | error fault => exact ((hHandler fault).arrayNames middle).trans hFirst

instance forEach {ι : Type} (step : ι → StoreAction Unit) [hStep : ∀ item, Faithful (step item)]
    (items : List ι) : Faithful (forIn items PUnit.unit fun item _ => do
      step item
      Pure.pure (ForInStep.yield PUnit.unit) : StoreAction PUnit) := by
  induction items with
  | nil => exact .pure _
  | cons item rest inductionHypothesis =>
      rw [List.forIn_cons, bind_assoc]
      refine .andThen fun _ => ?_
      rw [pure_bind]
      exact inductionHypothesis

end Faithful

/-! ### Values -/

instance modifySpace_faithful (change : Space → Space) : Faithful (modifySpace change) :=
  .modify fun _ => rfl

instance modifySymbols_faithful (change : SymbolTable → SymbolTable) :
    Faithful (modifySymbols change) :=
  .modify fun _ => rfl

instance modifyValue_faithful (handle : Handle) (change : Value → Value) :
    Faithful (modifyArena fun arena => arena.modify handle change) :=
  .modify fun store => store.arena.arrayNames_modify handle change

private theorem modifyArray_faithful (ref : ArrayRef) {change : ArrayInfo → ArrayInfo}
    (hChange : ∀ info, (change info).name = info.name) :
    Faithful (modifyArena fun arena => arena.modifyArray ref change) :=
  .modify fun store => store.arena.arrayNames_modifyArray ref hChange

instance value_faithful (handle : Handle) : Faithful (value handle) := by
  unfold value
  refine .andThen fun store => ?_
  split <;> infer_instance

instance create_faithful (payload : Payload) : Faithful (create payload) :=
  ⟨fun store => store.arena.arrayNames_create payload⟩

instance free_faithful (handle : Handle) : Faithful (free handle) where
  arrayNames := by
    intro store
    have hRun : ∀ next : Store → StoreAction Value,
        (MonadState.get >>= next).run.run store = (next store).run.run store := fun _ => rfl
    rw [free, hRun]
    cases hFree : store.arena.free? handle with
    | none => rfl
    | some freed =>
        obtain ⟨found, -, rfl⟩ := Option.map_eq_some_iff.mp hFree
        rfl

instance element_faithful (ref : ArrayRef) (offset : Int) : Faithful (element ref offset) where
  arrayNames := by
    intro store
    have hRun : ∀ next : Store → StoreAction Handle,
        (MonadState.get >>= next).run.run store = (next store).run.run store := fun _ => rfl
    rw [element, hRun]
    simp only
    cases hElement : store.arena.element? ref offset with
    | none => rfl
    | some found => exact Arena.arrayNames_element? hElement

instance dynamicElement_faithful (ref : ArrayRef) (index : String) :
    Faithful (dynamicElement ref index) :=
  ⟨fun store => store.arena.arrayNames_create _⟩

instance change_faithful (handle : Handle) (update : Value → Value) :
    Faithful (change handle update) := by
  unfold change
  infer_instance

instance forgetSymbolic_faithful (handle : Handle) : Faithful (forgetSymbolic handle) := by
  unfold forgetSymbolic
  refine .andThen fun found => ?_
  split <;> infer_instance

/-! ### Symbols and registers -/

instance setFresh_faithful (name : String) (fresh : Bool) : Faithful (setFresh name fresh) :=
  modifySymbols_faithful _

instance undeclare_faithful (name : String) : Faithful (undeclare name) :=
  modifySymbols_faithful _

instance declare_faithful (name : String) (kind : SymbolKind) (binding : Binding) :
    Faithful (declare name kind binding) := by
  unfold declare
  refine .andThen fun store => ?_
  split <;> infer_instance

private theorem arrayNames_unlink (store : Store) (register : Int) :
    (store.unlink register).arena.arrayNames = store.arena.arrayNames := by
  unfold Store.unlink
  split
  · rfl
  · exact Arena.arrayNames_modify _ _ _

instance checkAllocatable_faithful (register : Int) : Faithful (checkAllocatable register) := by
  unfold checkAllocatable
  infer_instance

instance vacate_faithful (register : Int) (entry : Register) : Faithful
    (modify fun store => (store.unlink register).setRegister register entry : StoreAction Unit) :=
  .modify fun store => arrayNames_unlink store register

instance release_faithful (register : Int) : Faithful (release register) := by
  unfold release
  infer_instance

instance reserve_faithful (register : Int) : Faithful (reserve register) := by
  unfold reserve
  infer_instance

instance setState_faithful (register : Int) (state : RegisterState) :
    Faithful (setState register state) := by
  have hMark : Faithful (modify fun store => store.markRegister register state :
      StoreAction Unit) := .modify fun _ => rfl
  unfold setState
  infer_instance

instance bind_faithful (register : Int) (handle : Handle) : Faithful (bind register handle) := by
  have hUnlink : Faithful (modify fun store => store.unlink register : StoreAction Unit) :=
    .modify fun store => arrayNames_unlink store register
  have hPart : ∀ previous, Faithful
      (modify fun store => (store.unlink previous).markRegister previous .free : StoreAction Unit) :=
    fun previous => .modify fun store => arrayNames_unlink store previous
  have hSet : Faithful (modify fun store =>
      store.setRegister register ⟨.busy, some handle⟩ : StoreAction Unit) :=
    .modify fun _ => rfl
  unfold bind
  refine .andThen fun _ => .andThen fun _ => .andThen fun _ => .andThen fun found => ?_
  simp only
  split <;> infer_instance

/-! ### Memory cells -/

instance recordOwner_faithful (address : Address) (handle : Handle) :
    Faithful (recordOwner address handle) := by
  unfold recordOwner
  refine .andThen fun store => ?_
  split <;> infer_instance

instance place_faithful (address : Address) (handle : Handle) :
    Faithful (place address handle) := by
  unfold place
  refine .andThen fun found => .andThen fun store => ?_
  split <;> infer_instance

instance unplace_faithful (address : Address) : Faithful (unplace address) := by
  unfold unplace
  refine .andThen fun store => ?_
  split <;> infer_instance

instance placeRun_faithful (start : Address) (done : Nat) (handles : List Handle) :
    Faithful (placeRun start done handles) := by
  induction handles generalizing done with
  | nil => unfold placeRun; infer_instance
  | cons handle rest inductionHypothesis =>
      have hRest := inductionHypothesis (done + 1)
      unfold placeRun
      infer_instance

instance allocateRun_faithful (segment : Segment) (handles : List Handle) :
    Faithful (allocateRun segment handles) := by
  have hPlace : ∀ store : Store, Faithful (match Space.findRun store.space.chunks
      store.space.layout.loop handles.length.toUInt64 (store.space.chunks.size + 1)
      store.space.layout.loop.first with
    | none => throw (.noRun store.space.layout.loop handles.length)
    | some start => do
        placeRun start 0 handles
        return start : StoreAction Address) := by
    intro store
    split <;> infer_instance
  unfold allocateRun
  infer_instance

instance allocateNext_faithful (segment : Segment) (range : AddressRange) (handle : Handle) :
    Faithful (allocateNext segment range handle) := by
  unfold allocateNext
  refine .andThen fun store => ?_
  split <;> infer_instance

instance allocate_faithful (segment : Segment) (handle : Handle) :
    Faithful (allocate segment handle) := by
  unfold allocate
  refine .andThen fun store => ?_
  cases segment <;> infer_instance

instance allocateArray_faithful (ref : ArrayRef) (head : Handle) :
    Faithful (allocateArray ref head) := by
  have hNative : ∀ address : Address, Faithful (modifyArena fun arena => arena.modifyArray ref
      fun info => { info with base := some address.toNat, kind := .native, chunk := some address }) :=
    fun _ => modifyArray_faithful ref fun _ => rfl
  have hBig : ∀ base : Nat, Faithful (modifyArena fun arena => arena.modifyArray ref
      fun info => { info with base := some base, kind := .big }) :=
    fun _ => modifyArray_faithful ref fun _ => rfl
  unfold allocateArray
  infer_instance

instance uncount_faithful (address : Address) : Faithful (uncount address) := by
  have hForget : ∀ ref, Faithful (modifyArena fun arena => arena.modifyArray ref
      fun info => { info with chunk := none }) :=
    fun ref => modifyArray_faithful ref fun _ => rfl
  unfold uncount
  refine .andThen fun store => ?_
  dsimp only
  split
  · infer_instance
  · split
    · split <;> infer_instance
    · infer_instance

instance freeAt_faithful (address : Address) : Faithful (freeAt address) := by
  unfold freeAt
  refine .andThen fun store => ?_
  split <;> infer_instance

private theorem arrayNames_freeCells (done : Nat) (addresses : List Address) (store : Store) :
    ((freeCells done addresses).run store).2.arena.arrayNames = store.arena.arrayNames := by
  induction addresses generalizing done store with
  | nil => rfl
  | cons address rest inductionHypothesis =>
      have hFirst := (freeAt_faithful address).arrayNames store
      unfold freeCells
      simp only [StateT.run_bind]
      cases hRun : (freeAt address).run.run store with
      | mk result middle =>
          rw [hRun] at hFirst
          cases result with
          | ok value => exact (inductionHypothesis (done + 1) middle).trans hFirst
          | error fault => exact hFirst

theorem arrayNames_freeLoopCells (store : Store) :
    (freeLoopCells.run store).2.arena.arrayNames = store.arena.arrayNames :=
  arrayNames_freeCells 0 _ store

end StoreAction
end RegisterCompiler
