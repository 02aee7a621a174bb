/-
What the operations on registers do.

Emptying a register, caching a value in an empty one, changing the state of one and
marking a cell as up to date leave the setting of a store alone and keep it linked.
-/

import RegisterCompiler.Proofs.Store.Soundness

set_option autoImplicit false

namespace RegisterCompiler

namespace StoreAction

def Gives {α : Type} (action : StoreAction α) (before : Store) (result : α) (after : Store) :
    Prop :=
  action.run.run before = (.ok result, after)

/-- An operation that fails and changes nothing. -/
def Refuses {α : Type} (action : StoreAction α) (before : Store) (fault : StoreFault) : Prop :=
  action.run.run before = (.error fault, before)

theorem Gives.bind {α β : Type} {action : StoreAction α} {next : α → StoreAction β}
    {before middle after : Store} {first : α} {second : β}
    (hFirst : action.Gives before first middle) (hSecond : (next first).Gives middle second after) :
    (action >>= next).Gives before second after := by
  unfold Gives at hFirst hSecond ⊢
  simp only [ExceptT.run_bind, StateT.run_bind, hFirst]
  exact hSecond

theorem Gives.pure {α : Type} (value : α) (store : Store) :
    (pure value : StoreAction α).Gives store value store :=
  rfl

theorem Gives.get (store : Store) : (get : StoreAction Store).Gives store store store :=
  rfl

theorem Gives.modify (change : Store → Store) (store : Store) :
    (modify change : StoreAction Unit).Gives store () (change store) :=
  rfl

theorem Refuses.throw {α : Type} (fault : StoreFault) (store : Store) :
    (throw fault : StoreAction α).Refuses store fault :=
  rfl

theorem Gives.refuses {α β : Type} {action : StoreAction α} {next : α → StoreAction β}
    {store : Store} {first : α} {fault : StoreFault} (hFirst : action.Gives store first store)
    (hSecond : (next first).Refuses store fault) : (action >>= next).Refuses store fault := by
  unfold Gives at hFirst
  unfold Refuses at hSecond ⊢
  simp only [ExceptT.run_bind, StateT.run_bind, hFirst]
  exact hSecond

theorem Gives.tryCatch {α : Type} {action : StoreAction α} {before after : Store} {result : α}
    (hAction : action.Gives before result after) (handler : StoreFault → StoreAction α) :
    (tryCatch action handler).Gives before result after := by
  unfold Gives at hAction ⊢
  change (ExceptT.tryCatch action handler).run.run before = _
  simp only [ExceptT.tryCatch, ExceptT.run_mk, StateT.run_bind]
  rw [show StateT.run action before = _ from hAction]
  rfl

theorem Gives.exists_of_bind {α β : Type} {action : StoreAction α} {next : α → StoreAction β}
    {before after : Store} {result : β} (hGives : (action >>= next).Gives before result after) :
    ∃ value middle, action.Gives before value middle ∧ (next value).Gives middle result after := by
  unfold Gives at hGives ⊢
  simp only [ExceptT.run_bind, StateT.run_bind] at hGives
  cases hRun : action.run.run before with
  | mk found middle =>
      rw [hRun] at hGives
      cases found with
      | ok value => exact ⟨value, middle, rfl, hGives⟩
      | error fault => cases hGives

theorem Gives.of_get_bind {β : Type} {next : Store → StoreAction β} {before after : Store}
    {result : β} (hGives : (MonadState.get >>= next).Gives before result after) :
    (next before).Gives before result after :=
  hGives

theorem run_get_bind {β : Type} (next : Store → StoreAction β) (store : Store) :
    (MonadState.get >>= next).run.run store = (next store).run.run store :=
  rfl

theorem Gives.unique {α : Type} {action : StoreAction α} {before after other : Store}
    {first second : α} (hFirst : action.Gives before first after)
    (hSecond : action.Gives before second other) : first = second ∧ after = other := by
  unfold Gives at hFirst hSecond
  rw [hFirst] at hSecond
  cases hSecond
  exact ⟨rfl, rfl⟩

/-- A way out that only fails is not taken by what succeeds. -/
theorem Gives.of_tryCatch {α : Type} {action : StoreAction α}
    {handler : StoreFault → StoreAction α} {before after : Store} {result : α}
    (hGives : (MonadExcept.tryCatch action handler).Gives before result after)
    (hFails : ∀ fault middle, ¬(handler fault).Gives middle result after) :
    action.Gives before result after := by
  unfold Gives at hGives hFails ⊢
  change (ExceptT.tryCatch action handler).run.run before = _ at hGives
  simp only [ExceptT.tryCatch, ExceptT.run_mk, StateT.run_bind] at hGives
  cases hRun : action.run.run before with
  | mk found middle =>
      rw [show StateT.run action before = _ from hRun] at hGives
      cases found with
      | ok value => exact hGives
      | error fault => exact absurd hGives (hFails fault middle)

def Leaves {α γ : Type} (part : Store → γ) (action : StoreAction α) : Prop :=
  ∀ before value after, action.Gives before value after → part after = part before

namespace Leaves

variable {α β γ : Type} {part : Store → γ}

theorem bind {action : StoreAction α} {next : α → StoreAction β} (hAction : action.Leaves part)
    (hNext : ∀ value, (next value).Leaves part) : (action >>= next).Leaves part := by
  intro before result after hGives
  obtain ⟨value, middle, hFirst, hSecond⟩ := hGives.exists_of_bind
  exact (hNext value _ _ _ hSecond).trans (hAction _ _ _ hFirst)

theorem pure (value : α) : Leaves part (pure value : StoreAction α) := by
  intro before found after hGives
  rw [((Gives.pure value before).unique hGives).2]

theorem get : Leaves part (get : StoreAction Store) := by
  intro before found after hGives
  rw [((Gives.get before).unique hGives).2]

theorem modify {change : Store → Store} (hChange : ∀ store, part (change store) = part store) :
    Leaves part (modify change : StoreAction Unit) := by
  intro before found after hGives
  rw [← ((Gives.modify change before).unique hGives).2]
  exact hChange before

theorem throw (fault : StoreFault) : Leaves part (throw fault : StoreAction α) := by
  intro before found after hGives
  cases hGives

end Leaves

theorem value_gives {store : Store} {handle : Handle} {found : Value}
    (hLive : store.arena.get? handle = some found) :
    (value handle).Gives store found store := by
  refine .bind (.get store) ?_
  rw [hLive]
  exact .pure found store

theorem checkAllocatable_gives {store : Store} {register : Int}
    (hRegister : store.Allocatable register) :
    (checkAllocatable register).Gives store () store := by
  refine .bind (.get store) ?_
  have hPasses : (decide (register ≤ 0) || decide (store.registerCount ≤ register)) = false := by
    obtain ⟨hLow, hHigh⟩ := hRegister
    rw [Bool.or_eq_false_iff, decide_eq_false_iff_not, decide_eq_false_iff_not]
    exact ⟨by omega, by unfold Store.registerCount; omega⟩
  rw [hPasses]
  exact .pure () store

end StoreAction

namespace Store

/-- Two stores with the same cells and names, in which every handle refers to the same
value up to its register. -/
structure SameContent (before after : Store) : Prop where
  values : ∀ handle, (after.arena.get? handle).map (fun value => (value.payload, value.chunk)) =
    (before.arena.get? handle).map fun value => (value.payload, value.chunk)
  arrays : after.arena.arrays = before.arena.arrays
  space : after.space = before.space
  byValue : after.symbols.byValue = before.symbols.byValue
  declared : ∀ name, (after.symbols.lookup? name).map (fun entry => (entry.kind, entry.binding)) =
    (before.symbols.lookup? name).map fun entry => (entry.kind, entry.binding)

namespace SameContent

theorem of_symbols_eq {before after : Store} (hSymbols : after.symbols = before.symbols)
    (hValues : ∀ handle, (after.arena.get? handle).map (fun value => (value.payload, value.chunk)) =
      (before.arena.get? handle).map fun value => (value.payload, value.chunk))
    (hArrays : after.arena.arrays = before.arena.arrays) (hSpace : after.space = before.space) :
    SameContent before after where
  values := hValues
  arrays := hArrays
  space := hSpace
  byValue := by rw [hSymbols]
  declared := fun name => by rw [hSymbols]

variable {before after : Store} (hSame : SameContent before after)

include hSame

theorem setting_eq : after.setting = before.setting := by
  have hBind : ∀ {β : Type} (read : Payload × Option Address → Option β) (handle : Handle),
      (after.arena.get? handle).bind (fun value => read (value.payload, value.chunk)) =
        (before.arena.get? handle).bind fun value => read (value.payload, value.chunk) := by
    intro β read handle
    have hValue := congrArg (fun found => found.bind read) (hSame.values handle)
    simpa only [Option.bind_map, Function.comp_def] using hValue
  have hChunk : after.setting.chunk = before.setting.chunk :=
    funext fun handle => hBind (fun content => content.2) handle
  have hKnown : after.setting.known = before.setting.known := by
    funext handle
    have hValue := hBind (fun content => Value.known? ⟨content.1, none, none⟩) handle
    simp only [setting, hSame.byValue]
    split
    · exact hValue
    · rfl
  refine Setting.ext ?_ ?_ (funext hSame.declared) ?_ hChunk hKnown ?_
  · exact congrArg Space.layout hSame.space
  · funext handle
    exact congrArg (List.lookup handle) hSame.byValue
  · funext address
    exact congrArg (fun space : Space => space.chunks.get? address) hSame.space
  · funext ref
    simp only [setting, Arena.array_congr hSame.arrays]

theorem get?_of_get? {handle : Handle} {value : Value}
    (hValue : before.arena.get? handle = some value) :
    ∃ found, after.arena.get? handle = some found ∧ found.payload = value.payload ∧
      found.chunk = value.chunk := by
  have hFound := hSame.values handle
  rw [hValue, Option.map_some] at hFound
  obtain ⟨found, hFound, hContent⟩ := Option.map_eq_some_iff.mp hFound
  exact ⟨found, hFound, congrArg Prod.fst hContent, congrArg Prod.snd hContent⟩

/-- A store stays linked when only registers change and these still fit the values. -/
theorem linked (hLinked : before.Linked) (hArena : after.arena.WellFormed)
    (hSize : after.registers.size = before.registers.size)
    (hEntries : ∀ name entry, after.symbols.lookup? name = some entry → entry.name = name)
    (hPointer : after.register? 0 = some ⟨.free, none⟩)
    (hStates : ∀ register entry, after.register? register = some entry →
      (entry.state = .free ∧ entry.occupant = none) ∨
        (entry.state = .busy ∧ entry.occupant.isSome = true) ∨ entry.state = .inUse)
    (hOccupants : ∀ register handle, after.occupant? register = some handle ↔
      ∃ value, after.arena.get? handle = some value ∧ value.register = some register)
    (hNames : ∀ register handle, after.occupant? register = some handle →
      (before.setting.nameOf handle).isSome = true) :
    after.Linked where
  arena := hArena
  layout := by rw [hSame.space]; exact hLinked.layout
  enough := by rw [hSize]; exact hLinked.enough
  pointer := hPointer
  states := hStates
  occupants := hOccupants
  occupantNames := by rw [hSame.setting_eq]; exact hNames
  entryNames := hEntries
  cells := by
    intro name kind handle hDeclared
    rw [hSame.setting_eq] at hDeclared
    obtain ⟨hName, value, address, hValue, hPayload, hChunk, hLow⟩ :=
      hLinked.cells name kind handle hDeclared
    obtain ⟨found, hFound, hSamePayload, hSameChunk⟩ := hSame.get?_of_get? hValue
    refine ⟨by rw [hSame.setting_eq]; exact hName, found, address, hFound, ?_, ?_, ?_⟩
    · rw [hSamePayload]
      exact hPayload
    · rw [hSameChunk, hChunk]
    · rw [hSame.space]
      exact hLow
  strays := by
    intro handle value hValue hUnnamed hPlaced
    rw [hSame.setting_eq] at hUnnamed
    have hContent := hSame.values handle
    rw [hValue, Option.map_some] at hContent
    obtain ⟨found, hFound, hSamePair⟩ := Option.map_eq_some_iff.mp hContent.symm
    obtain ⟨hPayload, hChunk⟩ := Prod.mk.inj hSamePair
    rw [← hChunk] at hPlaced
    have hUnknown := hLinked.strays handle found hFound hUnnamed hPlaced
    unfold Value.known? Value.isSymbolic Value.plain? at hUnknown ⊢
    rw [← hPayload]
    exact hUnknown
  names := by rw [hSame.setting_eq]; exact hLinked.names
  owners := by rw [hSame.setting_eq]; exact hLinked.owners
  bases := by rw [hSame.setting_eq]; exact hLinked.bases

end SameContent

/-! ### Registers in a given state -/

theorem mem_registersIn {store : Store} {state : RegisterState} {number : Nat} :
    number ∈ store.registersIn state ↔
      number ≠ 0 ∧ ∃ entry, store.register? number = some entry ∧ entry.state = state := by
  simp only [registersIn, List.mem_map, List.mem_filter, Prod.exists, List.mem_zipIdx_iff_getElem?,
    Array.getElem?_toList, Bool.and_eq_true, bne_iff_ne, beq_iff_eq, exists_eq_right,
    register?_eq_some_iff, Int.toNat_natCast, Int.natCast_nonneg, true_and]
  constructor
  · rintro ⟨entry, hEntry, hNonzero, hState⟩
    exact ⟨hNonzero, entry, hEntry, hState⟩
  · rintro ⟨hNonzero, entry, hEntry, hState⟩
    exact ⟨entry, hEntry, hNonzero, hState⟩

/-- Registers hold the values that name them, and no others. -/
def Mutual (store : Store) : Prop :=
  ∀ register handle, store.occupant? register = some handle ↔
    ∃ value, store.arena.get? handle = some value ∧ value.register = some register

/-! ### Emptying a register -/

def vacate (store : Store) (register : Int) (state : RegisterState) : Store :=
  (store.unlink register).setRegister register ⟨state, none⟩

theorem register?_setRegister {store : Store} {register : Int}
    (hRegister : store.Allocatable register) (entry : Register) (other : Int) :
    (store.setRegister register entry).register? other =
      if other = register then some entry else store.register? other := by
  obtain ⟨hLow, hHigh⟩ := hRegister
  simp only [register?, setRegister, Array.set!_eq_setIfInBounds, Array.getElem?_setIfInBounds]
  by_cases hSame : other = register
  · subst hSame
    rw [if_neg (by omega), if_pos rfl, if_pos (by omega), if_pos rfl]
  · rw [if_neg hSame]
    by_cases hNegative : other < 0
    · rw [if_pos hNegative, if_pos hNegative]
    · rw [if_neg hNegative, if_neg hNegative, if_neg (by omega)]

private theorem unlink_register?_of_ne (store : Store) {register other : Int} (hLow : 0 < register)
    (hOther : other ≠ register) :
    (store.unlink register).register? other = store.register? other := by
  unfold unlink
  split
  · rfl
  · simp only [register?, Array.getElem?_modify]
    by_cases hNegative : other < 0
    · rw [if_pos hNegative, if_pos hNegative]
    · rw [if_neg hNegative, if_neg hNegative, if_neg (by omega)]

private theorem size_unlink (store : Store) (register : Int) :
    (store.unlink register).registers.size = store.registers.size := by
  unfold unlink
  split <;> simp

theorem get?_unlink (store : Store) (register : Int) (handle : Handle) :
    (store.unlink register).arena.get? handle =
      (store.arena.get? handle).map fun value =>
        if store.occupant? register = some handle ∧ value.register = some register then
          { value with register := none }
        else value := by
  unfold unlink
  cases hOccupant : store.occupant? register with
  | none => simp
  | some occupant =>
      simp only [Arena.get?_modify, Option.some.injEq]
      by_cases hSame : handle = occupant
      · subst hSame
        simp only [if_true, true_and]
      · simp [hSame, Ne.symm hSame]

theorem size_vacate (store : Store) (register : Int) (state : RegisterState) :
    (store.vacate register state).registers.size = store.registers.size := by
  unfold vacate setRegister
  rw [Array.set!_eq_setIfInBounds, Array.size_setIfInBounds, size_unlink]

theorem allocatable_vacate {store : Store} {register : Int} (other : Int) (state : RegisterState)
    (hRegister : store.Allocatable register) :
    (store.vacate other state).Allocatable register := by
  rw [Allocatable, size_vacate]
  exact hRegister

section Vacate

variable {store : Store} {register : Int} (hRegister : store.Allocatable register)
  (state : RegisterState)

include hRegister

theorem register?_vacate (other : Int) :
    (store.vacate register state).register? other =
      if other = register then some ⟨state, none⟩ else store.register? other := by
  have hStill : (store.unlink register).Allocatable register := by
    rw [Allocatable, size_unlink]
    exact hRegister
  rw [vacate, register?_setRegister hStill]
  by_cases hSame : other = register
  · rw [if_pos hSame, if_pos hSame]
  · rw [if_neg hSame, if_neg hSame, unlink_register?_of_ne store hRegister.1 hSame]

theorem occupant?_vacate (other : Int) :
    (store.vacate register state).occupant? other =
      if other = register then none else store.occupant? other := by
  simp only [occupant?, register?_vacate hRegister]
  split <;> rfl

omit hRegister in
theorem get?_vacate (hMutual : store.Mutual) (handle : Handle) :
    (store.vacate register state).arena.get? handle =
      (store.arena.get? handle).map fun value =>
        if value.register = some register then { value with register := none } else value := by
  have hUnlinked := get?_unlink store register handle
  have hArena : (store.vacate register state).arena = (store.unlink register).arena := rfl
  rw [hArena, hUnlinked]
  cases hValue : store.arena.get? handle with
  | none => rfl
  | some value =>
      simp only [Option.map_some, Option.some.injEq]
      by_cases hBound : value.register = some register
      · have hOccupant := (hMutual register handle).mpr ⟨value, hValue, hBound⟩
        rw [if_pos ⟨hOccupant, hBound⟩, if_pos hBound]
      · rw [if_neg (fun hBoth => hBound hBoth.2), if_neg hBound]

theorem mutual_vacate (hMutual : store.Mutual) : (store.vacate register state).Mutual := by
  intro other handle
  rw [occupant?_vacate hRegister, get?_vacate state hMutual]
  by_cases hSame : other = register
  · rw [if_pos hSame]
    constructor
    · intro hFound
      contradiction
    · rintro ⟨value, hValue, hBound⟩
      obtain ⟨found, -, rfl⟩ := Option.map_eq_some_iff.mp hValue
      split at hBound
      · contradiction
      · rename_i hFree
        exact absurd (hSame ▸ hBound) hFree
  · rw [if_neg hSame, hMutual other handle]
    constructor
    · rintro ⟨value, hValue, hBound⟩
      refine ⟨value, ?_, hBound⟩
      rw [hValue, Option.map_some, if_neg]
      rw [hBound]
      exact fun hEqual => hSame (Option.some.inj hEqual)
    · rintro ⟨value, hValue, hBound⟩
      obtain ⟨found, hFound, rfl⟩ := Option.map_eq_some_iff.mp hValue
      split at hBound
      · contradiction
      · exact ⟨found, hFound, hBound⟩

omit hRegister in
theorem symbols_vacate : (store.vacate register state).symbols = store.symbols := by
  unfold vacate unlink setRegister
  split <;> rfl

omit hRegister in
theorem sameContent_vacate (register : Int) (state : RegisterState) (hLinked : store.Linked) :
    SameContent store (store.vacate register state) := by
  refine .of_symbols_eq (symbols_vacate state) ?_ ?_ ?_
  · intro handle
    rw [get?_vacate state hLinked.occupants, Option.map_map]
    congr 1
    funext value
    simp only [Function.comp_apply]
    split <;> rfl
  · unfold vacate unlink setRegister
    split <;> simp
  · unfold vacate unlink setRegister
    split <;> rfl

theorem linked_vacate (hLinked : store.Linked) (hState : state = .free ∨ state = .inUse) :
    (store.vacate register state).Linked := by
  refine (sameContent_vacate register state hLinked).linked hLinked ?_ ?_ ?_ ?_ ?_ ?_ ?_
  · unfold vacate unlink setRegister
    split
    · exact hLinked.arena
    · exact Arena.wellFormed_modify hLinked.arena _ _
  · exact size_vacate store register state
  · rw [symbols_vacate]
    exact hLinked.entryNames
  · rw [register?_vacate hRegister, if_neg (by have := hRegister.1; omega)]
    exact hLinked.pointer
  · intro other entry hEntry
    rw [register?_vacate hRegister] at hEntry
    by_cases hSame : other = register
    · rw [if_pos hSame] at hEntry
      obtain rfl := Option.some.inj hEntry
      rcases hState with rfl | rfl
      · exact .inl ⟨rfl, rfl⟩
      · exact .inr (.inr rfl)
    · rw [if_neg hSame] at hEntry
      exact hLinked.states other entry hEntry
  · exact mutual_vacate hRegister state hLinked.occupants
  · intro other handle hOccupant
    rw [occupant?_vacate hRegister] at hOccupant
    split at hOccupant
    · contradiction
    · exact hLinked.occupantNames other handle hOccupant

/-- Emptying a register keeps a store sound if the cell of its value is up to date. -/
theorem sound_vacate (hSound : store.Sound) (hState : state = .free ∨ state = .inUse)
    (hFresh : ∀ handle name, store.occupant? register = some handle →
      store.setting.nameOf handle = some name → store.symbols.isFresh name = true) :
    (store.vacate register state).Sound := by
  refine ⟨linked_vacate hRegister state hSound.toLinked hState, ?_⟩
  intro name entry hEntry hStale
  rw [symbols_vacate] at hEntry
  obtain ⟨handle, place, hBinding, hOccupant⟩ := hSound.stale name entry hEntry hStale
  refine ⟨handle, place, hBinding, ?_⟩
  rw [occupant?_vacate hRegister, if_neg, hOccupant]
  rintro rfl
  have hDeclared : store.setting.declared name = some (entry.kind, .value handle) := by
    simp only [setting, hEntry, Option.map_some, hBinding]
  have hUpToDate := hFresh handle name hOccupant (hSound.cells name _ handle hDeclared).1
  simp only [SymbolTable.isFresh, hEntry, Option.map_some, Option.getD_some] at hUpToDate
  rw [hUpToDate] at hStale
  contradiction

end Vacate

end Store

namespace StoreAction

theorem release_gives {store : Store} {register : Int} (hRegister : store.Allocatable register) :
    (release register).Gives store () (store.vacate register .free) :=
  .bind (checkAllocatable_gives hRegister) (.modify _ store)

theorem reserve_gives {store : Store} {register : Int} (hRegister : store.Allocatable register) :
    (reserve register).Gives store () (store.vacate register .inUse) :=
  .bind (checkAllocatable_gives hRegister) (.modify _ store)

end StoreAction

/-! ### Caching a value -/

namespace Store

def occupy (store : Store) (register : Int) (handle : Handle) : Store :=
  { store.setRegister register ⟨.busy, some handle⟩ with
    arena := store.arena.modify handle fun value => value.noteRegister register }

section Occupy

variable {store : Store} {register : Int} (hRegister : store.Allocatable register)
  {handle : Handle}

include hRegister

theorem register?_occupy (other : Int) :
    (store.occupy register handle).register? other =
      if other = register then some ⟨.busy, some handle⟩ else store.register? other :=
  register?_setRegister hRegister _ other

theorem occupant?_occupy (other : Int) :
    (store.occupy register handle).occupant? other =
      if other = register then some handle else store.occupant? other := by
  simp only [occupant?, register?_occupy hRegister]
  split <;> rfl

private theorem get?_occupy (other : Handle) :
    (store.occupy register handle).arena.get? other =
      (store.arena.get? other).map fun value =>
        if other = handle then { value with register := some register } else value := by
  have hNumber : register ≠ -1 := by
    have hLow := hRegister.1
    omega
  simp only [occupy, Arena.get?_modify, Value.noteRegister, hNumber, if_false]
  by_cases hSame : other = handle
  · subst hSame
    simp only [if_true]
  · simp only [hSame, if_false, Option.map_id']

theorem sameContent_occupy (handle : Handle) :
    SameContent store (store.occupy register handle) := by
  refine .of_symbols_eq rfl ?_ (Arena.arrays_modify _ _ _) rfl
  intro other
  rw [get?_occupy hRegister, Option.map_map]
  congr 1
  funext value
  simp only [Function.comp_apply]
  split <;> rfl

theorem mutual_occupy (hMutual : store.Mutual) (hEmpty : store.occupant? register = none)
    (hUncached : ∀ place, store.occupant? place ≠ some handle)
    (hLive : (store.arena.get? handle).isSome = true) :
    (store.occupy register handle).Mutual := by
  intro other found
  rw [occupant?_occupy hRegister, get?_occupy hRegister]
  by_cases hFound : found = handle
  · subst hFound
    obtain ⟨value, hValue⟩ := Option.isSome_iff_exists.mp hLive
    simp only [if_true, hValue, Option.map_some, Option.some.injEq, exists_eq_left']
    by_cases hSame : other = register
    · simp [hSame]
    · rw [if_neg hSame]
      constructor
      · intro hOccupant
        exact absurd hOccupant (hUncached other)
      · intro hEqual
        exact absurd hEqual.symm hSame
  · simp only [hFound, if_false, Option.map_id']
    by_cases hSame : other = register
    · rw [if_pos hSame, hSame]
      constructor
      · intro hEqual
        exact absurd (Option.some.inj hEqual).symm hFound
      · intro hValue
        have hOccupant := (hMutual register found).mpr hValue
        rw [hEmpty] at hOccupant
        contradiction
    · rw [if_neg hSame]
      exact hMutual other found

/-- Caching a value that is in no register keeps a store linked. -/
theorem linked_occupy (hLinked : store.Linked) (hEmpty : store.occupant? register = none)
    (hUncached : ∀ place, store.occupant? place ≠ some handle)
    (hName : (store.setting.nameOf handle).isSome = true)
    (hLive : (store.arena.get? handle).isSome = true) :
    (store.occupy register handle).Linked := by
  refine (sameContent_occupy hRegister handle).linked hLinked
    (Arena.wellFormed_modify hLinked.arena _ _) ?_ hLinked.entryNames ?_ ?_ ?_ ?_
  · simp only [occupy, setRegister, Array.set!_eq_setIfInBounds, Array.size_setIfInBounds]
  · rw [register?_occupy hRegister, if_neg (by have := hRegister.1; omega)]
    exact hLinked.pointer
  · intro other entry hEntry
    rw [register?_occupy hRegister] at hEntry
    by_cases hSame : other = register
    · rw [if_pos hSame] at hEntry
      obtain rfl := Option.some.inj hEntry
      exact .inr (.inl ⟨rfl, rfl⟩)
    · rw [if_neg hSame] at hEntry
      exact hLinked.states other entry hEntry
  · exact mutual_occupy hRegister hLinked.occupants hEmpty hUncached hLive
  · intro other found hOccupant
    rw [occupant?_occupy hRegister] at hOccupant
    split at hOccupant
    · rw [← Option.some.inj hOccupant]
      exact hName
    · exact hLinked.occupantNames other found hOccupant

/-- Caching a value makes a store sound in which all other names are in order. -/
theorem sound_occupy (hLinked : store.Linked) (hEmpty : store.occupant? register = none)
    (hUncached : ∀ place, store.occupant? place ≠ some handle)
    (hName : (store.setting.nameOf handle).isSome = true)
    (hLive : (store.arena.get? handle).isSome = true)
    (hOthers : ∀ name entry, store.symbols.lookup? name = some entry → entry.fresh = false →
      entry.binding = .value handle ∨
        ∃ other place, entry.binding = .value other ∧ store.occupant? place = some other) :
    (store.occupy register handle).Sound := by
  refine ⟨linked_occupy hRegister hLinked hEmpty hUncached hName hLive, ?_⟩
  intro name entry hEntry hStale
  rcases hOthers name entry hEntry hStale with hBinding | ⟨other, place, hBinding, hOccupant⟩
  · exact ⟨handle, register, hBinding, by rw [occupant?_occupy hRegister, if_pos rfl]⟩
  · refine ⟨other, place, hBinding, ?_⟩
    rw [occupant?_occupy hRegister, if_neg, hOccupant]
    rintro rfl
    rw [hEmpty] at hOccupant
    contradiction

end Occupy

end Store

namespace StoreAction

theorem bind_gives {store : Store} {register : Int} {handle : Handle} {found : Value}
    (hRegister : store.Allocatable register) (hEmpty : store.occupant? register = none)
    (hLive : store.arena.get? handle = some found) (hUncached : found.register = none) :
    (bind register handle).Gives store () (store.occupy register handle) := by
  have hSame : store.unlink register = store := by
    unfold Store.unlink
    rw [hEmpty]
  refine .bind (checkAllocatable_gives hRegister) (.bind (value_gives hLive)
    (.bind (.modify _ store) ?_))
  rw [hSame]
  refine .bind (value_gives hLive) ?_
  rw [hUncached]
  exact .bind (.modify _ store) (.modify _ _)

end StoreAction

/-! ### Changing the state of a register -/

namespace Store

section Mark

variable {store : Store} {register : Int} {handle : Handle}
  (hOccupant : store.occupant? register = some handle) (state : RegisterState)

include hOccupant

theorem register?_mark (other : Int) :
    (store.markRegister register state).register? other =
      if other = register then some ⟨state, some handle⟩ else store.register? other := by
  obtain ⟨found, hFound⟩ := occupant?_eq_some_iff.mp hOccupant
  obtain ⟨hLow, hEntry⟩ := register?_eq_some_iff.mp hFound
  simp only [register?, markRegister, Array.getElem?_modify]
  by_cases hSame : other = register
  · subst hSame
    rw [if_neg (by omega), if_pos rfl, if_pos rfl, hEntry]
    rfl
  · rw [if_neg hSame]
    by_cases hNegative : other < 0
    · rw [if_pos hNegative, if_pos hNegative]
    · rw [if_neg hNegative, if_neg hNegative, if_neg (by omega)]

theorem occupant?_mark (other : Int) :
    (store.markRegister register state).occupant? other = store.occupant? other := by
  simp only [occupant?, register?_mark hOccupant]
  by_cases hSame : other = register
  · rw [if_pos hSame, hSame]
    exact hOccupant.symm
  · rw [if_neg hSame]

theorem sound_mark (hSound : store.Sound) (hState : state = .busy ∨ state = .inUse) :
    (store.markRegister register state).Sound := by
  have hSame : SameContent store (store.markRegister register state) :=
    .of_symbols_eq rfl (fun _ => rfl) rfl rfl
  have hAllocatable := hSound.allocatable_of_occupant? hOccupant
  refine ⟨hSame.linked hSound.toLinked hSound.arena ?_ hSound.entryNames ?_ ?_ ?_ ?_, ?_⟩
  · simp only [markRegister, Array.size_modify]
  · rw [register?_mark hOccupant, if_neg (by have := hAllocatable.1; omega)]
    exact hSound.pointer
  · intro other entry hEntry
    rw [register?_mark hOccupant] at hEntry
    by_cases hOther : other = register
    · rw [if_pos hOther] at hEntry
      obtain rfl := Option.some.inj hEntry
      rcases hState with rfl | rfl
      · exact .inr (.inl ⟨rfl, rfl⟩)
      · exact .inr (.inr rfl)
    · rw [if_neg hOther] at hEntry
      exact hSound.states other entry hEntry
  · intro other found
    rw [occupant?_mark hOccupant]
    exact hSound.occupants other found
  · intro other found hFound
    rw [occupant?_mark hOccupant] at hFound
    exact hSound.occupantNames other found hFound
  · intro name entry hEntry hStale
    obtain ⟨found, place, hBinding, hPlace⟩ := hSound.stale name entry hEntry hStale
    exact ⟨found, place, hBinding, by rw [occupant?_mark hOccupant, hPlace]⟩

end Mark

end Store

namespace StoreAction

theorem setState_gives {store : Store} (hLinked : store.Linked) {register : Int} {handle : Handle}
    (hOccupant : store.occupant? register = some handle) {state : RegisterState}
    (hState : state = .busy ∨ state = .inUse) :
    (setState register state).Gives store () (store.markRegister register state) := by
  have hTaken : store.registerState register ≠ .free := by
    obtain ⟨found, hFound⟩ := Store.occupant?_eq_some_iff.mp hOccupant
    simp only [Store.registerState, hFound, Option.map_some, Option.getD_some]
    rintro rfl
    rcases hLinked.states register _ hFound with ⟨-, hNone⟩ | ⟨hBusy, -⟩ | hUsed
    · contradiction
    · contradiction
    · contradiction
  have hNotFree : state ≠ .free := by
    rcases hState with rfl | rfl <;> decide
  refine .bind (checkAllocatable_gives (hLinked.allocatable_of_occupant? hOccupant)) ?_
  rw [if_neg hNotFree]
  refine .bind (.get store) ?_
  rw [if_neg hTaken]
  exact .modify _ store

end StoreAction

/-! ### Noting that a cell is up to date or not -/

namespace SymbolTable

theorem lookup?_setFresh (table : SymbolTable) (name : String) (fresh : Bool) (other : String) :
    (table.setFresh name fresh).lookup? other =
      (table.lookup? other).map fun entry =>
        if other = name then { entry with fresh := fresh } else entry := by
  unfold setFresh
  cases hEntry : table.lookup? name with
  | none =>
      by_cases hSame : other = name
      · rw [hSame, hEntry]
        rfl
      · simp only [hSame, if_false, Option.map_id']
  | some entry =>
      simp only [lookup?, OrderedMap.get?_set] at hEntry ⊢
      by_cases hSame : other = name
      · subst hSame
        simp only [if_true, hEntry, Option.map_some]
      · simp only [hSame, if_false, Option.map_id']

theorem isFresh_setFresh (table : SymbolTable) (name : String) (fresh : Bool) (other : String) :
    (table.setFresh name fresh).isFresh other =
      if other = name then (table.lookup? name).isSome && fresh else table.isFresh other := by
  simp only [isFresh, lookup?_setFresh]
  by_cases hSame : other = name
  · subst hSame
    cases table.lookup? other with
    | none => simp
    | some entry => simp
  · simp only [hSame, if_false, Option.map_id']

theorem byValue_setFresh (table : SymbolTable) (name : String) (fresh : Bool) :
    (table.setFresh name fresh).byValue = table.byValue := by
  unfold setFresh
  split <;> rfl

end SymbolTable

namespace Store

def noteFresh (store : Store) (name : String) (fresh : Bool) : Store :=
  { store with symbols := store.symbols.setFresh name fresh }

theorem sameContent_noteFresh (store : Store) (name : String) (fresh : Bool) :
    SameContent store (store.noteFresh name fresh) where
  values := fun _ => rfl
  arrays := rfl
  space := rfl
  byValue := SymbolTable.byValue_setFresh store.symbols name fresh
  declared := by
    intro other
    simp only [noteFresh, SymbolTable.lookup?_setFresh, Option.map_map]
    congr 1
    funext entry
    simp only [Function.comp_apply]
    split <;> rfl

private theorem linked_noteFresh {store : Store} (hLinked : store.Linked) (name : String)
    (fresh : Bool) :
    (store.noteFresh name fresh).Linked := by
  refine (sameContent_noteFresh store name fresh).linked hLinked hLinked.arena rfl ?_
    hLinked.pointer hLinked.states hLinked.occupants hLinked.occupantNames
  intro other entry hEntry
  simp only [noteFresh, SymbolTable.lookup?_setFresh] at hEntry
  obtain ⟨found, hFound, rfl⟩ := Option.map_eq_some_iff.mp hEntry
  have hName := hLinked.entryNames other found hFound
  split <;> exact hName

/-- A cell may be called up to date, and out of date if its value is in a register. -/
theorem sound_noteFresh {store : Store} (hSound : store.Sound) (name : String) (fresh : Bool)
    (hCached : fresh = false → ∀ entry, store.symbols.lookup? name = some entry →
      ∃ handle register, entry.binding = .value handle ∧
        store.occupant? register = some handle) :
    (store.noteFresh name fresh).Sound := by
  refine ⟨linked_noteFresh hSound.toLinked name fresh, ?_⟩
  intro other entry hEntry hStale
  simp only [noteFresh, SymbolTable.lookup?_setFresh] at hEntry
  obtain ⟨found, hFound, rfl⟩ := Option.map_eq_some_iff.mp hEntry
  by_cases hSame : other = name
  · subst hSame
    simp only [if_true] at hStale ⊢
    exact hCached hStale found hFound
  · simp only [hSame, if_false] at hStale ⊢
    exact hSound.stale other found hFound hStale

end Store

theorem StoreAction.setFresh_gives (store : Store) (name : String) (fresh : Bool) :
    (StoreAction.setFresh name fresh).Gives store () (store.noteFresh name fresh) :=
  .modify _ store

end RegisterCompiler
