/-
Registers and values that name each other.

A store is paired when a register holds a value exactly if the value names the register, free
registers hold nothing, and the pointer is free.  Every call on the registers keeps a store
paired or fails and changes nothing.
-/

import RegisterCompiler.Proofs.Store.Histories

set_option autoImplicit false

namespace RegisterCompiler

namespace Store

/-- Registers and values that name each other. -/
structure Paired (store : Store) : Prop where
  arena : store.arena.WellFormed
  pointer : store.register? 0 = some ⟨.free, none⟩
  vacant : ∀ register handle, store.register? register ≠ some ⟨.free, some handle⟩
  occupants : store.Mutual

variable {store : Store}

theorem Linked.paired (hLinked : store.Linked) : store.Paired where
  arena := hLinked.arena
  pointer := hLinked.pointer
  vacant := by
    intro register handle hEntry
    rcases hLinked.states register _ hEntry with ⟨-, hNone⟩ | ⟨hBusy, -⟩ | hUsed
    · contradiction
    · contradiction
    · contradiction
  occupants := hLinked.occupants

namespace Paired

variable (hPaired : store.Paired)

include hPaired

private theorem occupant?_pointer : store.occupant? 0 = none := by
  rw [occupant?, hPaired.pointer]
  rfl

private theorem allocatable_of_occupant? {register : Int} {handle : Handle}
    (hOccupant : store.occupant? register = some handle) : store.Allocatable register := by
  obtain ⟨state, hFound⟩ := occupant?_eq_some_iff.mp hOccupant
  refine allocatable_of_ne_zero hFound ?_
  rintro rfl
  rw [hPaired.occupant?_pointer] at hOccupant
  contradiction

private theorem occupant?_of_free {register : Int} (hFree : store.registerState register = .free) :
    store.occupant? register = none := by
  rw [Option.eq_none_iff_forall_ne_some]
  intro handle hOccupant
  obtain ⟨state, hEntry⟩ := occupant?_eq_some_iff.mp hOccupant
  simp only [registerState, hEntry, Option.map_some, Option.getD_some] at hFree
  rw [hFree] at hEntry
  exact hPaired.vacant register handle hEntry

private theorem occupant?_injective {first second : Int} {handle : Handle}
    (hFirst : store.occupant? first = some handle)
    (hSecond : store.occupant? second = some handle) : first = second := by
  obtain ⟨value, hValue, hRegister⟩ := (hPaired.occupants first handle).mp hFirst
  obtain ⟨other, hOther, hNamed⟩ := (hPaired.occupants second handle).mp hSecond
  rw [hValue] at hOther
  rw [← Option.some.inj hOther, hRegister] at hNamed
  exact Option.some.inj hNamed

private theorem handle_eq_of_register {register : Int} {first second : Handle} {value other : Value}
    (hValue : store.arena.get? first = some value) (hFirst : value.register = some register)
    (hOther : store.arena.get? second = some other) (hSecond : other.register = some register) :
    first = second := by
  have hOccupant := (hPaired.occupants register first).mpr ⟨value, hValue, hFirst⟩
  rw [(hPaired.occupants register second).mpr ⟨other, hOther, hSecond⟩] at hOccupant
  exact (Option.some.inj hOccupant).symm

theorem asymmetry?_eq_none : store.asymmetry? = none := by
  unfold asymmetry?
  rw [Option.or_eq_none_iff]
  constructor
  · rw [List.findSome?_eq_none_iff]
    rintro ⟨register, number⟩ hRegister
    rw [List.mem_zipIdx_iff_getElem?, Array.getElem?_toList] at hRegister
    have hEntry : store.register? number = some register :=
      register?_eq_some_iff.mpr ⟨Int.natCast_nonneg number, hRegister⟩
    cases hOccupant : register.occupant with
    | none => simp [occupantFault?, hOccupant]
    | some handle =>
        have hHere : store.occupant? number = some handle := by
          rw [occupant?, hEntry, Option.bind_some, hOccupant]
        obtain ⟨value, hValue, hNamed⟩ := (hPaired.occupants number handle).mp hHere
        simp [occupantFault?, hOccupant, hValue, hNamed]
  · rw [List.findSome?_eq_none_iff]
    rintro ⟨handle, value⟩ hEntry
    have hValue := (Arena.mem_entries_iff hPaired.arena).mp hEntry
    cases hRegister : value.register with
    | none => simp [bindingFault?, hRegister]
    | some register =>
        have hOccupant := (hPaired.occupants register handle).mpr ⟨value, hValue, hRegister⟩
        have hLow := (hPaired.allocatable_of_occupant? hOccupant).1
        simp [bindingFault?, hRegister, hOccupant, hLow]

end Paired

/-! ### Single entries -/

theorem register?_of_allocatable {register : Int} (hRegister : store.Allocatable register) :
    store.register? register = some ⟨store.registerState register, store.occupant? register⟩ := by
  obtain ⟨entry, hEntry⟩ := Option.isSome_iff_exists.mp
    (register?_isSome_iff.mpr ⟨Int.le_of_lt hRegister.1, hRegister.2⟩)
  simp only [registerState, occupant?, hEntry, Option.map_some, Option.getD_some, Option.bind_some]

private theorem setRegister_of_register? {register : Int} {entry : Register}
    (hEntry : store.register? register = some entry) :
    store.setRegister register entry = store := by
  obtain ⟨-, hFound⟩ := register?_eq_some_iff.mp hEntry
  obtain ⟨hBound, hSame⟩ := Array.getElem?_eq_some_iff.mp hFound
  rw [setRegister, Array.set!_eq_setIfInBounds, Array.setIfInBounds, dif_pos hBound, ← hSame,
    Array.set_getElem_self]

private theorem markRegister_eq_setRegister {register : Int} {entry : Register}
    (hEntry : store.register? register = some entry) (state : RegisterState) :
    store.markRegister register state = store.setRegister register ⟨state, entry.occupant⟩ := by
  obtain ⟨-, hFound⟩ := register?_eq_some_iff.mp hEntry
  have hBound := (Array.getElem?_eq_some_iff.mp hFound).1
  have hWritten : store.registers.modify register.toNat (fun old => { old with state := state }) =
      store.registers.set! register.toNat ⟨state, entry.occupant⟩ := by
    apply Array.ext_getElem?
    intro place
    rw [Array.getElem?_modify, Array.set!_eq_setIfInBounds, Array.getElem?_setIfInBounds]
    by_cases hSame : register.toNat = place
    · rw [if_pos hSame, if_pos hSame, if_pos (hSame ▸ hBound), ← hSame, hFound]
      rfl
    · rw [if_neg hSame, if_neg hSame]
  rw [markRegister, hWritten, setRegister]

private theorem register?_unlink_self (store : Store) (register : Int) :
    (store.unlink register).register? register =
      (store.register? register).map fun entry => ⟨entry.state, none⟩ := by
  unfold unlink
  cases hOccupant : store.occupant? register with
  | none =>
      cases hEntry : store.register? register with
      | none => rfl
      | some entry =>
          rw [occupant?, hEntry, Option.bind_some] at hOccupant
          rw [Option.map_some, ← hOccupant]
  | some handle =>
      simp only [register?, Array.getElem?_modify, if_true]
      split <;> rfl

private theorem unlink_eq_vacate {register : Int} (hRegister : store.Allocatable register) :
    store.unlink register = store.vacate register (store.registerState register) := by
  have hEntry := register?_unlink_self store register
  rw [register?_of_allocatable hRegister, Option.map_some] at hEntry
  exact (setRegister_of_register? hEntry).symm

private theorem markRegister_unlink {register : Int} (hRegister : store.Allocatable register)
    (state : RegisterState) :
    (store.unlink register).markRegister register state = store.vacate register state := by
  have hEntry := register?_unlink_self store register
  rw [register?_of_allocatable hRegister, Option.map_some] at hEntry
  exact markRegister_eq_setRegister hEntry state

/-! ### Steps -/

namespace Paired

variable (hPaired : store.Paired) {register : Int} (hRegister : store.Allocatable register)

include hPaired hRegister

private theorem vacate (state : RegisterState) : (store.vacate register state).Paired where
  arena := by
    unfold Store.vacate unlink setRegister
    split
    · exact hPaired.arena
    · exact Arena.wellFormed_modify hPaired.arena _ _
  pointer := by
    rw [register?_vacate hRegister, if_neg (Int.ne_of_lt hRegister.1)]
    exact hPaired.pointer
  vacant := by
    intro other handle
    rw [register?_vacate hRegister]
    split
    · simp
    · exact hPaired.vacant other handle
  occupants := mutual_vacate hRegister state hPaired.occupants

private theorem occupy {handle : Handle} {value : Value} (hEmpty : store.occupant? register = none)
    (hLive : store.arena.get? handle = some value) (hUnbound : value.register = none) :
    (store.occupy register handle).Paired where
  arena := Arena.wellFormed_modify hPaired.arena _ _
  pointer := by
    rw [register?_occupy hRegister, if_neg (Int.ne_of_lt hRegister.1)]
    exact hPaired.pointer
  vacant := by
    intro other found
    rw [register?_occupy hRegister]
    split
    · simp
    · exact hPaired.vacant other found
  occupants := by
    refine mutual_occupy hRegister hPaired.occupants hEmpty ?_ (Option.isSome_of_eq_some hLive)
    intro place hPlace
    obtain ⟨found, hFound, hNamed⟩ := (hPaired.occupants place handle).mp hPlace
    cases hLive.symm.trans hFound
    rw [hUnbound] at hNamed
    contradiction

private theorem mark {state : RegisterState} (hState : state ≠ .free) :
    (store.markRegister register state).Paired := by
  have hEntry := register?_of_allocatable hRegister
  rw [markRegister_eq_setRegister hEntry]
  have hRead := register?_setRegister hRegister ⟨state, store.occupant? register⟩
  constructor
  · exact hPaired.arena
  · rw [hRead, if_neg (Int.ne_of_lt hRegister.1)]
    exact hPaired.pointer
  · intro other handle
    rw [hRead]
    split
    · intro hSame
      exact hState (congrArg Register.state (Option.some.inj hSame))
    · exact hPaired.vacant other handle
  · intro other handle
    rw [occupant?, hRead]
    by_cases hSame : other = register
    · rw [if_pos hSame, hSame]
      exact hPaired.occupants register handle
    · rw [if_neg hSame]
      exact hPaired.occupants other handle

end Paired

private theorem Paired.vacateAll {steps : List Nat} (hPaired : store.Paired)
    (hSteps : ∀ step ∈ steps, step + 1 < store.registers.size) :
    (steps.foldl (fun store step => (store.unlink (step + 1)).setRegister (step + 1)
      ⟨.free, none⟩) store).Paired := by
  induction steps generalizing store with
  | nil => exact hPaired
  | cons step rest inductionHypothesis =>
      have hRegister : store.Allocatable (step + 1) :=
        ⟨by omega, by have := hSteps step List.mem_cons_self; omega⟩
      apply inductionHypothesis (hPaired.vacate hRegister .free)
      intro other hOther
      rw [size_vacate]
      exact hSteps other (List.mem_cons_of_mem step hOther)

end Store

/-! ### Calls -/

namespace StoreAction

open Store (Paired)

variable {store : Store} {register : Int}

private theorem checkAllocatable_refuses (hRegister : ¬store.Allocatable register) :
    (checkAllocatable register).Refuses store (.notAllocatable register) := by
  have hFails : (decide (register ≤ 0) || decide (store.registerCount ≤ register)) = true := by
    rw [Bool.or_eq_true, decide_eq_true_iff, decide_eq_true_iff]
    unfold Store.Allocatable at hRegister
    unfold Store.registerCount
    omega
  refine Gives.refuses (.get store) ?_
  rw [hFails]
  exact .throw _ store

private theorem reserve_preserves (hPaired : store.Paired) (register : Int) :
    (reserve register).Preserves Paired store := by
  by_cases hRegister : store.Allocatable register
  · exact .inr ⟨(), _, reserve_gives hRegister, hPaired.vacate hRegister .inUse⟩
  · exact .inl ⟨_, (checkAllocatable_refuses hRegister).bind _⟩

private theorem release_preserves (hPaired : store.Paired) (register : Int) :
    (release register).Preserves Paired store := by
  by_cases hRegister : store.Allocatable register
  · exact .inr ⟨(), _, release_gives hRegister, hPaired.vacate hRegister .free⟩
  · exact .inl ⟨_, (checkAllocatable_refuses hRegister).bind _⟩

private theorem setState_preserves (hPaired : store.Paired) (register : Int)
    (state : RegisterState) :
    (setState register state).Preserves Paired store := by
  by_cases hRegister : store.Allocatable register
  · have hCheck := checkAllocatable_gives hRegister
    by_cases hFree : state = .free
    · refine .inr ⟨(), _, .bind hCheck ?_, hPaired.vacate hRegister .free⟩
      rw [if_pos hFree]
      exact release_gives hRegister
    · by_cases hTaken : store.registerState register = .free
      · refine .inl ⟨.registerFree register, hCheck.refuses ?_⟩
        rw [if_neg hFree]
        refine Gives.refuses (.get store) ?_
        rw [if_pos hTaken]
        exact .throw _ store
      · refine .inr ⟨(), _, .bind hCheck ?_, hPaired.mark hRegister hFree⟩
        rw [if_neg hFree]
        refine .bind (.get store) ?_
        rw [if_neg hTaken]
        exact .modify _ store
  · exact .inl ⟨_, (checkAllocatable_refuses hRegister).bind _⟩

private theorem resetRegisters_preserves (hPaired : store.Paired) :
    resetRegisters.Preserves Paired store := by
  refine .inr ⟨(), _, .modify _ store, hPaired.vacateAll ?_⟩
  intro step hStep
  rw [List.mem_range, Store.registerCount] at hStep
  omega

/-- Binding breaks what links the register and the value have first, if they have any. -/
theorem bind_preserves (hPaired : store.Paired) (register : Int) (handle : Handle) :
    (bind register handle).Preserves Paired store := by
  by_cases hRegister : store.Allocatable register
  case neg => exact .inl ⟨_, (checkAllocatable_refuses hRegister).bind _⟩
  have hCheck := checkAllocatable_gives hRegister
  cases hLive : store.arena.get? handle with
  | none => exact .inl ⟨_, hCheck.refuses ((value_refuses hLive).bind _)⟩
  | some value =>
      have hStill := Store.allocatable_vacate register (store.registerState register) hRegister
      have hEmptied := hPaired.vacate hRegister (store.registerState register)
      have hEmpty := Store.occupant?_vacate hRegister (store.registerState register) register
      rw [if_pos rfl] at hEmpty
      rw [← Store.unlink_eq_vacate hRegister] at hStill hEmptied hEmpty
      obtain ⟨found, hFound⟩ : ∃ found, (store.unlink register).arena.get? handle = some found := by
        rw [Store.get?_unlink, hLive]
        exact ⟨_, rfl⟩
      -- a value that was in the register itself is in none now
      cases hPrevious : found.register with
      | none =>
          refine .inr ⟨(), _, .bind hCheck (.bind (value_gives hLive) (.bind (.modify _ store)
            (.bind (value_gives hFound) ?_))), hEmptied.occupy hStill hEmpty hFound hPrevious⟩
          rw [hPrevious]
          exact .bind (.modify _ _) (.modify _ _)
      | some previous =>
          have hOccupant := (hEmptied.occupants previous handle).mpr ⟨found, hFound, hPrevious⟩
          have hPlace := hEmptied.allocatable_of_occupant? hOccupant
          have hParted := hEmptied.vacate hPlace .free
          have hStays := Store.allocatable_vacate previous .free hStill
          have hVacant : ((store.unlink register).vacate previous .free).occupant? register =
              none := by
            rw [Store.occupant?_vacate hPlace, hEmpty]
            split <;> rfl
          have hAlone : ((store.unlink register).vacate previous .free).arena.get? handle =
              some { found with register := none } := by
            rw [Store.get?_vacate .free hEmptied.occupants, hFound, Option.map_some,
              if_pos hPrevious]
          refine .inr ⟨(), _, .bind hCheck (.bind (value_gives hLive) (.bind (.modify _ store)
            (.bind (value_gives hFound) ?_))), hParted.occupy hStays hVacant hAlone rfl⟩
          have hInside : ¬((store.unlink register).register? previous).isNone := by
            rw [Store.register?_of_allocatable hPlace]
            exact Bool.false_ne_true
          rw [hPrevious]
          refine .bind (.get _) ?_
          rw [if_neg hInside]
          refine .bind (.modify _ _) ?_
          rw [Store.markRegister_unlink hPlace]
          exact .bind (.modify _ _) (.modify _ _)

end StoreAction

inductive RegisterCall where
  | bind (register : Int) (handle : Handle)
  | reserve (register : Int)
  | setState (register : Int) (state : RegisterState)
  | release (register : Int)
  | reset
  | values (call : ValueCall)

namespace RegisterCall

def action : RegisterCall → StoreAction Unit
  | bind register handle => StoreAction.bind register handle
  | reserve register => StoreAction.reserve register
  | setState register state => StoreAction.setState register state
  | release register => StoreAction.release register
  | reset => StoreAction.resetRegisters
  | values call => do
      let _ ← call.action

/-- Registers are only changed through calls on registers: a value that is in one is not
destroyed, and a change of a value leaves its register alone. -/
def Allowed (store : Store) : RegisterCall → Prop
  | values call => call.Spares Value.register store
  | _ => True

def perform (store : Store) (call : RegisterCall) : Store :=
  (call.action.run.run store).2

variable {store : Store}

/-- Every call that is allowed keeps a store paired, or fails and changes nothing. -/
theorem preserves (hPaired : store.Paired) {call : RegisterCall} (hAllowed : Allowed store call) :
    call.action.Preserves Store.Paired store := by
  cases call with
  | bind register handle => exact StoreAction.bind_preserves hPaired register handle
  | reserve register => exact StoreAction.reserve_preserves hPaired register
  | setState register state => exact StoreAction.setState_preserves hPaired register state
  | release register => exact StoreAction.release_preserves hPaired register
  | reset => exact StoreAction.resetRegisters_preserves hPaired
  | values call =>
      rcases hAllowed.outcome (fun _ => rfl) hPaired.arena with
        ⟨fault, hRefuses⟩ | ⟨answer, arena, hGives, hWell, -, hRegisters⟩
      · exact .inl ⟨fault, hRefuses.bind _⟩
      · refine .inr ⟨(), _, hGives.bind (.pure () _), hWell, hPaired.pointer, hPaired.vacant, ?_⟩
        intro register handle
        rw [← Option.bind_eq_some_iff, hRegisters, Option.bind_eq_some_iff]
        exact hPaired.occupants register handle

private theorem paired_of_reached {start : Store} (hStart : start.Paired)
    (hReached : Reached Allowed perform start store) : store.Paired := by
  induction hReached with
  | start => exact hStart
  | call call _ hAllowed inductionHypothesis =>
      exact (preserves inductionHypothesis hAllowed).kept inductionHypothesis

end RegisterCall

private theorem Store.paired_empty (layout : Layout) {registers : Nat} (hEnough : 0 < registers) :
    (Store.empty layout registers).Paired := by
  have hEntry : ∀ register entry,
      (Store.empty layout registers).register? register = some entry → entry = ⟨.free, none⟩ := by
    intro register entry hEntry
    obtain ⟨-, hFound⟩ := Store.register?_eq_some_iff.mp hEntry
    exact (Array.mem_replicate.mp (Array.mem_of_getElem? hFound)).2
  constructor
  · exact Arena.wellFormed_empty
  · refine Store.register?_eq_some_iff.mpr ⟨Int.le_refl 0, ?_⟩
    simp [Store.empty, hEnough]
  · intro register handle hFound
    cases hEntry register _ hFound
  · intro register handle
    constructor
    · intro hOccupant
      obtain ⟨state, hFound⟩ := Store.occupant?_eq_some_iff.mp hOccupant
      cases hEntry register _ hFound
    · rintro ⟨value, hValue, -⟩
      simp [Store.empty, Arena.empty, Arena.get?] at hValue

/-- Registers and values stay paired.  After any calls that bind, reserve, release and reset
registers and set their states, among calls that create values and destroy values that are in
no register, registers and values name each other, no value is in two registers and no two
values are in one, free registers hold nothing, and the pointer is free, holds nothing and is
never offered.  A call that fails changes nothing. -/
theorem register_links_symmetric {layout : Layout} {registers : Nat} {store : Store}
    (hEnough : 2 ≤ registers)
    (hReached : Reached RegisterCall.Allowed RegisterCall.perform (.empty layout registers) store) :
    store.asymmetry? = none ∧
      (∀ first second handle, store.occupant? first = some handle →
        store.occupant? second = some handle → first = second) ∧
      (∀ register first second value other, store.arena.get? first = some value →
        store.arena.get? second = some other → value.register = some register →
        other.register = some register → first = second) ∧
      (∀ register, store.registerState register = .free → store.occupant? register = none) ∧
      store.register? pointerRegister = some ⟨.free, none⟩ ∧
      store.freeRegister? ≠ some pointerRegister ∧
      pointerRegister ∉ store.busyRegisters ∧ pointerRegister ∉ store.heldRegisters ∧
      ∀ call, RegisterCall.Allowed store call → ∀ fault after,
        call.action.run.run store = (.error fault, after) → after = store := by
  have hPaired := RegisterCall.paired_of_reached (Store.paired_empty layout (by omega)) hReached
  have hPointer : ∀ state, pointerRegister ∉ store.registersIn state := by
    intro state hMem
    exact (Store.mem_registersIn.mp hMem).1 rfl
  refine ⟨hPaired.asymmetry?_eq_none, ?_, ?_, ?_, hPaired.pointer, ?_, hPointer _, hPointer _, ?_⟩
  · intro first second handle hFirst hSecond
    exact hPaired.occupant?_injective hFirst hSecond
  · intro register first second value other hValue hOther hFirst hSecond
    exact hPaired.handle_eq_of_register hValue hFirst hOther hSecond
  · intro register hFree
    exact hPaired.occupant?_of_free hFree
  · intro hFree
    exact hPointer .free (List.mem_of_head? hFree)
  · intro call hAllowed fault after hRun
    exact (RegisterCall.preserves hPaired hAllowed).unchanged hRun

/-- A value that moves to the register of another breaks two links at once. -/
theorem moved_value_links_symmetric :
    ∃ store, Reached RegisterCall.Allowed RegisterCall.perform (.empty .standard 5) store ∧
      store.occupant? 1 = some ⟨1, 1⟩ ∧ store.occupant? 2 = none ∧
      (store.arena.get? ⟨0, 1⟩).bind Value.register = none ∧ store.asymmetry? = none := by
  have hMade : Reached RegisterCall.Allowed RegisterCall.perform (.empty .standard 5) _ :=
    .call (.values (.create (.constant 8)))
      (.call (.values (.create (.constant 7))) .start (by trivial)) (by trivial)
  have hReached : Reached RegisterCall.Allowed RegisterCall.perform (.empty .standard 5) _ :=
    .call (.bind 1 ⟨1, 1⟩) (.call (.bind 2 ⟨1, 1⟩) (.call (.bind 1 ⟨0, 1⟩) hMade
      (by trivial)) (by trivial)) (by trivial)
  exact ⟨_, hReached, rfl, rfl, rfl, (register_links_symmetric (by decide) hReached).1⟩

end RegisterCompiler
