/-
Calls one after the other.

A state is reached when calls lead to it from a start, each one made where it is allowed.  An
operation preserves what holds of a store when it either fails and changes nothing or succeeds
and leaves a store of which the same holds.  The calls on values create, copy, change and
destroy them.
-/

import RegisterCompiler.Proofs.Store.Names

set_option autoImplicit false

namespace RegisterCompiler

/-- The states that calls lead to, each one made where it is allowed. -/
inductive Reached {σ κ : Type} (allowed : σ → κ → Prop) (perform : σ → κ → σ) (start : σ) :
    σ → Prop where
  | start : Reached allowed perform start start
  | call {state : σ} (call : κ) (hReached : Reached allowed perform start state)
      (hAllowed : allowed state call) : Reached allowed perform start (perform state call)

namespace StoreAction

/-- An operation that fails and changes nothing, or succeeds and keeps what holds. -/
def Preserves {α : Type} (holds : Store → Prop) (action : StoreAction α) (store : Store) : Prop :=
  (∃ fault, action.Refuses store fault) ∨
    ∃ result after, action.Gives store result after ∧ holds after

namespace Preserves

variable {α β : Type} {holds : Store → Prop} {action : StoreAction α} {store : Store}

theorem kept (hPreserves : action.Preserves holds store) (hHolds : holds store) :
    holds (action.run.run store).2 := by
  rcases hPreserves with ⟨fault, hRefuses⟩ | ⟨result, after, hGives, hAfter⟩
  · rw [hRefuses]
    exact hHolds
  · rw [hGives]
    exact hAfter

theorem unchanged (hPreserves : action.Preserves holds store) {fault : StoreFault} {after : Store}
    (hRun : action.run.run store = (.error fault, after)) : after = store := by
  rcases hPreserves with ⟨cause, hRefuses⟩ | ⟨result, other, hGives, -⟩
  · rw [hRefuses] at hRun
    cases hRun
    rfl
  · rw [hGives] at hRun
    cases hRun

end Preserves

theorem run_bind_of_error {α β : Type} {action : StoreAction α} {before after : Store}
    {fault : StoreFault} (hAction : action.run.run before = (.error fault, after))
    (next : α → StoreAction β) : (action >>= next).run.run before = (.error fault, after) := by
  simp only [ExceptT.run_bind, StateT.run_bind, hAction]
  rfl

theorem run_bind_of_gives {α β : Type} {action : StoreAction α} {before middle : Store} {first : α}
    (hAction : action.Gives before first middle) (next : α → StoreAction β) :
    (action >>= next).run.run before = (next first).run.run middle := by
  unfold Gives at hAction
  simp only [ExceptT.run_bind, StateT.run_bind, hAction]
  rfl

theorem Refuses.bind {α β : Type} {action : StoreAction α} {store : Store} {fault : StoreFault}
    (hAction : action.Refuses store fault) (next : α → StoreAction β) :
    (action >>= next).Refuses store fault :=
  run_bind_of_error hAction next

theorem Refuses.map {α β : Type} {action : StoreAction α} {store : Store} {fault : StoreFault}
    (hAction : action.Refuses store fault) (wrap : α → β) :
    (wrap <$> action).Refuses store fault := by
  rw [map_eq_pure_bind]
  exact hAction.bind _

theorem Gives.map {α β : Type} {action : StoreAction α} {before after : Store} {result : α}
    (hAction : action.Gives before result after) (wrap : α → β) :
    (wrap <$> action).Gives before (wrap result) after := by
  rw [map_eq_pure_bind]
  exact hAction.bind (.pure _ after)

theorem value_refuses {store : Store} {handle : Handle} (hStale : store.arena.get? handle = none) :
    (value handle).Refuses store (.staleHandle handle) := by
  refine Gives.refuses (.get store) ?_
  rw [hStale]
  exact .throw _ store

theorem free_refuses {store : Store} {handle : Handle} (hStale : store.arena.get? handle = none) :
    (free handle).Refuses store (.staleHandle handle) := by
  have hNone : store.arena.free? handle = none := by
    rw [Arena.free?, hStale]
    rfl
  refine Gives.refuses (.get store) ?_
  rw [hNone]
  exact .throw _ store

end StoreAction

/-! ### Calls on values -/

inductive ValueCall where
  | create (payload : Payload)
  | copy (handle : Handle)
  | change (handle : Handle) (update : Value → Value)
  | free (handle : Handle)

namespace ValueCall

open StoreAction (Gives Refuses)

def action : ValueCall → StoreAction (Option Handle)
  | create payload => some <$> StoreAction.create payload
  | copy handle => some <$> StoreAction.copy handle
  | change handle update => do
      let _ ← StoreAction.change handle update
      return none
  | free handle => do
      let _ ← StoreAction.free handle
      return none

variable {store : Store} {handle : Handle}

theorem create_gives (store : Store) (payload : Payload) :
    (create payload).action.Gives store (some (store.arena.create payload).1)
      { store with arena := (store.arena.create payload).2 } :=
  rfl

theorem copy_gives {value : Value} (hLive : store.arena.get? handle = some value) :
    (copy handle).action.Gives store (some (store.arena.create value.payload).1)
      { store with arena := (store.arena.create value.payload).2 } := by
  have hCopy : (StoreAction.copy handle).Gives store (store.arena.create value.payload).1
      { store with arena := (store.arena.create value.payload).2 } :=
    .bind (StoreAction.value_gives hLive) (StoreAction.create_gives store value.payload)
  exact hCopy.map some

theorem change_gives {value : Value} (hLive : store.arena.get? handle = some value)
    (update : Value → Value) :
    (change handle update).action.Gives store none
      { store with arena := store.arena.modify handle update } :=
  .bind (StoreAction.change_gives hLive update) (.pure none _)

theorem free_gives {value : Value} {arena : Arena}
    (hFree : store.arena.free? handle = some (value, arena)) :
    (free handle).action.Gives store none { store with arena := arena } :=
  .bind (StoreAction.free_gives hFree) (.pure none _)

theorem copy_refuses (hStale : store.arena.get? handle = none) :
    (copy handle).action.Refuses store (.staleHandle handle) := by
  have hCopy : (StoreAction.copy handle).Refuses store (.staleHandle handle) :=
    (StoreAction.value_refuses hStale).bind _
  exact hCopy.map some

theorem change_refuses (hStale : store.arena.get? handle = none) (update : Value → Value) :
    (change handle update).action.Refuses store (.staleHandle handle) :=
  ((StoreAction.value_refuses hStale).bind _).bind _

theorem free_refuses (hStale : store.arena.get? handle = none) :
    (free handle).action.Refuses store (.staleHandle handle) :=
  (StoreAction.free_refuses hStale).bind _

/-- A call that leaves a part of every value alone and destroys no value that has it. -/
def Spares {γ : Type} (part : Value → Option γ) (store : Store) : ValueCall → Prop
  | create _ | copy _ => True
  | change _ update => ∀ value, part (update value) = part value
  | free handle => ∀ value, store.arena.get? handle = some value → part value = none

/-- What a call that spares a part of the values does: it fails and changes nothing, or every
handle finds that part as before. -/
theorem Spares.outcome {γ : Type} {part : Value → Option γ}
    (hNew : ∀ payload, part (.ofPayload payload) = none) (hWell : store.arena.WellFormed)
    {call : ValueCall} (hSpares : call.Spares part store) :
    (∃ fault, call.action.Refuses store fault) ∨
      ∃ answer arena, call.action.Gives store answer { store with arena := arena } ∧
        arena.WellFormed ∧ arena.arrays = store.arena.arrays ∧
        ∀ handle, (arena.get? handle).bind part = (store.arena.get? handle).bind part := by
  have hCreate : ∀ payload handle, ((store.arena.create payload).2.get? handle).bind part =
      (store.arena.get? handle).bind part := by
    intro payload handle
    by_cases hMade : handle = (store.arena.create payload).1
    · rw [hMade, Arena.get?_create_self hWell, Arena.get?_create_before hWell, Option.bind_some,
        hNew]
      rfl
    · rw [Arena.get?_create_of_ne hWell payload hMade]
  cases call with
  | create payload =>
      exact .inr ⟨_, _, create_gives store payload, Arena.wellFormed_create hWell payload,
        Arena.arrays_create store.arena payload, hCreate payload⟩
  | copy handle =>
      cases hLive : store.arena.get? handle with
      | none => exact .inl ⟨_, copy_refuses hLive⟩
      | some value =>
          exact .inr ⟨_, _, copy_gives hLive, Arena.wellFormed_create hWell value.payload,
            Arena.arrays_create store.arena value.payload, hCreate value.payload⟩
  | change handle update =>
      cases hLive : store.arena.get? handle with
      | none => exact .inl ⟨_, change_refuses hLive update⟩
      | some value =>
          refine .inr ⟨_, _, change_gives hLive update, Arena.wellFormed_modify hWell handle update,
            Arena.arrays_modify store.arena handle update, ?_⟩
          intro other
          rw [Arena.get?_modify]
          split
          · rename_i hSame
            have hSpared : part ∘ update = part := funext hSpares
            rw [hSame, Option.bind_map, hSpared]
          · rfl
  | free handle =>
      cases hLive : store.arena.get? handle with
      | none => exact .inl ⟨_, free_refuses hLive⟩
      | some value =>
          obtain ⟨arena, hFree, hAfter, hArrays, hGet⟩ := Arena.free?_of_get? hWell hLive
          refine .inr ⟨_, _, free_gives hFree, hAfter, hArrays, ?_⟩
          intro other
          rw [hGet]
          split
          · rename_i hSame
            rw [hSame, hLive, Option.bind_some, hSpares value hLive]
            rfl
          · rfl

end ValueCall

end RegisterCompiler
