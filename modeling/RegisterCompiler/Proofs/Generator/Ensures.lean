/-
What steps of code generation ensure.

A step either succeeds with a result and a context of which a condition holds, or it
fails for a usual reason: the program misuses a name, or a segment of the memory is
full.
-/

import RegisterCompiler.Generator
import RegisterCompiler.Proofs.Store.Names

set_option autoImplicit false

namespace RegisterCompiler

def StoreFault.isExhaustion : StoreFault → Bool
  | .segmentFull _ _ | .noRun _ _ | .arraysFull _ _ => true
  | _ => false

def GeneratorFault.isUsual : GeneratorFault → Bool
  | .misuse _ => true
  | .store fault | .placing _ fault => fault.isExhaustion
  | _ => false

namespace Generating

/-- Two steps succeed when the first does and the second does behind it. -/
theorem exists_of_run_bind {α β : Type} {action : Generating α} {next : α → Generating β}
    {context after : Context} {result : β}
    (hRun : (action >>= next).run.run context = (.ok result, after)) :
    ∃ value middle, action.run.run context = (.ok value, middle) ∧
      (next value).run.run middle = (.ok result, after) := by
  simp only [ExceptT.run_bind, StateT.run_bind] at hRun
  cases hFirst : action.run.run context with
  | mk outcome middle =>
      rw [hFirst] at hRun
      cases outcome with
      | ok value => exact ⟨value, middle, rfl, hRun⟩
      | error fault => cases hRun

/-- A step that succeeds as a condition says or fails for a usual reason. -/
def Ensures {α : Type} (action : Generating α) (context : Context) (post : α → Context → Prop) :
    Prop :=
  match action.run.run context with
  | (.ok value, after) => post value after
  | (.error fault, _) => fault.isUsual = true

namespace Ensures

variable {α β : Type} {context : Context} {post : α → Context → Prop}

theorem pure {value : α} (hPost : post value context) :
    Ensures (pure value : Generating α) context post :=
  hPost

theorem mono {action : Generating α} {weaker : α → Context → Prop}
    (hAction : Ensures action context post)
    (hWeaker : ∀ value after, post value after → weaker value after) :
    Ensures action context weaker := by
  unfold Ensures at hAction ⊢
  cases hRun : action.run.run context with
  | mk result after =>
      rw [hRun] at hAction
      cases result with
      | ok value => exact hWeaker value after hAction
      | error fault => exact hAction

theorem bind {action : Generating β} {next : β → Generating α} {middle : β → Context → Prop}
    (hAction : Ensures action context middle)
    (hNext : ∀ value after, middle value after → Ensures (next value) after post) :
    Ensures (action >>= next) context post := by
  unfold Ensures at hAction ⊢
  simp only [ExceptT.run_bind, StateT.run_bind]
  cases hRun : action.run.run context with
  | mk result after =>
      rw [hRun] at hAction
      cases result with
      | ok value => exact hNext value after hAction
      | error fault => exact hAction

theorem get {next : Context → Generating α} (hNext : Ensures (next context) context post) :
    Ensures (MonadState.get >>= next) context post :=
  hNext

theorem modify {change : Context → Context} {effect : Unit → Context → Prop}
    (hPost : effect () (change context)) :
    Ensures (modify change : Generating Unit) context effect :=
  hPost

theorem modify_bind {change : Context → Context} {next : Unit → Generating α}
    (hNext : Ensures (next ()) (change context) post) :
    Ensures (MonadStateOf.modifyGet (fun context => ((), change context)) >>= next) context post :=
  hNext

theorem refuse (position : Source.Position) (misuse : Misuse) :
    Ensures (refuse position misuse : Generating α) context post :=
  rfl

theorem run_onStore (action : StoreAction α) (context : Context) :
    (Generating.onStore action).run.run context =
      ((action.run.run context.store).1.mapError .store,
        { context with store := (action.run.run context.store).2 }) := by
  have hGet : ∀ next : Context → Generating α,
      (MonadState.get >>= next).run.run context = (next context).run.run context := fun _ => rfl
  rw [Generating.onStore, hGet]
  rcases action.run.run context.store with ⟨result, store⟩
  cases result with
  | ok value => rfl
  | error fault => rfl

theorem onStore {action : StoreAction α} {value : α} {store : Store}
    (hGives : action.Gives context.store value store)
    (hPost : post value { context with store := store }) :
    Ensures (Generating.onStore action) context post := by
  unfold StoreAction.Gives at hGives
  unfold Ensures
  rw [run_onStore, hGives]
  exact hPost

theorem onStore_bind {action : StoreAction β} {next : β → Generating α} {value : β}
    {store : Store} (hGives : action.Gives context.store value store)
    (hNext : Ensures (next value) { context with store := store } post) :
    Ensures (Generating.onStore action >>= next) context post := by
  have hHere : Ensures (Generating.onStore action) context fun found after =>
      found = value ∧ after = { context with store := store } := .onStore hGives ⟨rfl, rfl⟩
  refine .bind hHere ?_
  rintro _ _ ⟨rfl, rfl⟩
  exact hNext

theorem value_bind {handle : Handle} {value : Value} {next : Value → Generating α}
    (hValue : context.store.arena.get? handle = some value)
    (hNext : Ensures (next value) context post) :
    Ensures (Generating.onStore (StoreAction.value handle) >>= next) context post :=
  .onStore_bind (StoreAction.value_gives hValue) hNext

/-- An operation with a way out succeeds like the operation alone. -/
theorem tryCatch_onStore {action : StoreAction α} {value : α} {store : Store}
    {handler : GeneratorFault → Generating α} (hGives : action.Gives context.store value store)
    (hPost : post value { context with store := store }) :
    Ensures (tryCatch (Generating.onStore action) handler) context post := by
  unfold StoreAction.Gives at hGives
  unfold Ensures
  change match (ExceptT.tryCatch (Generating.onStore action) handler).run.run context with
    | (.ok value, after) => post value after
    | (.error fault, _) => fault.isUsual = true
  simp only [ExceptT.tryCatch, ExceptT.run_mk, StateT.run_bind]
  rw [show StateT.run (Generating.onStore action) context = _ from run_onStore action context,
    hGives]
  exact hPost

/-- An operation with a way out that is refused takes the way out. -/
theorem tryCatch_refuses {action : StoreAction α} {fault : StoreFault}
    {handler : GeneratorFault → Generating α} (hRefuses : action.Refuses context.store fault)
    (hHandler : Ensures (handler (.store fault)) context post) :
    Ensures (tryCatch (Generating.onStore action) handler) context post := by
  unfold StoreAction.Refuses at hRefuses
  unfold Ensures at hHandler ⊢
  change match (ExceptT.tryCatch (Generating.onStore action) handler).run.run context with
    | (.ok value, after) => post value after
    | (.error fault, _) => fault.isUsual = true
  simp only [ExceptT.tryCatch, ExceptT.run_mk, StateT.run_bind]
  rw [show StateT.run (Generating.onStore action) context = _ from run_onStore action context,
    hRefuses]
  exact hHandler

theorem of_run {action : Generating α} (hEnsures : Ensures action context post) {value : α}
    {after : Context} (hRun : action.run.run context = (.ok value, after)) : post value after := by
  unfold Ensures at hEnsures
  rw [hRun] at hEnsures
  exact hEnsures

end Ensures

end Generating

end RegisterCompiler
