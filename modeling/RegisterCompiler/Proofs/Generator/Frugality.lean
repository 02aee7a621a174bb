/-
What steps of code generation cost.

Most steps leave the memory cells alone.  Those that take loop cells give them back, so that
behind them the same cells have owners as before; such a step succeeds only if enough cells in a
row are free, and fails for want of memory only if there are too few.
-/

import RegisterCompiler.Proofs.Generator.Agreement
import RegisterCompiler.Proofs.Generator.Gains
import RegisterCompiler.Proofs.Store.Vacancies

set_option autoImplicit false

namespace RegisterCompiler

namespace Generating

/-! ### Steps that leave the memory cells alone -/

def Sober {α : Type} (action : Generating α) : Prop :=
  ∀ context fault after, action.run.run context = (.error fault, after) →
    fault.isExhaustion = false

/-- Two steps fail when the first does, or when it succeeds and the second does. -/
theorem error_of_run_bind {α β : Type} {action : Generating α} {next : α → Generating β}
    {context after : Context} {fault : GeneratorFault}
    (hRun : (action >>= next).run.run context = (.error fault, after)) :
    action.run.run context = (.error fault, after) ∨
      ∃ value middle, action.run.run context = (.ok value, middle) ∧
        (next value).run.run middle = (.error fault, after) := by
  simp only [ExceptT.run_bind, StateT.run_bind] at hRun
  cases hFirst : action.run.run context with
  | mk outcome middle =>
      rw [hFirst] at hRun
      cases outcome with
      | ok value => exact .inr ⟨value, middle, rfl, hRun⟩
      | error found =>
          cases hRun
          exact .inl rfl

theorem Sober.bind {α β : Type} {action : Generating α} {next : α → Generating β}
    (hAction : Sober action) (hNext : ∀ value, Sober (next value)) : Sober (action >>= next) := by
  intro context fault after hRun
  rcases error_of_run_bind hRun with hFirst | ⟨value, middle, -, hSecond⟩
  · exact hAction context fault after hFirst
  · exact hNext value middle fault after hSecond

theorem Sober.onStore {α : Type} {action : StoreAction α} (hAction : action.Sober) :
    Sober (onStore action) := by
  intro context fault after hRun
  rw [Ensures.run_onStore] at hRun
  cases hResult : action.run.run context.store with
  | mk outcome store =>
      rw [hResult] at hRun
      cases outcome with
      | ok value => cases hRun
      | error found =>
          cases hRun
          exact hAction _ _ _ hResult

class Aloof {α : Type} (action : Generating α) : Prop where
  sober : Sober action
  space : ∀ context value after, action.run.run context = (.ok value, after) →
    after.store.space = context.store.space

namespace Aloof

variable {α β : Type}

instance pure (value : α) : Aloof (pure value : Generating α) where
  sober := fun _ _ _ hRun => by cases hRun
  space := fun _ _ _ hRun => by cases hRun; rfl

instance get : Aloof (MonadState.get : Generating Context) where
  sober := fun _ _ _ hRun => by cases hRun
  space := fun _ _ _ hRun => by cases hRun; rfl

private theorem throw {fault : GeneratorFault} (hFault : fault.isExhaustion = false) :
    Aloof (throw fault : Generating α) where
  sober := fun _ _ _ hRun => by cases hRun; exact hFault
  space := fun _ _ _ hRun => by cases hRun

instance refuse (position : Source.Position) (misuse : Misuse) :
    Aloof (Generating.refuse position misuse : Generating α) :=
  throw rfl

theorem modify {change : Context → Context}
    (hStore : ∀ context, (change context).store.space = context.store.space) :
    Aloof (modify change : Generating Unit) where
  sober := fun _ _ _ hRun => by cases hRun
  space := fun context _ _ hRun => by cases hRun; exact hStore context

instance bind (action : Generating α) (next : α → Generating β) [hAction : Aloof action]
    [hNext : ∀ value, Aloof (next value)] : Aloof (action >>= next) where
  sober := hAction.sober.bind fun value => (hNext value).sober
  space := by
    intro context result after hRun
    obtain ⟨value, middle, hFirst, hSecond⟩ := exists_of_run_bind hRun
    rw [(hNext value).space middle result after hSecond]
    exact hAction.space context value middle hFirst

theorem andThen {action : Generating α} {next : α → Generating β} [Aloof action]
    (hNext : ∀ value, Aloof (next value)) : Aloof (action >>= next) :=
  inferInstance

instance ite {condition : Prop} [Decidable condition] (first second : Generating α)
    [hFirst : Aloof first] [hSecond : Aloof second] :
    Aloof (if condition then first else second) := by
  split
  · exact hFirst
  · exact hSecond

instance onStore (action : StoreAction α) [hModest : StoreAction.Modest action] :
    Aloof (onStore action) where
  sober := .onStore hModest.sober
  space := by
    intro context value after hRun
    obtain ⟨hGives, hAfter⟩ := of_onStore hRun
    rw [hAfter]
    exact hModest.space _ _ _ hGives

end Aloof

instance (priority := low) aloof_of_holds {α : Type} (action : Generating α)
    [hHolds : Holds @Aloof action] : Aloof action :=
  hHolds.holds

instance aloof_chains : Chains @Aloof where
  pure _ := ⟨inferInstance⟩
  get := ⟨inferInstance⟩
  bind _ _ := ⟨inferInstance⟩

instance aloof_jumps : Jumps @Aloof where
  emitAll _ := ⟨.modify fun _ => rfl⟩

instance onStore_aloof {α : Type} (action : StoreAction α) [StoreAction.Modest action] :
    Holds @Aloof (onStore action) :=
  ⟨inferInstance⟩

instance aloof_saves : Saves @Aloof where
  notePointer _ := ⟨.modify fun _ => rfl⟩
  forgetPointer := ⟨.modify fun _ => rfl⟩
  unplaced _ := ⟨.throw rfl⟩

instance resolveLabel_aloof : Aloof resolveLabel where
  sober := by
    intro context fault after hRun
    have hNext : ∀ next : Nat → Generating Unit, (nextLine >>= next).run.run context =
        (next context.listing.size).run.run context := fun _ => rfl
    have hGet : ∀ next : Context → Generating Unit,
        (MonadState.get >>= next).run.run context = (next context).run.run context := fun _ => rfl
    rw [resolveLabel, hNext, hGet] at hRun
    rcases hResolve : context.labels.resolve context.listing context.listing.size with
      ⟨result, labels, listing⟩
    rw [hResolve] at hRun
    cases result with
    | ok label => cases hRun
    | error found => cases hRun; rfl
  space := by
    intro context value after hRun
    obtain ⟨result, labels, listing, hResolve, -⟩ := run_resolveLabel context
    rw [hResolve] at hRun
    cases hRun
    rfl

instance aloof_tidies : Tidies @Aloof where
  drop := ⟨.modify fun _ => rfl⟩

instance aloof_branches : Branches @Aloof where
  openLabel _ _ := ⟨.modify fun _ => rfl⟩
  jump := ⟨.modify fun _ => rfl⟩
  jumpIfZero _ := ⟨.modify fun _ => rfl⟩
  resolveLabel := ⟨inferInstance⟩
  descend := ⟨.modify fun _ => rfl⟩
  ascend := ⟨.modify fun _ => rfl⟩
  tidyUp := tidyUp_holds

instance resolveElement_aloof (position : Source.Position) (ref : ArrayRef) (offset : Nat) :
    Aloof (resolveElement position ref offset) := by
  unfold resolveElement
  refine .andThen fun context => ?_
  simp only
  infer_instance

instance aloof_finds : Finds @Aloof where
  refuse _ _ := ⟨inferInstance⟩
  resolveElement _ _ _ := ⟨inferInstance⟩
  enter _ := ⟨.modify fun _ => rfl⟩

/-! ### Steps that hold registers -/

class Orderly {α : Type} (action : Generating α) : Prop where
  balanced : ∀ context value after, action.run.run context = (.ok value, after) →
    context.Balanced → after.Balanced

instance Orderly.bind {α β : Type} (action : Generating α) (next : α → Generating β)
    [hAction : Orderly action] [hNext : ∀ value, Orderly (next value)] :
    Orderly (action >>= next) where
  balanced := by
    intro context result after hRun hBalanced
    obtain ⟨value, middle, hFirst, hSecond⟩ := exists_of_run_bind hRun
    have hMiddle := hAction.balanced context value middle hFirst hBalanced
    exact (hNext value).balanced middle result after hSecond hMiddle

instance (priority := low) orderly_of_thrifty {α : Type} (action : Generating α)
    [hThrifty : Thrifty action] : Orderly action where
  balanced := fun context value after hRun hBalanced =>
    (hThrifty.books context value after hRun hBalanced).balanced

instance resolve_orderly (atom : Atom) : Orderly (resolve atom) where
  balanced := fun _ _ _ hRun hBalanced => (resolve_books hBalanced hRun).1.balanced

instance resolveTarget_orderly (cell : Reference) : Orderly (resolveTarget cell) where
  balanced := fun _ _ _ hRun hBalanced => (resolveTarget_books hBalanced hRun).1.balanced

/-- A step that leaves the memory cells alone where all that is in registers owns a cell. -/
class Frugal {α : Type} (action : Generating α) : Prop where
  sober : ∀ context fault after, action.run.run context = (.error fault, after) →
    context.Balanced → fault.isExhaustion = false
  space : ∀ context value after, action.run.run context = (.ok value, after) →
    context.Balanced → after.store.space = context.store.space

namespace Frugal

variable {α β : Type}

instance (priority := low) of_aloof (action : Generating α) [hAloof : Aloof action] :
    Frugal action where
  sober := fun context fault after hRun _ => hAloof.sober context fault after hRun
  space := fun context value after hRun _ => hAloof.space context value after hRun

instance bind (action : Generating α) (next : α → Generating β) [hOrderly : Orderly action]
    [hAction : Frugal action] [hNext : ∀ value, Frugal (next value)] :
    Frugal (action >>= next) where
  sober := by
    intro context fault after hRun hBalanced
    rcases error_of_run_bind hRun with hFirst | ⟨value, middle, hFirst, hSecond⟩
    · exact hAction.sober context fault after hFirst hBalanced
    · have hMiddle := hOrderly.balanced context value middle hFirst hBalanced
      exact (hNext value).sober middle fault after hSecond hMiddle
  space := by
    intro context result after hRun hBalanced
    obtain ⟨value, middle, hFirst, hSecond⟩ := exists_of_run_bind hRun
    have hMiddle := hOrderly.balanced context value middle hFirst hBalanced
    rw [(hNext value).space middle result after hSecond hMiddle]
    exact hAction.space context value middle hFirst hBalanced

instance bind_aloof (action : Generating α) (next : α → Generating β) [hAction : Frugal action]
    [hNext : ∀ value, Aloof (next value)] : Frugal (action >>= next) where
  sober := by
    intro context fault after hRun hBalanced
    rcases error_of_run_bind hRun with hFirst | ⟨value, middle, -, hSecond⟩
    · exact hAction.sober context fault after hFirst hBalanced
    · exact (hNext value).sober middle fault after hSecond
  space := by
    intro context result after hRun hBalanced
    obtain ⟨value, middle, hFirst, hSecond⟩ := exists_of_run_bind hRun
    rw [(hNext value).space middle result after hSecond]
    exact hAction.space context value middle hFirst hBalanced

theorem andThen {action : Generating α} {next : α → Generating β} [Orderly action]
    [Frugal action] (hNext : ∀ value, Frugal (next value)) : Frugal (action >>= next) :=
  inferInstance

instance ite {condition : Prop} [Decidable condition] (first second : Generating α)
    [hFirst : Frugal first] [hSecond : Frugal second] :
    Frugal (if condition then first else second) := by
  split
  · exact hFirst
  · exact hSecond

end Frugal

def evictPlaced (register : Int) (handle : Handle) : Generating Unit := do
  let _ ← onStore (StoreAction.value handle)
  let placed ← onStore (StoreAction.value handle)
  saveOccupant register handle placed
  onStore (StoreAction.release register)

instance evictPlaced_aloof (register : Int) (handle : Handle) :
    Aloof (evictPlaced register handle) := by
  unfold evictPlaced
  infer_instance

/-- What is in a register owns a cell, so none is taken to free the register. -/
theorem run_evict {context : Context} (hBalanced : context.Balanced) (register : Int) :
    (evict register).run.run context =
      (match context.store.occupant? register with
        | none => onStore (StoreAction.release register)
        | some handle => evictPlaced register handle).run.run context := by
  have hGet : ∀ next : Context → Generating Unit,
      (MonadState.get >>= next).run.run context = (next context).run.run context := fun _ => rfl
  rw [evict, hGet]
  cases hOccupant : context.store.occupant? register with
  | none => rfl
  | some handle =>
      simp only [evictPlaced]
      cases hRun : (onStore (StoreAction.value handle)).run.run context with
      | mk result middle =>
          cases result with
          | error fault =>
              simp only [ExceptT.run_bind, StateT.run_bind, hRun]
              rfl
          | ok value =>
              obtain ⟨hLive, rfl⟩ := of_value hRun
              have hHoused := hBalanced.occupants register handle hOccupant
              have hOwns := hHoused.owns _ _
                (Arena.mark?_eq_some_iff.mpr ⟨value, hLive, rfl, rfl⟩)
              rw [run_bind_of_run hRun, run_bind_of_run hRun]
              simp only [← Option.not_isSome, hOwns, Bool.not_true, Bool.false_eq_true, if_false]

instance evict_frugal (register : Int) : Frugal (evict register) where
  sober := by
    intro context fault after hRun hBalanced
    rw [run_evict hBalanced] at hRun
    split at hRun
    · exact Aloof.sober context fault after hRun
    · exact Aloof.sober context fault after hRun
  space := by
    intro context value after hRun hBalanced
    rw [run_evict hBalanced] at hRun
    split at hRun
    · exact Aloof.space context value after hRun
    · exact Aloof.space context value after hRun

class Discreet {α : Type} (action : Generating α) : Prop extends Orderly action, Frugal action

instance (priority := low) discreet_of_holds {α : Type} (action : Generating α)
    [hHolds : Holds @Discreet action] : Discreet action :=
  hHolds.holds

instance discreet_of_aloof {α : Type} (action : Generating α) [Thrifty action] [Aloof action] :
    Holds @Discreet action :=
  ⟨{}⟩

instance discreet_chains : Chains @Discreet where
  pure _ := inferInstance
  get := inferInstance
  bind _ _ := ⟨{}⟩

instance discreet_jumps : Jumps @Discreet where
  emitAll _ := inferInstance

instance discreet_saves : Saves @Discreet where
  notePointer _ := inferInstance
  forgetPointer := inferInstance
  unplaced _ := inferInstance

instance discreet_branches : Branches @Discreet where
  openLabel _ _ := inferInstance
  jump := inferInstance
  jumpIfZero _ := inferInstance
  resolveLabel := inferInstance
  descend := inferInstance
  ascend := inferInstance
  tidyUp := inferInstance

instance discreet_acquires : Acquires @Discreet where
  evict _ := ⟨{}⟩
  held count := by
    have hHeld : Aloof (throw (.registersHeld count) : Generating Int) := .throw rfl
    infer_instance

instance readOperand_frugal (operand : Operand) : Frugal (readOperand operand) := by
  unfold readOperand
  split
  · refine .andThen fun value => ?_
    split
    · infer_instance
    · infer_instance
  · infer_instance

instance storeOperand_frugal (operand : Operand) (register : Int) :
    Frugal (storeOperand operand register) := by
  unfold storeOperand
  split
  · infer_instance
  · refine .andThen fun value => ?_
    split
    · infer_instance
    · infer_instance
  · infer_instance
  · infer_instance

/-! ### Taking loop cells and giving them back -/

open StoreAction (InRun)

private theorem length_of_createScratch {count : Nat} {handles : List Handle}
    {context after : Context}
    (hRun : (createScratch count).run.run context = (.ok handles, after)) :
    handles.length = count := by
  induction count generalizing context handles after with
  | zero =>
      cases hRun
      rfl
  | succ count inductionHypothesis =>
      obtain ⟨handle, middle, -, hRun⟩ := exists_of_run_bind hRun
      obtain ⟨rest, last, hRest, hPure⟩ := exists_of_run_bind hRun
      cases hPure
      rw [List.length_cons, inductionHypothesis hRest]

theorem sameCells_of_space {before after : Context}
    (hSpace : after.store.space = before.store.space) : before.setting.SameCells after.setting := by
  constructor
  · exact congrArg Space.layout hSpace
  · intro address
    exact congrArg (fun space : Space => (space.chunks.get? address).isSome) hSpace

/-- An operation with a way out that only fails fails where the operation does. -/
theorem error_of_tryCatch {α : Type} {action : Generating α}
    {handler : GeneratorFault → Generating α} {context after : Context} {fault : GeneratorFault}
    (hRun : (tryCatch action handler).run.run context = (.error fault, after)) :
    ∃ cause middle, action.run.run context = (.error cause, middle) ∧
      (handler cause).run.run middle = (.error fault, after) := by
  change (ExceptT.tryCatch action handler).run.run context = _ at hRun
  simp only [ExceptT.tryCatch, ExceptT.run_mk, StateT.run_bind] at hRun
  cases hAction : action.run.run context with
  | mk result middle =>
      rw [show StateT.run action context = _ from hAction] at hRun
      cases result with
      | ok found => cases hRun
      | error cause => exact ⟨cause, middle, rfl, hRun⟩

variable {context after : Context} {count : Nat}

/-- The lowest cells in a row are taken. -/
theorem takeScratch_takes (hShort : count < UInt64.size) {cell : Address}
    (hRun : (takeScratch count).run.run context = (.ok cell, after)) :
    context.setting.LowestRun count cell ∧ after.setting.layout = context.setting.layout ∧
      ∀ address, (after.setting.owner address).isSome =
        ((context.setting.owner address).isSome || decide (InRun cell.toNat count address)) := by
  obtain ⟨handles, created, hCreate, hTry⟩ := exists_of_run_bind hRun
  have hTake := of_tryCatch (fun fault => .right fun _ => .throw fault) hTry
  obtain ⟨hGives, -⟩ := of_onStore hTake
  obtain rfl := length_of_createScratch hCreate
  have hSpace := Aloof.space context handles created hCreate
  obtain ⟨hLowest, hLayout, hOwners⟩ := StoreAction.allocateRun_owners hShort hGives
  have hSame := sameCells_of_space hSpace
  refine ⟨hLowest.congr hSame.symm, hLayout.trans hSame.layout, fun address => ?_⟩
  exact (hOwners address).trans (congrArg (· || _) (hSame.owners address))

/-- Cells are refused for want of memory only where there are too few in a row. -/
theorem not_vacant_of_takeScratch (hShort : count < UInt64.size) {fault : GeneratorFault}
    (hRun : (takeScratch count).run.run context = (.error fault, after))
    (hFault : fault.isExhaustion = true) : ¬context.setting.Vacant count := by
  rcases error_of_run_bind hRun with hCreate | ⟨handles, created, hCreate, hTry⟩
  · rw [Aloof.sober context fault after hCreate] at hFault
    cases hFault
  obtain rfl := length_of_createScratch hCreate
  have hSpace := Aloof.space context handles created hCreate
  obtain ⟨cause, middle, hTake, hBack⟩ := error_of_tryCatch hTry
  have hCause : cause.isExhaustion = true := by
    rcases error_of_run_bind hBack with hFree | ⟨_, _, -, hThrow⟩
    · rw [Aloof.sober middle fault after hFree] at hFault
      cases hFault
    · cases hThrow
      exact hFault
  rw [Ensures.run_onStore] at hTake
  cases hResult : (StoreAction.allocateRun .loop handles).run.run created.store with
  | mk outcome store =>
      rw [hResult] at hTake
      cases outcome with
      | ok cell => cases hTake
      | error found =>
          cases hTake
          intro hVacant
          apply StoreAction.not_vacant_of_allocateRun hShort hResult hCause
          exact hVacant.congr (sameCells_of_space hSpace)

structure Returns {α : Type} (action : Generating α) (cell : Address) (count : Nat)
    (context : Context) : Prop where
  sober : ∀ fault after, action.run.run context = (.error fault, after) →
    fault.isExhaustion = false
  layout : ∀ value after, action.run.run context = (.ok value, after) →
    after.setting.layout = context.setting.layout
  owners : ∀ value after, action.run.run context = (.ok value, after) → ∀ address,
    (after.setting.owner address).isSome =
      ((context.setting.owner address).isSome && !decide (InRun cell.toNat count address))

theorem returnScratch_returns {cell : Address} (hFits : cell.toNat + count ≤ UInt64.size)
    (context : Context) : Returns (returnScratch cell count) cell count context := by
  induction count generalizing cell context with
  | zero =>
      constructor
      · intro fault after hRun
        cases hRun
      · intro value after hRun
        cases hRun
        rfl
      · intro value after hRun address
        cases hRun
        have hNone : ¬InRun cell.toNat 0 address := by
          unfold InRun
          omega
        rw [decide_eq_false hNone, Bool.not_false, Bool.and_true]
  | succ count inductionHypothesis =>
      have hNext : 0 < count → (cell + 1).toNat = cell.toNat + 1 := by
        intro hMore
        have hSize : UInt64.size = 2 ^ 64 := rfl
        rw [UInt64.toNat_add, show (1 : UInt64).toNat = 1 from rfl]
        omega
      have hBound : (cell + 1).toNat + count ≤ UInt64.size := by
        cases count with
        | zero => exact Nat.le_of_lt (cell + 1).toNat_lt
        | succ count =>
            rw [hNext (Nat.succ_pos _)]
            omega
      constructor
      · intro fault after hRun
        rcases error_of_run_bind hRun with hFree | ⟨value, middle, -, hRest⟩
        · exact Sober.onStore (StoreAction.freeAt_sober cell) context fault after hFree
        · exact (inductionHypothesis hBound middle).sober fault after hRest
      · intro value after hRun
        obtain ⟨_, middle, hFree, hRest⟩ := exists_of_run_bind hRun
        obtain ⟨hGives, -⟩ := of_onStore hFree
        exact ((inductionHypothesis hBound _).layout value after hRest).trans
          (StoreAction.freeAt_owner hGives).1
      · intro value after hRun address
        obtain ⟨_, middle, hFree, hRest⟩ := exists_of_run_bind hRun
        obtain ⟨hGives, -⟩ := of_onStore hFree
        have hOwner : middle.setting.owner address =
            if address = cell then none else context.setting.owner address :=
          (StoreAction.freeAt_owner hGives).2 address
        rw [(inductionHypothesis hBound _).owners value after hRest address, hOwner]
        by_cases hSame : address = cell
        · have hIn : InRun cell.toNat (count + 1) address := by
            rw [hSame]
            unfold InRun
            omega
          rw [if_pos hSame, decide_eq_true hIn, Bool.not_true, Bool.and_false]
          rfl
        · have hOther : address.toNat ≠ cell.toNat := fun hEqual =>
            hSame (UInt64.toNat_inj.mp hEqual)
          rw [if_neg hSame]
          congr 2
          rw [decide_eq_decide]
          unfold InRun
          cases count with
          | zero => omega
          | succ count =>
              rw [hNext (Nat.succ_pos _)]
              omega

namespace Returns

variable {α β : Type} {cell : Address}

/-- Nothing happens to the memory cells before cells are given back. -/
theorem after_frugal {action : Generating α} {next : α → Generating β} [hOrderly : Orderly action]
    [hFrugal : Frugal action] (hBalanced : context.Balanced)
    (hNext : ∀ value middle, middle.Balanced → Returns (next value) cell count middle) :
    Returns (action >>= next) cell count context := by
  constructor
  · intro fault after hRun
    rcases error_of_run_bind hRun with hFirst | ⟨value, middle, hFirst, hSecond⟩
    · exact hFrugal.sober context fault after hFirst hBalanced
    · have hMiddle := hOrderly.balanced context value middle hFirst hBalanced
      exact (hNext value middle hMiddle).sober fault after hSecond
  · intro result after hRun
    obtain ⟨value, middle, hFirst, hSecond⟩ := exists_of_run_bind hRun
    have hMiddle := hOrderly.balanced context value middle hFirst hBalanced
    have hSame := sameCells_of_space (hFrugal.space context value middle hFirst hBalanced)
    exact ((hNext value middle hMiddle).layout result after hSecond).trans hSame.layout
  · intro result after hRun address
    obtain ⟨value, middle, hFirst, hSecond⟩ := exists_of_run_bind hRun
    have hMiddle := hOrderly.balanced context value middle hFirst hBalanced
    have hSame := sameCells_of_space (hFrugal.space context value middle hFirst hBalanced)
    rw [(hNext value middle hMiddle).owners result after hSecond, hSame.owners]

/-- Nothing happens to the memory cells after cells were given back. -/
theorem before_frugal {action : Generating α} {next : α → Generating β}
    [hOrderly : Orderly action] [hFrugal : ∀ value, Frugal (next value)]
    (hBalanced : context.Balanced) (hAction : Returns action cell count context) :
    Returns (action >>= next) cell count context := by
  constructor
  · intro fault after hRun
    rcases error_of_run_bind hRun with hFirst | ⟨value, middle, hFirst, hSecond⟩
    · exact hAction.sober fault after hFirst
    · have hMiddle := hOrderly.balanced context value middle hFirst hBalanced
      exact (hFrugal value).sober middle fault after hSecond hMiddle
  · intro result after hRun
    obtain ⟨value, middle, hFirst, hSecond⟩ := exists_of_run_bind hRun
    have hMiddle := hOrderly.balanced context value middle hFirst hBalanced
    have hSame := sameCells_of_space ((hFrugal value).space middle result after hSecond hMiddle)
    exact hSame.layout.trans (hAction.layout value middle hFirst)
  · intro result after hRun address
    obtain ⟨value, middle, hFirst, hSecond⟩ := exists_of_run_bind hRun
    have hMiddle := hOrderly.balanced context value middle hFirst hBalanced
    have hSame := sameCells_of_space ((hFrugal value).space middle result after hSecond hMiddle)
    rw [hSame.owners, hAction.owners value middle hFirst]

end Returns

/-! ### Costs -/

/-- A step that takes at most so many loop cells in a row at a time, and gives them back. -/
structure Costs {α : Type} (action : Generating α) (count : Nat) (context : Context) : Prop where
  cells : ∀ value after, action.run.run context = (.ok value, after) →
    context.setting.SameCells after.setting
  needs : ∀ value after, action.run.run context = (.ok value, after) →
    context.setting.Vacant count
  sober : ∀ fault after, action.run.run context = (.error fault, after) →
    fault.isExhaustion = true → ¬context.setting.Vacant count

namespace Costs

variable {α β : Type} {action : Generating α} {next : α → Generating β} {first second : Nat}

theorem of_frugal [hFrugal : Frugal action] (hBalanced : context.Balanced) :
    Costs action 0 context where
  cells := fun value after hRun =>
    sameCells_of_space (hFrugal.space context value after hRun hBalanced)
  needs := fun _ _ _ => Setting.vacant_zero _
  sober := by
    intro fault after hRun hFault
    rw [hFrugal.sober context fault after hRun hBalanced] at hFault
    cases hFault

theorem bind (hAction : Costs action first context)
    (hNext : ∀ value middle, action.run.run context = (.ok value, middle) →
      Costs (next value) second middle) : Costs (action >>= next) (max first second) context := by
  have hMost : context.setting.Vacant (max first second) ↔
      context.setting.Vacant first ∧ context.setting.Vacant second := by
    constructor
    · intro hVacant
      exact ⟨hVacant.mono (Nat.le_max_left _ _), hVacant.mono (Nat.le_max_right _ _)⟩
    · intro hBoth
      cases Nat.le_total first second with
      | inl hLess => rw [Nat.max_eq_right hLess]; exact hBoth.2
      | inr hMore => rw [Nat.max_eq_left hMore]; exact hBoth.1
  constructor
  · intro result after hRun
    obtain ⟨value, middle, hFirst, hSecond⟩ := exists_of_run_bind hRun
    exact (hAction.cells value middle hFirst).trans
      ((hNext value middle hFirst).cells result after hSecond)
  · intro result after hRun
    obtain ⟨value, middle, hFirst, hSecond⟩ := exists_of_run_bind hRun
    have hSame := hAction.cells value middle hFirst
    exact hMost.mpr ⟨hAction.needs value middle hFirst,
      ((hNext value middle hFirst).needs result after hSecond).congr hSame.symm⟩
  · intro fault after hRun hFault hVacant
    obtain ⟨hHere, hThere⟩ := hMost.mp hVacant
    rcases error_of_run_bind hRun with hFirst | ⟨value, middle, hFirst, hSecond⟩
    · exact hAction.sober fault after hFirst hFault hHere
    · exact (hNext value middle hFirst).sober fault after hSecond hFault
        (hThere.congr (hAction.cells value middle hFirst))

/-- Nothing happens to the memory cells before cells are taken. -/
theorem behind_frugal [hOrderly : Orderly action] [Frugal action] (hBalanced : context.Balanced)
    (hNext : ∀ value middle, action.run.run context = (.ok value, middle) → middle.Balanced →
      Costs (next value) count middle) : Costs (action >>= next) count context := by
  have hBoth := (of_frugal hBalanced).bind fun value middle hRun =>
    hNext value middle hRun (hOrderly.balanced context value middle hRun hBalanced)
  rw [Nat.zero_max] at hBoth
  exact hBoth

theorem after_frugal [Orderly action] [Frugal action] (hBalanced : context.Balanced)
    (hNext : ∀ value middle, middle.Balanced → Costs (next value) count middle) :
    Costs (action >>= next) count context :=
  behind_frugal hBalanced fun value middle _ => hNext value middle

theorem before_frugal [hOrderly : Orderly action] [∀ value, Frugal (next value)]
    (hBalanced : context.Balanced) (hAction : Costs action count context) :
    Costs (action >>= next) count context := by
  have hNext : ∀ value middle, action.run.run context = (.ok value, middle) →
      Costs (next value) 0 middle := fun value middle hRun =>
    of_frugal (hOrderly.balanced context value middle hRun hBalanced)
  have hBoth := hAction.bind hNext
  rw [Nat.max_zero] at hBoth
  exact hBoth

theorem before_aloof [hAloof : ∀ value, Aloof (next value)] (hAction : Costs action count context) :
    Costs (action >>= next) count context := by
  have hNext : ∀ value middle, action.run.run context = (.ok value, middle) →
      Costs (next value) 0 middle := by
    intro value middle _
    constructor
    · exact fun result after hRun =>
        sameCells_of_space ((hAloof value).space middle result after hRun)
    · exact fun _ _ _ => Setting.vacant_zero _
    · intro fault after hRun hFault
      rw [(hAloof value).sober middle fault after hRun] at hFault
      cases hFault
  have hBoth := hAction.bind hNext
  rw [Nat.max_zero] at hBoth
  exact hBoth

/-- Cells that are taken are given back. -/
theorem bracket {next : Address → Generating β} (hShort : count < UInt64.size)
    (hBalanced : context.Balanced)
    (hNext : ∀ cell middle, cell.toNat + count ≤ UInt64.size → middle.Balanced →
      Returns (next cell) cell count middle) :
    Costs (takeScratch count >>= next) count context := by
  have hTakes := fun (cell : Address) middle
      (hTake : (takeScratch count).run.run context = (.ok cell, middle)) => by
    have hMiddle := Orderly.balanced context cell middle hTake hBalanced
    obtain ⟨hLowest, hLayout, hOwners⟩ := takeScratch_takes hShort hTake
    have hFits : cell.toNat + count ≤ UInt64.size := by
      have hLast := hLowest.run.last
      have hEnd := context.setting.layout.loop.last.toNat_lt
      have hSize : UInt64.size = 2 ^ 64 := rfl
      omega
    exact And.intro hLowest (And.intro hLayout (And.intro hOwners (hNext cell middle hFits hMiddle)))
  constructor
  · intro result after hRun
    obtain ⟨cell, middle, hTake, hRest⟩ := exists_of_run_bind hRun
    obtain ⟨hLowest, hLayout, hOwners, hReturns⟩ := hTakes cell middle hTake
    constructor
    · exact (hReturns.layout result after hRest).trans hLayout
    · intro address
      rw [hReturns.owners result after hRest, hOwners]
      by_cases hIn : InRun cell.toNat count address
      · have hFree := hLowest.run.free address hIn.1 hIn.2
        rw [hFree, decide_eq_true hIn]
        rfl
      · rw [decide_eq_false hIn, Bool.or_false, Bool.not_false, Bool.and_true]
  · intro result after hRun
    obtain ⟨cell, middle, hTake, -⟩ := exists_of_run_bind hRun
    exact fun _ => ⟨cell.toNat, (hTakes cell middle hTake).1.run⟩
  · intro fault after hRun hFault
    rcases error_of_run_bind hRun with hTake | ⟨cell, middle, hTake, hRest⟩
    · exact not_vacant_of_takeScratch hShort hTake hFault
    · rw [(hTakes cell middle hTake).2.2.2.sober fault after hRest] at hFault
      cases hFault

end Costs

end Generating

end RegisterCompiler
