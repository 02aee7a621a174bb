/-
Steps that keep the books.

Most steps of code generation gain no element of an array.  What they create takes a cell at
once, what they destroy owned a cell or belonged to the command, and what they cache in a
register owns a cell.
-/

import RegisterCompiler.Proofs.Generator.Ledger
import RegisterCompiler.Proofs.Generator.Placements
import RegisterCompiler.Proofs.Generator.Routine

set_option autoImplicit false

namespace RegisterCompiler

open Context (Books)

/-- A change of what is known about a value is no change of what it is. -/
theorem Value.mark_learn (known : Value) (text : String) :
    (((known.setCurrent none).extendExpression text).markSymbolic).payload.mark =
        known.payload.mark ∧
      (((known.setCurrent none).extendExpression text).markSymbolic).chunk = known.chunk := by
  obtain ⟨hFirst, hFirstChunk⟩ := known.mark_mapPlain fun scalar => { scalar with current := none }
  obtain ⟨hSecond, hSecondChunk⟩ := (known.setCurrent none).mark_mapPlain fun scalar =>
    { scalar with expression := scalar.expression ++ text }
  obtain ⟨hThird, hThirdChunk⟩ := ((known.setCurrent none).extendExpression text).mark_mapPlain
    fun scalar => { scalar with symbolic := true }
  exact ⟨hThird.trans (hSecond.trans hFirst), hThirdChunk.trans (hSecondChunk.trans hFirstChunk)⟩

namespace Generating

/-- A step that keeps the books and gains nothing. -/
class Thrifty {α : Type} (action : Generating α) : Prop where
  books : ∀ context value after, action.run.run context = (.ok value, after) →
    context.Balanced → Books ∅ context after

namespace Thrifty

variable {α β : Type}

instance pure (value : α) : Thrifty (pure value : Generating α) where
  books := by
    intro context found after hRun hBalanced
    cases hRun
    exact .still hBalanced rfl rfl

instance get : Thrifty (MonadState.get : Generating Context) where
  books := by
    intro context found after hRun hBalanced
    cases hRun
    exact .still hBalanced rfl rfl

instance throw (fault : GeneratorFault) : Thrifty (throw fault : Generating α) where
  books := fun _ _ _ hRun => by cases hRun

instance bind (action : Generating β) (next : β → Generating α) [hAction : Thrifty action]
    [hNext : ∀ value, Thrifty (next value)] : Thrifty (action >>= next) where
  books := by
    intro context result after hRun hBalanced
    obtain ⟨value, middle, hFirst, hSecond⟩ := exists_of_run_bind hRun
    have hMiddle := hAction.books context value middle hFirst hBalanced
    have hAfter := (hNext value).books middle result after hSecond hMiddle.balanced
    exact (hMiddle.trans hAfter).congr (Set.union_empty ∅)

theorem modify {change : Context → Context}
    (hStore : ∀ context, (change context).store = context.store)
    (hDynamics : ∀ context, (change context).dynamics = context.dynamics) :
    Thrifty (modify change : Generating Unit) where
  books := by
    intro context found after hRun hBalanced
    cases hRun
    exact .still hBalanced (hStore context) (hDynamics context)

instance onStore (action : StoreAction α) [hSteady : StoreAction.Steady action] :
    Thrifty (onStore action) where
  books := by
    intro context value after hRun hBalanced
    obtain ⟨hGives, hAfter⟩ := of_onStore hRun
    rw [hAfter]
    exact .onStore hBalanced (hSteady.keeps _ _ _ hGives hBalanced.wellFormed)

end Thrifty

section Sequences

variable {α β : Type} {action : Generating β} {next : β → Generating α} {context after : Context}
  {result : α} {gain : Set (ArrayRef × Int)}

/-- Behind a thrifty step the rest gains all that is gained. -/
theorem books_of_rest [hAction : Thrifty action] (hBalanced : context.Balanced)
    (hRun : (action >>= next).run.run context = (.ok result, after))
    (hNext : ∀ value middle, action.run.run context = (.ok value, middle) → middle.Balanced →
      (next value).run.run middle = (.ok result, after) → Books gain middle after) :
    Books gain context after := by
  obtain ⟨value, middle, hFirst, hSecond⟩ := exists_of_run_bind hRun
  have hMiddle := hAction.books context value middle hFirst hBalanced
  have hAfter := hNext value middle hFirst hMiddle.balanced hSecond
  exact (hMiddle.trans hAfter).congr (Set.empty_union gain)

/-- In front of a thrifty rest a step gains all that is gained. -/
theorem books_of_first [hNext : ∀ value, Thrifty (next value)]
    (hRun : (action >>= next).run.run context = (.ok result, after))
    (hAction : ∀ value middle, action.run.run context = (.ok value, middle) →
      Books gain context middle) : Books gain context after := by
  obtain ⟨value, middle, hFirst, hSecond⟩ := exists_of_run_bind hRun
  have hMiddle := hAction value middle hFirst
  have hAfter := (hNext value).books middle result after hSecond hMiddle.balanced
  exact (hMiddle.trans hAfter).congr (Set.union_empty gain)

end Sequences

instance (priority := low) thrifty_of_holds {α : Type} (action : Generating α)
    [hHolds : Holds @Thrifty action] : Thrifty action :=
  hHolds.holds

instance thrifty_chains : Chains @Thrifty where
  pure _ := ⟨inferInstance⟩
  get := ⟨inferInstance⟩
  bind _ _ := ⟨inferInstance⟩

/-! ### Code -/

instance thrifty_jumps : Jumps @Thrifty where
  emitAll _ := ⟨.modify (fun _ => rfl) fun _ => rfl⟩

instance onStore_thrifty {α : Type} (action : StoreAction α) [StoreAction.Steady action] :
    Holds @Thrifty (onStore action) :=
  ⟨inferInstance⟩

instance thrifty_saves : Saves @Thrifty where
  notePointer _ := ⟨.modify (fun _ => rfl) fun _ => rfl⟩
  forgetPointer := ⟨.modify (fun _ => rfl) fun _ => rfl⟩
  know handle _ :=
    ⟨@Thrifty.onStore _ _ (StoreAction.change_steady handle fun found => found.mark_mapPlain _)⟩
  express handle text :=
    ⟨@Thrifty.onStore _ _ (StoreAction.change_steady handle fun known => known.mark_learn text)⟩
  unplaced _ := ⟨inferInstance⟩

instance resolveLabel_thrifty : Thrifty resolveLabel where
  books := by
    intro context value after hRun hBalanced
    obtain ⟨result, labels, listing, hResolve, -⟩ := run_resolveLabel context
    rw [hResolve] at hRun
    cases hRun
    exact .still hBalanced rfl rfl

/-! ### Registers -/

theorem of_value {handle : Handle} {value : Value} {context after : Context}
    (hRun : (onStore (StoreAction.value handle)).run.run context = (.ok value, after)) :
    context.store.arena.get? handle = some value ∧ after = context := by
  obtain ⟨hGives, hAfter⟩ := of_onStore hRun
  have hRead := hGives.of_get_bind
  cases hLive : context.store.arena.get? handle with
  | none => rw [hLive] at hRead; cases hRead
  | some found =>
      rw [hLive] at hRead
      obtain ⟨rfl, hStore⟩ := (StoreAction.Gives.pure found context.store).unique hRead
      rw [hAfter, ← hStore]
      exact ⟨rfl, rfl⟩

instance evict_thrifty (register : Int) : Thrifty (evict register) where
  books := by
    intro context result after hRun hBalanced
    have hRun := of_get_bind hRun
    cases hOccupant : context.store.occupant? register with
    | none =>
        rw [hOccupant] at hRun
        exact Thrifty.books context result after hRun hBalanced
    | some handle =>
        rw [hOccupant] at hRun
        obtain ⟨value, middle, hValue, hRest⟩ := exists_of_run_bind hRun
        obtain ⟨hLive, rfl⟩ := of_value hValue
        have hHoused := hBalanced.occupants register handle hOccupant
        have hOwns := hHoused.owns _ _ (Arena.mark?_eq_some_iff.mpr ⟨value, hLive, rfl, rfl⟩)
        simp only [← Option.not_isSome, hOwns, Bool.not_true, Bool.false_eq_true, if_false] at hRest
        exact Thrifty.books _ _ _ hRest hBalanced

/-! ### Values that come and go -/

/-- Values are destroyed one after the other, and no others. -/
theorem freeAll_keeps {handles : List Handle} {context after : Context}
    (hWell : context.store.arena.WellFormed)
    (hBorn : ∀ handle ∈ handles, context.store.arena.Born handle)
    (hRun : (freeAll handles).run.run context = (.ok (), after)) :
    context.store.Keeps (· ∈ handles) after.store ∧ after.dynamics = context.dynamics ∧
      ∀ handle ∈ handles, after.store.arena.mark? handle = none := by
  induction handles generalizing context with
  | nil =>
      cases hRun
      exact ⟨.refl hWell, rfl, nofun⟩
  | cons handle rest inductionHypothesis =>
      obtain ⟨_, middle, hFree, hRest⟩ := exists_of_run_bind hRun
      obtain ⟨hGives, hMiddle⟩ := of_onStore hFree
      obtain ⟨hFirst, hGone⟩ := StoreAction.free_keeps hWell hGives
      obtain ⟨hKeeps, hDynamics, hNone⟩ := inductionHypothesis hFirst.wellFormed
        (fun other hOther => hFirst.born other (hBorn other (List.mem_cons_of_mem handle hOther)))
        hRest
      have hLast : after.store.arena.mark? handle = none := by
        cases hKeeps.old handle (hFirst.born handle (hBorn handle List.mem_cons_self)) with
        | inl hSame => rw [hSame, hGone]
        | inr hDead => exact hDead.1
      have hFirst : context.store.Keeps (· ∈ handle :: rest) middle.store :=
        hFirst.mono fun other hSame => List.mem_cons.mpr (.inl hSame)
      constructor
      · exact hFirst.trans (hKeeps.mono fun _ => List.mem_cons_of_mem handle)
      · exact ⟨by rw [hDynamics, hMiddle], List.forall_mem_cons.mpr ⟨hLast, hNone⟩⟩

theorem tidyUp_books {context after : Context} (hBalanced : context.Balanced)
    (hRun : tidyUp.run.run context = (.ok (), after)) :
    Books ∅ context after ∧ after.dynamics = [] := by
  obtain ⟨_, tidied, hTidy, hRun⟩ := exists_of_run_bind (of_get_bind hRun)
  have hRun := of_get_bind hRun
  obtain ⟨_, freed, hFree, hNote⟩ := exists_of_run_bind hRun
  cases hNote
  have hTidied := Thrifty.books _ _ _ hTidy hBalanced
  have hDynamics := hTidied.balanced.dynamics
  obtain ⟨hKeeps, -, hNone⟩ := freeAll_keeps hTidied.balanced.wellFormed
    (fun handle hHandle => (hDynamics handle hHandle).1) hFree
  have hFreed : Books ∅ tidied { freed with dynamics := [] } :=
    .of_keeps hTidied.balanced hKeeps (fun _ => .inr) (.inr ⟨rfl, hNone⟩)
  exact ⟨(hTidied.trans hFreed).congr (Set.union_empty ∅), rfl⟩

instance tidyUp_thrifty : Thrifty tidyUp where
  books := fun _ _ _ hRun hBalanced => (tidyUp_books hBalanced hRun).1

private theorem createScratch_spawns {count : Nat} {handles : List Handle} {context after : Context}
    (hWell : context.store.arena.WellFormed)
    (hRun : (createScratch count).run.run context = (.ok handles, after)) :
    context.store.Spawns handles after.store ∧ after.dynamics = context.dynamics := by
  induction count generalizing context handles with
  | zero =>
      cases hRun
      exact ⟨.nil hWell, rfl⟩
  | succ count inductionHypothesis =>
      obtain ⟨handle, middle, hCreate, hRun⟩ := exists_of_run_bind hRun
      obtain ⟨rest, last, hRest, hPure⟩ := exists_of_run_bind hRun
      cases hPure
      obtain ⟨hGives, hMiddle⟩ := of_onStore hCreate
      obtain ⟨hCreates, hArrays⟩ := StoreAction.create_creates hWell hGives
      obtain ⟨hSpawns, hDynamics⟩ := inductionHypothesis hCreates.wellFormed hRest
      exact ⟨.cons hCreates hArrays hSpawns, hDynamics.trans (by rw [hMiddle])⟩

/-- New values that take cells at once keep the books. -/
theorem books_of_houses {handles : List Handle} {context created after : Context}
    (hBalanced : context.Balanced) (hSpawns : context.store.Spawns handles created.store)
    (hHouses : created.store.Houses handles after.store)
    (hDynamics : after.dynamics = context.dynamics) : Books ∅ context after :=
  have hKeeps : context.store.Keeps (fun _ => False) after.store := hHouses.keeps hSpawns
  .of_keeps hBalanced hKeeps (fun _ hNone => hNone.elim) (.inl hDynamics)

/-- A way out that never succeeds is not taken by a step that does. -/
theorem of_tryCatch {α : Type} {action : Generating α} {handler : GeneratorFault → Generating α}
    {context after : Context} {value : α} (hHandler : ∀ fault, Fails (handler fault))
    (hRun : (tryCatch action handler).run.run context = (.ok value, after)) :
    action.run.run context = (.ok value, after) := by
  change (ExceptT.tryCatch action handler).run.run context = _ at hRun
  simp only [ExceptT.tryCatch, ExceptT.run_mk, StateT.run_bind] at hRun
  cases hAction : action.run.run context with
  | mk result middle =>
      rw [show StateT.run action context = _ from hAction] at hRun
      cases result with
      | ok found => exact hRun
      | error fault => exact absurd hRun (hHandler fault middle value after)

theorem Fails.throw {α : Type} (fault : GeneratorFault) : Fails (throw fault : Generating α) :=
  fun _ _ _ hRun => by cases hRun

instance takeScratch_thrifty (count : Nat) : Thrifty (takeScratch count) where
  books := by
    intro context address after hRun hBalanced
    obtain ⟨handles, created, hCreate, hTry⟩ := exists_of_run_bind hRun
    have hTake := of_tryCatch (fun fault => .right fun _ => .throw fault) hTry
    obtain ⟨hGives, hAfter⟩ := of_onStore hTake
    obtain ⟨hSpawns, hDynamics⟩ := createScratch_spawns hBalanced.wellFormed hCreate
    apply books_of_houses hBalanced hSpawns
    · exact StoreAction.allocateRun_houses hSpawns.wellFormed hGives
    · rw [hAfter]
      exact hDynamics

instance freeAt_thrifty (address : Address) : Thrifty (onStore (StoreAction.freeAt address)) where
  books := by
    intro context value after hRun hBalanced
    obtain ⟨hGives, hAfter⟩ := of_onStore hRun
    obtain ⟨handle, hOwner, hKeeps⟩ := StoreAction.freeAt_keeps hBalanced.wellFormed hGives
    apply Books.of_keeps hBalanced hKeeps
    · rintro other rfl
      exact .inl (hBalanced.owners address other hOwner)
    · rw [hAfter]
      exact .inl rfl

/-- Cells are given back one after the other. -/
theorem freeCells_books {context : Context} (hBalanced : context.Balanced)
    {addresses : List Address} {done count : Nat} {store : Store}
    (hRun : (StoreAction.freeCells done addresses).run context.store = ((count, none), store)) :
    Books ∅ context { context with store := store } := by
  induction addresses generalizing context done with
  | nil =>
      cases hRun
      exact .still hBalanced rfl rfl
  | cons address rest inductionHypothesis =>
      rw [StoreAction.freeCells, StateT.run_bind] at hRun
      cases hFree : (StoreAction.freeAt address).run.run context.store with
      | mk result middle =>
          rw [hFree] at hRun
          cases result with
          | error fault => cases hRun
          | ok value =>
              have hFirst : Books ∅ context { context with store := middle } := by
                apply (freeAt_thrifty address).books context value _ _ hBalanced
                rw [Ensures.run_onStore, hFree]
                rfl
              have hRest := inductionHypothesis hFirst.balanced hRun
              exact (hFirst.trans hRest).congr (Set.union_empty ∅)

instance freeLoopCells_thrifty : Thrifty freeLoopCells where
  books := by
    intro context result after hRun hBalanced
    have hRun := of_get_bind hRun
    cases hFree : StoreAction.freeLoopCells.run context.store with
    | mk outcome store =>
        obtain ⟨count, fault⟩ := outcome
        simp only [hFree] at hRun
        obtain ⟨_, middle, hNote, hRun⟩ := exists_of_run_bind hRun
        cases hNote
        cases fault with
        | some cause => cases hRun
        | none =>
            cases hRun
            exact freeCells_books hBalanced hFree

instance thrifty_branches : Branches @Thrifty where
  openLabel _ _ := ⟨.modify (fun _ => rfl) fun _ => rfl⟩
  jump := ⟨.modify (fun _ => rfl) fun _ => rfl⟩
  jumpIfZero _ := ⟨.modify (fun _ => rfl) fun _ => rfl⟩
  resolveLabel := ⟨inferInstance⟩
  descend := ⟨.modify (fun _ => rfl) fun _ => rfl⟩
  ascend := ⟨.modify (fun _ => rfl) fun _ => rfl⟩
  tidyUp := ⟨inferInstance⟩

instance thrifty_borrows : Borrows @Thrifty where
  evict _ := ⟨inferInstance⟩
  held _ := ⟨inferInstance⟩
  freeAt _ := ⟨inferInstance⟩
  leave := ⟨.modify (fun _ => rfl) fun _ => rfl⟩
  freeLoopCells := ⟨inferInstance⟩
  takeScratch _ := ⟨inferInstance⟩

end Generating

end RegisterCompiler
