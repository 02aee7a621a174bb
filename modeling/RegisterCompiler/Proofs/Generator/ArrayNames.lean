/-
Array names in code generation.

Once the arrays are declared, no step of code generation describes another one or renames one.
An element that does not exist is complained about in the name its array was declared with.
-/

import RegisterCompiler.Proofs.Generator.Placements
import RegisterCompiler.Proofs.Generator.Refusals
import RegisterCompiler.Proofs.Store.ArrayNames

set_option autoImplicit false

namespace RegisterCompiler

namespace Generating

/-- A fault that, if it is about the bounds of an array, names one of some arrays or none. -/
def LabelsOneOf (names : List String) (fault : GeneratorFault) : Prop :=
  ∀ position index name length, fault = .misuse ⟨position, .indexOutOfRange index name length⟩ →
    name ∈ names ∨ name = ""

/-- A step that leaves the names of the arrays alone, and complains about bounds only in the
name of an array. -/
class Faithful {α : Type} (action : Generating α) : Prop where
  arrayNames : ∀ context : Context,
    (action.run.run context).2.store.arena.arrayNames = context.store.arena.arrayNames
  labels : ∀ (context : Context) fault, (action.run.run context).1 = .error fault →
    LabelsOneOf context.store.arena.arrayNames fault

namespace Faithful

variable {α β : Type}

instance pure (value : α) : Faithful (pure value : Generating α) where
  arrayNames := fun _ => rfl
  labels := fun _ _ hFault => by cases hFault

instance get : Faithful (MonadState.get : Generating Context) where
  arrayNames := fun _ => rfl
  labels := fun _ _ hFault => by cases hFault

instance bind (action : Generating β) (next : β → Generating α) [hAction : Faithful action]
    [hNext : ∀ value, Faithful (next value)] : Faithful (action >>= next) where
  arrayNames := by
    intro context
    have hFirst := hAction.arrayNames context
    simp only [ExceptT.run_bind, StateT.run_bind]
    cases hRun : action.run.run context with
    | mk result middle =>
        rw [hRun] at hFirst
        cases result with
        | ok value => exact ((hNext value).arrayNames middle).trans hFirst
        | error fault => exact hFirst
  labels := by
    intro context fault hFault
    have hFirst := hAction.arrayNames context
    have hLabels := hAction.labels context
    simp only [ExceptT.run_bind, StateT.run_bind] at hFault
    cases hRun : action.run.run context with
    | mk result middle =>
        rw [hRun] at hFault hFirst hLabels
        cases result with
        | ok value =>
            rw [← hFirst]
            exact (hNext value).labels middle fault hFault
        | error found =>
            cases hFault
            exact hLabels fault rfl

private theorem andThen {action : Generating β} {next : β → Generating α} [Faithful action]
    (hNext : ∀ value, Faithful (next value)) : Faithful (action >>= next) :=
  inferInstance

instance ite (condition : Prop) [Decidable condition] (first second : Generating α)
    [Faithful first] [Faithful second] : Faithful (if condition then first else second) := by
  split <;> infer_instance

private theorem modify {change : Context → Context}
    (hChange : ∀ context, (change context).store.arena.arrayNames = context.store.arena.arrayNames) :
    Faithful (modify change : Generating Unit) where
  arrayNames := hChange
  labels := fun _ _ hFault => by cases hFault

private theorem throw {fault : GeneratorFault} (hFault : ∀ complaint, fault ≠ .misuse complaint) :
    Faithful (throw fault : Generating α) where
  arrayNames := fun _ => rfl
  labels := by
    intro _ _ hSame position index name length hIndex
    cases hSame
    exact absurd hIndex (hFault _)

instance throwStore (fault : StoreFault) :
    Faithful (MonadExcept.throw (.store fault) : Generating α) :=
  throw nofun

instance refuse (position : Source.Position) (misuse : Misuse) [hMisuse : Misuse.Boundless misuse] :
    Faithful (Generating.refuse position misuse : Generating α) where
  arrayNames := fun _ => rfl
  labels := by
    intro _ _ hSame place index name length hIndex
    cases hSame
    cases hIndex
    exact absurd rfl (hMisuse.noIndex index name length)

instance onStore (action : StoreAction α) [hAction : StoreAction.Faithful action] :
    Faithful (onStore action) where
  arrayNames := by
    intro context
    rw [Ensures.run_onStore]
    exact hAction.arrayNames context.store
  labels := by
    intro context fault hFault
    rw [Ensures.run_onStore] at hFault
    cases hResult : (action.run.run context.store).1 with
    | ok value => rw [hResult] at hFault; cases hFault
    | error cause =>
        rw [hResult] at hFault
        cases hFault
        exact fun _ _ _ _ hIndex => by cases hIndex

instance placing (name : String) (action : StoreAction α) [hAction : StoreAction.Faithful action] :
    Faithful (placing name action) where
  arrayNames := by
    intro context
    rw [Ensures.run_placing]
    exact hAction.arrayNames context.store
  labels := by
    intro context fault hFault
    rw [Ensures.run_placing] at hFault
    cases hResult : (action.run.run context.store).1 with
    | ok value => rw [hResult] at hFault; cases hFault
    | error cause =>
        rw [hResult] at hFault
        cases hFault
        exact fun _ _ _ _ hIndex => by cases hIndex

private theorem tryStore {action : StoreAction α} {handler : GeneratorFault → Generating α}
    [hAction : StoreAction.Faithful action]
    (hHandler : ∀ fault, Faithful (handler (.store fault))) :
    Faithful (tryCatch (Generating.onStore action) handler) := by
  have hRun : ∀ context : Context, (tryCatch (Generating.onStore action) handler).run.run context =
      match action.run.run context.store with
      | (.ok value, store) => (.ok value, { context with store := store })
      | (.error fault, store) =>
          (handler (.store fault)).run.run { context with store := store } := by
    intro context
    change (ExceptT.tryCatch (Generating.onStore action) handler).run.run context = _
    simp only [ExceptT.tryCatch, ExceptT.run_mk, StateT.run_bind]
    rw [show StateT.run (Generating.onStore action) context = _ from
      Ensures.run_onStore action context]
    cases action.run.run context.store with
    | mk result store =>
        cases result with
        | ok value => rfl
        | error fault => rfl
  constructor
  · intro context
    have hFirst := hAction.arrayNames context.store
    rw [hRun]
    cases hResult : action.run.run context.store with
    | mk result store =>
        rw [hResult] at hFirst
        cases result with
        | ok value => exact hFirst
        | error fault => exact ((hHandler fault).arrayNames _).trans hFirst
  · intro context fault hFault
    have hFirst := hAction.arrayNames context.store
    rw [hRun] at hFault
    cases hResult : action.run.run context.store with
    | mk result store =>
        rw [hResult] at hFault hFirst
        cases result with
        | ok value => cases hFault
        | error cause =>
            rw [← hFirst]
            exact (hHandler cause).labels _ fault hFault

end Faithful

instance (priority := low) faithful_of_holds {α : Type} (action : Generating α)
    [hHolds : Holds @Faithful action] : Faithful action :=
  hHolds.holds

instance faithful_chains : Chains @Faithful where
  pure _ := ⟨inferInstance⟩
  get := ⟨inferInstance⟩
  bind _ _ := ⟨inferInstance⟩

instance onStore_faithful {α : Type} (action : StoreAction α) [StoreAction.Faithful action] :
    Holds @Faithful (onStore action) :=
  ⟨inferInstance⟩

/-! ### Code -/

instance faithful_jumps : Jumps @Faithful where
  emitAll _ := ⟨.modify fun _ => rfl⟩

instance faithful_saves : Saves @Faithful where
  notePointer _ := ⟨.modify fun _ => rfl⟩
  forgetPointer := ⟨.modify fun _ => rfl⟩
  unplaced _ := ⟨.throw nofun⟩

instance resolveLabel_faithful : Faithful resolveLabel where
  arrayNames := by
    intro context
    obtain ⟨result, labels, listing, hRun, -, -⟩ := run_resolveLabel context
    rw [hRun]
  labels := by
    intro context fault hFault position index name length hIndex
    obtain ⟨result, labels, listing, hRun, -, hOther⟩ := run_resolveLabel context
    rw [hRun, hIndex] at hFault
    exact absurd hFault (hOther _)

instance faithful_tidies : Tidies @Faithful where
  drop := ⟨.modify fun _ => rfl⟩

instance faithful_branches : Branches @Faithful where
  openLabel _ _ := ⟨.modify fun _ => rfl⟩
  jump := ⟨.modify fun _ => rfl⟩
  jumpIfZero _ := ⟨.modify fun _ => rfl⟩
  resolveLabel := ⟨inferInstance⟩
  descend := ⟨.modify fun _ => rfl⟩
  ascend := ⟨.modify fun _ => rfl⟩
  tidyUp := tidyUp_holds

/-! ### Registers and cells -/

instance faithful_caches : Caches @Faithful where
  evict := evict_holds
  held _ := ⟨.throw nofun⟩

instance takeScratch_faithful (count : Nat) : Faithful (takeScratch count) := by
  unfold takeScratch
  exact .andThen fun handles => .tryStore fun fault => inferInstance

instance freeLoopCells_faithful : Faithful freeLoopCells where
  arrayNames := by
    intro context
    have hFreed := StoreAction.arrayNames_freeLoopCells context.store
    have hRun : ∀ next : Context → Generating Unit,
        (MonadState.get >>= next).run.run context = (next context).run.run context := fun _ => rfl
    rw [freeLoopCells, hRun]
    rcases hStore : StoreAction.freeLoopCells.run context.store with ⟨⟨count, fault⟩, store⟩
    rw [hStore] at hFreed
    cases fault with
    | none => exact hFreed
    | some fault => exact hFreed
  labels := by
    intro context fault hFault position index name length hIndex
    rw [hIndex] at hFault
    cases (@freeLoopCells_routine false).faults context _ hFault

instance faithful_borrows : Borrows @Faithful where
  leave := ⟨.modify fun _ => rfl⟩
  freeLoopCells := ⟨inferInstance⟩
  takeScratch _ := ⟨inferInstance⟩

/-! ### Names and commands -/

instance resolveElement_faithful (position : Source.Position) (ref : ArrayRef) (offset : Nat) :
    Faithful (resolveElement position ref offset) := by
  have hRun : ∀ (context : Context) (next : Context → Generating Operand),
      (MonadState.get >>= next).run.run context = (next context).run.run context := fun _ _ => rfl
  have hFind : ∀ context : Context, Faithful (do
      let _ ← onStore (StoreAction.element ref offset)
      return .element ((context.store.arena.array ref).base.getD 0 + offset) :
      Generating Operand) := fun _ => inferInstance
  unfold resolveElement
  constructor
  · intro context
    rw [hRun]
    by_cases hRange : (context.store.arena.array ref).inRange offset = true
    · simp only [hRange, if_true]
      exact (hFind context).arrayNames context
    · simp only [hRange]
      rfl
  · intro context fault hFault
    rw [hRun] at hFault
    by_cases hRange : (context.store.arena.array ref).inRange offset = true
    · simp only [hRange, if_true] at hFault
      exact (hFind context).labels context fault hFault
    · simp only [hRange] at hFault
      cases hFault
      intro _ _ _ _ hIndex
      cases hIndex
      exact context.store.arena.name_array ref

instance placeIterator_faithful (handle : Handle) : Faithful (placeIterator handle) := by
  unfold placeIterator
  exact .tryStore fun fault => inferInstance

instance faithful_commands : Commands @Faithful where
  refuse _ _ := ⟨inferInstance⟩
  resolveElement _ _ _ := ⟨inferInstance⟩
  enter _ := ⟨.modify fun _ => rfl⟩
  placeIterator _ := ⟨inferInstance⟩
  deepen := ⟨.modify fun _ => rfl⟩

/-! ### Declarations -/

variable {context after : Context}

instance declareScalar_faithful (name : String) : Faithful (declareScalar name) := by
  have hNote : ∀ placement, Faithful (modify fun context : Context =>
      { context with placements := context.placements.push placement } : Generating Unit) :=
    fun _ => .modify fun _ => rfl
  unfold declareScalar
  infer_instance

private theorem arrayNames_declareArray (name : String) (length : Nat) (context : Context) :
    ((declareArray name length).run.run context).2.store.arena.arrayNames =
      context.store.arena.arrayNames ++ [name] := by
  have hNote : ∀ placement, Faithful (modify fun context : Context =>
      { context with placements := context.placements.push placement } : Generating Unit) :=
    fun _ => .modify fun _ => rfl
  have hCreate : (onStore (StoreAction.createArray name length)).run.run context =
      (.ok context.store.arena.arrays.size, { context with
        store := { context.store with
          arena := (context.store.arena.createArray name length).2 } }) := rfl
  rw [← Arena.arrayNames_createArray]
  unfold declareArray
  rw [run_bind_of_run hCreate]
  refine Faithful.arrayNames _

private theorem mem_arrayNames_declareName {declaration : Declaration} {label : String}
    (hRun : (declareName declaration).run.run context = (.ok (), after))
    (hLabel : label ∈ after.store.arena.arrayNames) :
    label ∈ context.store.arena.arrayNames ∨ label = declaration.name := by
  rcases declareName_cases hRun with ⟨-, hScalar⟩ | ⟨length, -, -, hArray⟩
  · have hNames := (declareScalar_faithful declaration.name).arrayNames context
    rw [hScalar] at hNames
    exact .inl (hNames ▸ hLabel)
  · have hNames := arrayNames_declareArray declaration.name length context
    rw [hArray] at hNames
    rw [hNames, List.mem_append, List.mem_singleton] at hLabel
    exact hLabel

private theorem mem_arrayNames_declareAll {declarations : List Declaration} {label : String}
    (hRun : (declareAll declarations).run.run context = (.ok (), after))
    (hLabel : label ∈ after.store.arena.arrayNames) :
    label ∈ context.store.arena.arrayNames ∨ label ∈ declarations.map Declaration.name := by
  induction declarations generalizing context with
  | nil =>
      cases hRun
      exact .inl hLabel
  | cons declaration rest inductionHypothesis =>
      rw [declareAll] at hRun
      obtain ⟨_, named, hFirst, hRest⟩ := exists_of_run_bind hRun
      rw [List.map_cons]
      rcases inductionHypothesis hRest with hNamed | hLater
      · rcases mem_arrayNames_declareName hFirst hNamed with hOld | rfl
        · exact .inl hOld
        · exact .inr List.mem_cons_self
      · exact .inr (List.mem_cons_of_mem _ hLater)

end Generating

namespace Context

/-- An index beyond its array is complained about in the name of a declaration. -/
theorem label_of_generate {options : GeneratorOptions} {program : Program} {opened : Context}
    (hDeclare : (Generating.declareAll program.declarations).run.run (empty options) =
      (.ok (), opened)) {position : Source.Position} {index : Nat} {label : String} {length : Int}
    (hFault : ((empty options).generate program).1 =
      .error (.misuse ⟨position, .indexOutOfRange index label length⟩)) :
    label ∈ program.declarations.map Declaration.name ∨ label = "" := by
  have hBehind : ∀ found, (if List.length (Context.labels found) ≠ 0 then
      throw (.labelsOpen (List.length found.labels)) else Pure.pure () : Generating Unit).Faithful := by
    intro found
    split
    · exact .throw nofun
    · infer_instance
  unfold generate at hFault
  rw [Generating.compileProgram, Generating.run_bind_of_run hDeclare] at hFault
  rcases Generating.Faithful.labels _ _ hFault _ _ _ _ rfl with hOpened | hEmpty
  · rcases Generating.mem_arrayNames_declareAll hDeclare hOpened with hNone | hDeclared
    · cases hNone
    · exact .inl hDeclared
  · exact .inr hEmpty

end Context
end RegisterCompiler
