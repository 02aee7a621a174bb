/-
Steps that only write code.

Every step of code generation lets the listing grow, keeps the states in which lines were
added, and records the state before the first line it adds.  Only steps that look up names
may complain about a name; the others fail for other reasons.
-/

import RegisterCompiler.Proofs.Generator.Composition
import RegisterCompiler.Proofs.Generator.Declarations

set_option autoImplicit false

namespace RegisterCompiler

/-- A line has one state on record at most, and none before it is written. -/
structure Context.Recorded (context : Context) : Prop where
  below : ∀ emission, context.emissions emission → emission.line < context.listing.size
  unique : ∀ first second, context.emissions first → context.emissions second →
    first.line = second.line → first = second

private theorem Context.Recorded.add {before after : Context} (hRecorded : before.Recorded)
    (hSize : before.listing.size < after.listing.size)
    (hEmissions : ∀ emission, after.emissions emission →
      before.emissions emission ∨ emission = before.emission) : after.Recorded where
  below := by
    intro emission hEmission
    rcases hEmissions emission hEmission with hOld | hNew
    · exact Nat.lt_trans (hRecorded.below emission hOld) hSize
    · rw [hNew]
      exact hSize
  unique := by
    intro first second hFirst hSecond hLine
    rcases hEmissions first hFirst with hOld | rfl
    · rcases hEmissions second hSecond with hOther | rfl
      · exact hRecorded.unique first second hOld hOther hLine
      · exact absurd hLine (Nat.ne_of_lt (hRecorded.below first hOld))
    · rcases hEmissions second hSecond with hOther | rfl
      · exact absurd hLine.symm (Nat.ne_of_lt (hRecorded.below second hOther))
      · rfl

/-- A later context: it has the lines of the earlier one and its records, and the state before
its first new line is on record. -/
structure Context.Logs (before after : Context) : Prop where
  options : after.options = before.options
  size : before.listing.size ≤ after.listing.size
  emissions : ∀ emission, before.emissions emission → after.emissions emission
  first : before.listing.size < after.listing.size →
    ∃ emission, after.emissions emission ∧ emission.line = before.listing.size
  recorded : before.Recorded → after.Recorded

namespace Context.Logs

variable {before middle after : Context}

private theorem refl (context : Context) : context.Logs context where
  options := rfl
  size := Nat.le_refl _
  emissions := fun _ hEmission => hEmission
  first := fun hLess => absurd hLess (Nat.lt_irrefl _)
  recorded := fun hRecorded => hRecorded

theorem trans (hFirst : before.Logs middle) (hSecond : middle.Logs after) : before.Logs after where
  options := hSecond.options.trans hFirst.options
  size := Nat.le_trans hFirst.size hSecond.size
  emissions := fun emission hEmission => hSecond.emissions _ (hFirst.emissions _ hEmission)
  first := by
    intro hLess
    -- The first new line was added by the first step that added any.
    by_cases hEarly : before.listing.size < middle.listing.size
    · obtain ⟨emission, hEmission, hLine⟩ := hFirst.first hEarly
      exact ⟨emission, hSecond.emissions _ hEmission, hLine⟩
    · have hSame : middle.listing.size = before.listing.size :=
        Nat.le_antisymm (Nat.le_of_not_lt hEarly) hFirst.size
      rw [← hSame] at hLess ⊢
      exact hSecond.first hLess
  recorded := fun hRecorded => hSecond.recorded (hFirst.recorded hRecorded)

theorem still (hOptions : after.options = before.options)
    (hSize : after.listing.size = before.listing.size)
    (hEmissions : after.emissions = before.emissions) : before.Logs after where
  options := hOptions
  size := Nat.le_of_eq hSize.symm
  emissions := fun _ hEmission => hEmissions ▸ hEmission
  first := fun hLess => absurd hLess (Nat.not_lt.mpr (Nat.le_of_eq hSize))
  recorded := by
    rintro ⟨hBelow, hUnique⟩
    rw [← hEmissions, ← hSize] at hBelow
    rw [← hEmissions] at hUnique
    exact ⟨hBelow, hUnique⟩

end Context.Logs

namespace Generating

/-- A step that only writes code, and complains about a name only if it is said to refuse. -/
class Routine (refuses : Bool) {α : Type} (action : Generating α) : Prop where
  logs : ∀ context : Context, context.Logs (action.run.run context).2
  faults : ∀ (context : Context) complaint, (action.run.run context).1 = .error (.misuse complaint) →
    refuses = true

theorem logs_of_run {α : Type} {action : Generating α} [hRoutine : Routine true action]
    {context after : Context} {result : Except GeneratorFault α}
    (hRun : action.run.run context = (result, after)) : context.Logs after := by
  have hLogs := hRoutine.logs context
  rw [hRun] at hLogs
  exact hLogs

namespace Routine

variable {refuses : Bool} {α β : Type}

instance pure (value : α) : Routine refuses (pure value : Generating α) where
  logs := Context.Logs.refl
  faults := fun _ _ hFault => by cases hFault

instance get : Routine refuses (MonadState.get : Generating Context) where
  logs := Context.Logs.refl
  faults := fun _ _ hFault => by cases hFault

instance bind (action : Generating β) (next : β → Generating α) [hAction : Routine refuses action]
    [hNext : ∀ value, Routine refuses (next value)] : Routine refuses (action >>= next) where
  logs := by
    intro context
    have hFirst := hAction.logs context
    simp only [ExceptT.run_bind, StateT.run_bind]
    cases hRun : action.run.run context with
    | mk result middle =>
        rw [hRun] at hFirst
        cases result with
        | ok value => exact hFirst.trans ((hNext value).logs middle)
        | error fault => exact hFirst
  faults := by
    intro context complaint
    simp only [ExceptT.run_bind, StateT.run_bind]
    cases hRun : action.run.run context with
    | mk result middle =>
        cases result with
        | ok value => exact (hNext value).faults middle complaint
        | error fault =>
            intro hFault
            refine hAction.faults context complaint ?_
            rw [hRun]
            cases hFault
            rfl

theorem andThen {action : Generating β} {next : β → Generating α} [Routine refuses action]
    (hNext : ∀ value, Routine refuses (next value)) : Routine refuses (action >>= next) :=
  inferInstance

instance ite {condition : Prop} [Decidable condition] (first second : Generating α)
    [hFirst : Routine refuses first] [hSecond : Routine refuses second] :
    Routine refuses (if condition then first else second) := by
  split
  · exact hFirst
  · exact hSecond

theorem modify {change : Context → Context}
    (hLogs : ∀ context : Context, context.Logs (change context)) :
    Routine refuses (modify change : Generating Unit) where
  logs := hLogs
  faults := fun _ _ hFault => by cases hFault

theorem throw {fault : GeneratorFault}
    (hFault : ∀ complaint, fault = .misuse complaint → refuses = true) :
    Routine refuses (throw fault : Generating α) where
  logs := Context.Logs.refl
  faults := fun _ complaint hSame => hFault complaint (Except.error.inj hSame)

instance refuse (position : Source.Position) (misuse : Misuse) :
    Routine true (Generating.refuse position misuse : Generating α) where
  logs := Context.Logs.refl
  faults := fun _ _ _ => rfl

instance onStore (action : StoreAction α) : Routine refuses (onStore action) where
  logs := by
    intro context
    rw [Ensures.run_onStore]
    exact .still rfl rfl rfl
  faults := by
    intro context complaint
    rw [Ensures.run_onStore]
    intro hFault
    cases hResult : (action.run.run context.store).1 with
    | ok value => rw [hResult] at hFault; cases hFault
    | error fault => rw [hResult] at hFault; cases hFault

instance placing (name : String) (action : StoreAction α) :
    Routine refuses (placing name action) where
  logs := by
    intro context
    rw [Ensures.run_placing]
    exact .still rfl rfl rfl
  faults := by
    intro context complaint
    rw [Ensures.run_placing]
    intro hFault
    cases hResult : (action.run.run context.store).1 with
    | ok value => rw [hResult] at hFault; cases hFault
    | error fault => rw [hResult] at hFault; cases hFault

/-- A way out is taken after a fault of the step, and the fault it sees is one of the step. -/
theorem tryCatch {action : Generating α} {handler : GeneratorFault → Generating α}
    [hAction : Routine refuses action]
    (hHandler : ∀ fault, (∀ complaint, fault = .misuse complaint → refuses = true) →
      Routine refuses (handler fault)) : Routine refuses (tryCatch action handler) := by
  have hOk : ∀ context value after, action.run.run context = (.ok value, after) →
      (MonadExcept.tryCatch action handler).run.run context = (.ok value, after) := by
    intro context value after hRun
    change (ExceptT.tryCatch action handler).run.run context = _
    simp only [ExceptT.tryCatch, ExceptT.run_mk, StateT.run_bind]
    rw [show StateT.run action context = _ from hRun]
    rfl
  have hError : ∀ context fault after, action.run.run context = (.error fault, after) →
      (MonadExcept.tryCatch action handler).run.run context = (handler fault).run.run after := by
    intro context fault after hRun
    change (ExceptT.tryCatch action handler).run.run context = _
    simp only [ExceptT.tryCatch, ExceptT.run_mk, StateT.run_bind]
    rw [show StateT.run action context = _ from hRun]
    rfl
  have hSeen : ∀ context fault after, action.run.run context = (.error fault, after) →
      Routine refuses (handler fault) := by
    intro context fault after hRun
    refine hHandler fault fun complaint hSame => hAction.faults context complaint ?_
    rw [hRun, hSame]
  constructor
  · intro context
    have hFirst := hAction.logs context
    rcases hRun : action.run.run context with ⟨result, after⟩
    rw [hRun] at hFirst
    cases result with
    | ok value => rw [hOk _ _ _ hRun]; exact hFirst
    | error fault =>
        rw [hError _ _ _ hRun]
        exact hFirst.trans ((hSeen _ _ _ hRun).logs after)
  · intro context complaint
    rcases hRun : action.run.run context with ⟨result, after⟩
    cases result with
    | ok value => rw [hOk _ _ _ hRun]; intro hFault; cases hFault
    | error fault => rw [hError _ _ _ hRun]; exact (hSeen _ _ _ hRun).faults after complaint

end Routine

variable {refuses : Bool}

instance (priority := low) routine_of_holds {α : Type} (action : Generating α)
    [hHolds : Holds (@Routine refuses) action] : Routine refuses action :=
  hHolds.holds

instance routine_chains : Chains (@Routine refuses) where
  pure _ := ⟨inferInstance⟩
  get := ⟨inferInstance⟩
  bind _ _ := ⟨inferInstance⟩

/-! ### Code -/

instance emitAll_routine (block : List Instruction) : Routine refuses (emitAll block) := by
  refine .modify fun context => ?_
  have hSize := context.size_add block
  cases block with
  | nil => exact .still rfl rfl (funext fun emission => by simp [Context.add])
  | cons instruction rest =>
      constructor
      · rfl
      · omega
      · exact fun emission hEmission => .inl hEmission
      · exact fun _ => ⟨context.emission, .inr ⟨List.cons_ne_nil _ _, rfl⟩, rfl⟩
      · intro hRecorded
        apply hRecorded.add
        · rw [hSize]
          exact Nat.lt_add_of_pos_right (Nat.succ_pos _)
        · rintro emission (hOld | ⟨-, hNew⟩)
          · exact .inl hOld
          · exact .inr hNew

instance routine_jumps : Jumps (@Routine refuses) where
  emitAll _ := ⟨inferInstance⟩

instance onStore_routine {α : Type} (action : StoreAction α) :
    Holds (@Routine refuses) (onStore action) :=
  ⟨inferInstance⟩

instance routine_saves : Saves (@Routine refuses) where
  notePointer _ := ⟨.modify fun _ => .still rfl rfl rfl⟩
  forgetPointer := ⟨.modify fun _ => .still rfl rfl rfl⟩
  unplaced _ := ⟨.throw nofun⟩

private theorem addJump_routine (opcode : Opcode) (operands : List Int) :
    Routine refuses (modify fun context => context.addJump opcode operands) := by
  refine .modify fun context => ?_
  have hSize := context.size_addJump opcode operands
  constructor
  · rfl
  · omega
  · exact fun emission hEmission => .inl hEmission
  · exact fun _ => ⟨context.emission, .inr rfl, rfl⟩
  · intro hRecorded
    exact hRecorded.add (by omega) fun _ hEmission => hEmission

private theorem size_of_patch {listing patched : Listing} {slot target : Int}
    (hPatch : listing.patch slot target = .ok patched) : patched.size = listing.size := by
  unfold Listing.patch Listing.change at hPatch
  split at hPatch
  · cases hPatch
  · cases hPatch
    simp [Listing.size]

theorem size_of_resolve (labels : LabelStack) (listing : Listing) (line : Int) :
    (labels.resolve listing line).2.2.size = listing.size := by
  unfold LabelStack.resolve
  split
  · rfl
  · split
    · rfl
    · cases hPatch : listing.patch _ line with
      | ok patched => exact size_of_patch hPatch
      | error cause => rfl

theorem run_resolveLabel (context : Context) : ∃ result labels listing,
    resolveLabel.run.run context =
      (result, { context with labels := labels, listing := listing }) ∧
      listing.size = context.listing.size ∧ ∀ complaint, result ≠ .error (.misuse complaint) := by
  have hSize := size_of_resolve context.labels context.listing context.listing.size
  rcases hResolve : context.labels.resolve context.listing context.listing.size with
    ⟨result, labels, listing⟩
  rw [hResolve] at hSize
  have hNext : ∀ next : Nat → Generating Unit, (nextLine >>= next).run.run context =
      (next context.listing.size).run.run context := fun _ => rfl
  have hGet : ∀ next : Context → Generating Unit,
      (MonadState.get >>= next).run.run context = (next context).run.run context := fun _ => rfl
  rw [resolveLabel, hNext, hGet, hResolve]
  cases result with
  | ok label => exact ⟨_, labels, listing, rfl, hSize, fun _ hFault => by cases hFault⟩
  | error fault => exact ⟨_, labels, listing, rfl, hSize, fun _ hFault => by cases hFault⟩

instance resolveLabel_routine : Routine refuses resolveLabel where
  logs := by
    intro context
    obtain ⟨result, labels, listing, hRun, hSize, -⟩ := run_resolveLabel context
    rw [hRun]
    exact .still rfl hSize rfl
  faults := by
    intro context complaint hFault
    obtain ⟨result, labels, listing, hRun, -, hOther⟩ := run_resolveLabel context
    rw [hRun] at hFault
    exact absurd hFault (hOther complaint)

instance routine_tidies : Tidies (@Routine refuses) where
  drop := ⟨.modify fun _ => .still rfl rfl rfl⟩

instance routine_branches : Branches (@Routine refuses) where
  openLabel _ _ := ⟨.modify fun _ => .still rfl rfl rfl⟩
  jump := ⟨addJump_routine _ _⟩
  jumpIfZero _ := ⟨addJump_routine _ _⟩
  resolveLabel := ⟨inferInstance⟩
  descend := ⟨.modify fun _ => .still rfl rfl rfl⟩
  ascend := ⟨.modify fun _ => .still rfl rfl rfl⟩
  tidyUp := tidyUp_holds

/-! ### Registers and cells -/

instance takeScratch_routine (count : Nat) : Routine refuses (takeScratch count) := by
  unfold takeScratch
  refine .andThen fun handles => .tryCatch fun fault hFault => ?_
  have hAgain : Routine refuses (throw fault : Generating Address) := .throw hFault
  infer_instance

instance freeLoopCells_routine : Routine refuses freeLoopCells := by
  have hNote : ∀ store, Routine refuses
      (modify fun context => { context with store := store } : Generating Unit) :=
    fun _ => .modify fun _ => .still rfl rfl rfl
  unfold freeLoopCells
  refine .andThen fun context => .andThen fun _ => ?_
  split
  · infer_instance
  · exact .throw fun _ hFault => by cases hFault

instance routine_caches : Caches (@Routine refuses) where
  evict := evict_holds
  held _ := ⟨.throw nofun⟩

instance routine_borrows : Borrows (@Routine refuses) where
  leave := ⟨.modify fun _ => .still rfl rfl rfl⟩
  freeLoopCells := ⟨inferInstance⟩
  takeScratch _ := ⟨inferInstance⟩

/-! ### Names and commands -/

instance resolveElement_routine (position : Source.Position) (ref : ArrayRef) (offset : Nat) :
    Routine true (resolveElement position ref offset) := by
  unfold resolveElement
  infer_instance

instance placeIterator_routine (handle : Handle) : Routine refuses (placeIterator handle) := by
  unfold placeIterator
  refine .tryCatch fun fault hFault => ?_
  have hAgain : Routine refuses (throw fault : Generating Address) := .throw hFault
  infer_instance

instance routine_spawns : Spawns (@Routine refuses) where
  enter _ := ⟨.modify fun _ => .still rfl rfl rfl⟩

instance routine_commands : Commands (@Routine true) where
  refuse _ _ := ⟨inferInstance⟩
  resolveElement _ _ _ := ⟨inferInstance⟩
  placeIterator _ := ⟨inferInstance⟩
  deepen := ⟨.modify fun _ => .still rfl rfl rfl⟩

theorem lead_routine {command : Command} {body : Body} (hBody : body ∈ command.bodies) :
    Routine true body.lead := by
  cases command with
  | assign | read | write | skip => cases hBody
  | ifThen | whileLoop | forLoop =>
      cases List.mem_singleton.mp hBody
      infer_instance
  | ifElse =>
      cases List.mem_cons.mp hBody with
      | inl hFirst => cases hFirst; infer_instance
      | inr hSecond => cases List.mem_singleton.mp hSecond; infer_instance

theorem trail_routine {command : Command} {body : Body} (hBody : body ∈ command.bodies)
    (note : body.Note) : Routine true (body.trail note) := by
  cases command with
  | assign | read | write | skip => cases hBody
  | ifThen | whileLoop | forLoop =>
      cases List.mem_singleton.mp hBody
      infer_instance
  | ifElse =>
      cases List.mem_cons.mp hBody with
      | inl hFirst => cases hFirst; infer_instance
      | inr hSecond => cases List.mem_singleton.mp hSecond; infer_instance

end Generating

end RegisterCompiler
