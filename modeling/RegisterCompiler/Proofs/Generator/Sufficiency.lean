/-
How many loop cells suffice.

Between two commands inside `k` counting loops the lowest `2 * k` loop cells are in use, and no
step needs more than two above them.  So a program whose counting loops nest at most `d` deep is
never refused for want of loop cells where there are `2 * d + 2` of them.
-/

import RegisterCompiler.Proofs.Generator.Stacking

set_option autoImplicit false

namespace RegisterCompiler

open Generating

/-! ### Depth of loops -/

namespace Command

mutual

def loopDepth : Command → Nat
  | .assign .. | .read .. | .write .. | .skip _ => 0
  | .ifThen _ _ body | .whileLoop _ _ body => loopDepthAll body
  | .ifElse _ _ body orElse => max (loopDepthAll body) (loopDepthAll orElse)
  | .forLoop _ _ _ _ _ body => loopDepthAll body + 1

def loopDepthAll : List Command → Nat
  | [] => 0
  | command :: rest => max (loopDepth command) (loopDepthAll rest)

end

end Command

def Program.loopDepth (program : Program) : Nat :=
  Command.loopDepthAll program.body

/-! ### Segments that are full -/

/-- The segment for want of whose cells an operation failed. -/
def StoreFault.exhausted? : StoreFault → Option Segment
  | .segmentFull segment _ => some segment
  | .noRun _ _ => some .loop
  | .arraysFull _ _ => some .arrays
  | .loopCell _ cause => cause.exhausted?
  | _ => none

def GeneratorFault.exhausted? : GeneratorFault → Option Segment
  | .store fault | .placing _ fault => fault.exhausted?
  | _ => none

private theorem GeneratorFault.isExhaustion_of_exhausted? {fault : GeneratorFault}
    {segment : Segment}
    (hUsual : fault.isUsual = true) (hSegment : fault.exhausted? = some segment) :
    fault.isExhaustion = true := by
  cases fault with
  | store cause => exact hUsual
  | placing name cause => exact hUsual
  | _ => cases hSegment

namespace StoreAction

variable {before after : Store} {fault : StoreFault}

/-- A scalar is refused a cell for want of memory only where the scalars are full. -/
theorem exhausted_of_allocate_scalars {handle : Handle}
    (hRun : (allocate .scalars handle).run.run before = (.error fault, after))
    (hFault : fault.isExhaustion = true) : fault.exhausted? = some .scalars := by
  unfold allocate at hRun
  rw [run_get_bind] at hRun
  simp only at hRun
  unfold allocateNext at hRun
  rw [run_get_bind] at hRun
  cases hNext : before.space.next? .scalars with
  | none =>
      rw [hNext] at hRun
      cases hRun
      rfl
  | some address =>
      rw [hNext] at hRun
      have hSober := (place_sober address handle).bind fun _ =>
        (Sober.modify fun store => { store with space :=
          { store.space with scalars := store.space.scalars + 1 } }).bind fun _ =>
            Sober.pure address
      rw [hSober before fault after hRun] at hFault
      cases hFault

/-- An array is refused its cells for want of memory only where the arrays are full. -/
theorem exhausted_of_allocateArray {ref : ArrayRef} {head : Handle}
    (hRun : (allocateArray ref head).run.run before = (.error fault, after))
    (hFault : fault.isExhaustion = true) : fault.exhausted? = some .arrays := by
  have hThrow : ∀ {cause : StoreFault} {next : PUnit → StoreAction Unit},
      (throw cause >>= next).run.run before = (.error fault, after) → fault = cause := by
    intro cause next hThrown
    cases hThrown
    rfl
  unfold allocateArray at hRun
  rw [run_get_bind] at hRun
  dsimp only at hRun
  split at hRun
  · rw [hThrow hRun] at hFault
    cases hFault
  split at hRun
  · split at hRun
    · rw [hThrow hRun]
      rfl
    · have hSober : Sober (do
          place (before.space.layout.arrays.first + before.space.arrays) head
          modifySpace fun space => { space with
            arrays := space.arrays + (before.arena.array ref).length.toNat.toUInt64
            heads := space.heads.set (before.space.layout.arrays.first + before.space.arrays) ref }
          modifyArena fun arena => arena.modifyArray ref fun info => { info with
            base := some (before.space.layout.arrays.first + before.space.arrays).toNat
            kind := .native
            chunk := some (before.space.layout.arrays.first + before.space.arrays) }) :=
        (place_sober _ head).bind fun _ => (Sober.modify _).bind fun _ => Sober.modify _
      rw [hSober before fault after hRun] at hFault
      cases hFault
  · have hSober : Sober (do
        modifySpace fun space => { space with
          oversized := space.oversized + (before.arena.array ref).length.toNat }
        modifyArena fun arena => arena.modifyArray ref fun info => { info with
          base := some (before.space.layout.oversizedStart + before.space.oversized)
          kind := .big }) :=
      (Sober.modify _).bind fun _ => Sober.modify _
    rw [hSober before fault after hRun] at hFault
    cases hFault

instance createArray_modest (name : String) (length : Int) : Modest (createArray name length) := by
  unfold createArray
  infer_instance

end StoreAction

namespace Generating

variable {context after : Context} {fault : GeneratorFault}

private theorem error_of_placing {α : Type} {name : String} {action : StoreAction α}
    (hRun : (placing name action).run.run context = (.error fault, after)) :
    ∃ cause store, action.run.run context.store = (.error cause, store) ∧
      fault = .placing name cause := by
  rw [Ensures.run_placing] at hRun
  cases hResult : action.run.run context.store with
  | mk outcome store =>
      rw [hResult] at hRun
      cases outcome with
      | ok value => cases hRun
      | error cause =>
          cases hRun
          exact ⟨cause, store, rfl, rfl⟩

def Declarable (segment : Option Segment) : Prop :=
  segment = some .scalars ∨ segment = some .arrays

private theorem exhausted_of_declareScalar {name : String}
    (hRun : (declareScalar name).run.run context = (.error fault, after))
    (hFault : fault.isExhaustion = true) : Declarable fault.exhausted? := by
  have hAloof : ∀ {α : Type} {action : Generating α} [Aloof action] {before : Context},
      action.run.run before ≠ (.error fault, after) := by
    intro α action hAloof before hHere
    rw [hAloof.sober before fault after hHere] at hFault
    cases hFault
  rcases error_of_run_bind hRun with hCreate | ⟨handle, created, -, hRun⟩
  · exact absurd hCreate hAloof
  rcases error_of_run_bind hRun with hPlace | ⟨address, placed, -, hRun⟩
  · obtain ⟨cause, store, hAllocate, rfl⟩ := error_of_placing hPlace
    exact .inl (StoreAction.exhausted_of_allocate_scalars hAllocate hFault)
  rcases error_of_run_bind hRun with hDeclare | ⟨_, _, -, hNote⟩
  · exact absurd hDeclare hAloof
  · cases hNote

private theorem exhausted_of_declareArray {name : String} {length : Nat}
    (hRun : (declareArray name length).run.run context = (.error fault, after))
    (hFault : fault.isExhaustion = true) : Declarable fault.exhausted? := by
  have hAloof : ∀ {α : Type} {action : Generating α} [Aloof action] {before : Context},
      action.run.run before ≠ (.error fault, after) := by
    intro α action hAloof before hHere
    rw [hAloof.sober before fault after hHere] at hFault
    cases hFault
  rcases error_of_run_bind hRun with hCreate | ⟨ref, created, -, hRun⟩
  · exact absurd hCreate hAloof
  rcases error_of_run_bind hRun with hElement | ⟨head, elemental, -, hRun⟩
  · exact absurd hElement hAloof
  rcases error_of_run_bind hRun with hPlace | ⟨_, placed, -, hRun⟩
  · obtain ⟨cause, store, hAllocate, rfl⟩ := error_of_placing hPlace
    exact .inr (StoreAction.exhausted_of_allocateArray hAllocate hFault)
  have hRest : Aloof (do
      let info := (← get).store.arena.array ref
      if info.kind = .big then
        let _ ← onStore (StoreAction.change head (·.setBig true))
      onStore (StoreAction.declare name .array (.array ref))
      let segment : Segment := if info.kind = .big then .oversized else .arrays
      modify fun context =>
        { context with
          placements :=
            context.placements.push ⟨name, segment, info.base.getD 0, some length⟩ }) := by
    refine .andThen fun _ => ?_
    dsimp only
    split
    · refine .andThen fun _ => .andThen fun _ => .modify fun _ => rfl
    · refine .andThen fun _ => .modify fun _ => rfl
  exact absurd hRun hAloof

private theorem exhausted_of_declareAll {declarations : List Declaration}
    (hRun : (declareAll declarations).run.run context = (.error fault, after))
    (hFault : fault.isExhaustion = true) : Declarable fault.exhausted? := by
  induction declarations generalizing context with
  | nil => cases hRun
  | cons declaration rest inductionHypothesis =>
      rcases error_of_run_bind hRun with hName | ⟨_, middle, -, hRest⟩
      · rcases error_of_run_bind hName with hGet | ⟨_, _, hGet, hName⟩
        · cases hGet
        cases hGet
        dsimp only at hName
        split at hName
        · cases hName
          cases hFault
        split at hName
        · exact exhausted_of_declareScalar hName hFault
        · split at hName
          · cases hName
            cases hFault
          · exact exhausted_of_declareArray hName hFault
      · exact inductionHypothesis hRest

end Generating

/-! ### Commands -/

theorem Operator.cells_le (operator : Operator) (left right : Sight) :
    operator.cells left right ≤ 2 := by
  unfold Operator.cells
  split
  · exact Nat.zero_le 2
  · cases operator with
    | add => exact Nat.zero_le 2
    | sub | mul | div | mod => dsimp only; split_ifs <;> omega

private theorem Expression.cells_le_two (bases : Bases) (knows : String → Option Nat)
    (value : Expression) :
    value.cells bases knows ≤ 2 := by
  cases value with
  | atom span value => exact Nat.zero_le 2
  | operation span left operator right => exact operator.cells_le _ _

namespace Generating

variable {opened context after : Context} {bases : Bases} {fault : GeneratorFault}
  {declarations : List Declaration} {iterators : List String}

/-- Above the cells of the loops the segment is free. -/
theorem vacant_of_stacking (hStacking : opened.Stacking context bases ⟨declarations, iterators⟩)
    {count : Nat}
    (hRoom : 2 * iterators.length + count ≤ opened.setting.layout.loop.extent) :
    context.setting.Vacant count := by
  unfold AddressRange.extent at hRoom
  apply hStacking.stacked.vacant
  have hFits := hStacking.stacked.fits
  rw [hStacking.layout] at hFits ⊢
  dsimp only at hFits ⊢
  omega

/-- A construct is refused for want of memory only where its opening code, a command of its body
or its closing code is. -/
theorem sober_of_body (hStacking : opened.Stacking context bases ⟨declarations, iterators⟩)
    {command : Command} {body : Body} (hBody : body ∈ command.bodies)
    (hLead : ∀ fault after, body.lead.run.run context = (.error fault, after) →
      fault.isExhaustion = false)
    (hCommands : ∀ inside fault after,
      opened.Stacking inside bases ⟨declarations, body.names ++ iterators⟩ →
      (compileCommands body.commands).run.run inside = (.error fault, after) →
      fault.isExhaustion = false)
    (hTrail : ∀ note bodied fault after,
      opened.Stacking bodied bases ⟨declarations, body.names ++ iterators⟩ →
      (body.trail note).run.run bodied = (.error fault, after) → fault.isExhaustion = false)
    (hRun : (compileCommand command).run.run context = (.error fault, after)) :
    fault.isExhaustion = false := by
  rw [Command.compile_eq hBody] at hRun
  rcases error_of_run_bind hRun with hFails | ⟨note, inside, hOpen, hRun⟩
  · exact hLead fault after hFails
  have hInside := stacking_of_lead hStacking hBody hOpen
  rcases error_of_run_bind hRun with hFails | ⟨_, bodied, hBodied, hRun⟩
  · exact hCommands inside fault after hInside hFails
  · exact hTrail note bodied fault after (stacking_of_commands hInside hBodied) hRun

private theorem testCondition_sober
    (hStacking : opened.Stacking context bases ⟨declarations, iterators⟩)
    (hRoom : 2 * iterators.length + 2 ≤ opened.setting.layout.loop.extent) {condition : Condition}
    (hRun : (testCondition condition).run.run context = (.error fault, after)) :
    fault.isExhaustion = false := by
  rw [← Bool.not_eq_true]
  intro hFault
  have hVacant := (vacant_of_stacking hStacking hRoom).mono
    (Nat.le_trans (Relation.cells_le condition.relation (condition.left.sight bases context.knows?)
      (condition.right.sight bases context.knows?)) (Nat.le_succ 1))
  exact (testCondition_costs hStacking.prepared.toSound hStacking.prepared.bases hStacking.balanced
    condition).sober fault after hRun hFault hVacant

mutual

/-- A command is never refused for want of memory where its loops have two cells each and two more
are free. -/
theorem compileCommand_sober {command : Command} {iterators : List String} {context after : Context}
    {fault : GeneratorFault}
    (hStacking : opened.Stacking context bases ⟨declarations, iterators⟩)
    (hRoom : 2 * (iterators.length + command.loopDepth) + 2 ≤ opened.setting.layout.loop.extent)
    (hRun : (compileCommand command).run.run context = (.error fault, after)) :
    fault.isExhaustion = false := by
  have hPrepared := hStacking.prepared
  have hBalanced := hStacking.balanced
  cases command with
  | assign span target value =>
      rw [compileCommand] at hRun
      rw [← Bool.not_eq_true]
      intro hFault
      have hVacant := (vacant_of_stacking hStacking hRoom).mono
        (value.cells_le_two bases context.knows?)
      exact (assign_costs hPrepared.toSound hPrepared.bases hBalanced target value).sober fault
        after hRun hFault hVacant
  | read span target =>
      rw [compileCommand] at hRun
      exact Frugal.sober context fault after hRun hBalanced
  | write span value =>
      rw [compileCommand] at hRun
      exact Frugal.sober context fault after hRun hBalanced
  | skip span =>
      rw [compileCommand] at hRun
      cases hRun
  | ifThen span condition body =>
      rw [Command.loopDepth] at hRoom
      have hHere : _ ∈ (Command.ifThen span condition body).bodies := List.mem_cons_self
      refine sober_of_body hStacking hHere ?_ ?_ ?_ hRun
      · intro fault after hFails
        rcases error_of_run_bind hFails with hTest | ⟨_, _, -, hDescend⟩
        · exact testCondition_sober hStacking (by omega) hTest
        · cases hDescend
      · intro inside fault after hInside hFails
        exact compileCommands_sober hInside hRoom hFails
      · intro _ bodied fault after _ hFails
        exact Aloof.sober bodied fault after hFails
  | ifElse span condition body orElse =>
      rw [Command.loopDepth] at hRoom
      have hFirst : _ ∈ (Command.ifElse span condition body orElse).bodies := List.mem_cons_self
      have hSecond : _ ∈ (Command.ifElse span condition body orElse).bodies :=
        List.mem_cons_of_mem _ List.mem_cons_self
      -- the opening code of the second body contains the first one
      refine sober_of_body hStacking hSecond ?_ ?_ ?_ hRun
      · intro fault after hFails
        rcases error_of_run_bind hFails with hTest | ⟨_, tested, hTest, hFails⟩
        · exact testCondition_sober hStacking (by omega) hTest
        rcases error_of_run_bind hFails with hDescend | ⟨_, deeper, hDescend, hFails⟩
        · cases hDescend
        have hDeeper := stacking_of_lead hStacking hFirst ((run_bind_of_run hTest).trans hDescend)
        rcases error_of_run_bind hFails with hBody | ⟨_, bodied, -, hSwitch⟩
        · exact compileCommands_sober hDeeper (by dsimp only [List.nil_append]; omega) hBody
        · exact Aloof.sober bodied fault after hSwitch
      · intro inside fault after hInside hFails
        exact compileCommands_sober hInside (by dsimp only [List.nil_append]; omega) hFails
      · intro _ bodied fault after _ hFails
        exact Aloof.sober bodied fault after hFails
  | whileLoop span condition body =>
      rw [Command.loopDepth] at hRoom
      have hHere : _ ∈ (Command.whileLoop span condition body).bodies := List.mem_cons_self
      refine sober_of_body hStacking hHere ?_ ?_ ?_ hRun
      · intro fault after hFails
        rw [← Bool.not_eq_true]
        intro hFault
        have hVacant : context.setting.Vacant 2 := vacant_of_stacking hStacking (by omega)
        exact (whileLead_costs hPrepared hBalanced condition).sober fault after hFails hFault
          (hVacant.mono (Nat.le_trans (Relation.cells_le _ _ _) (Nat.le_succ 1)))
      · intro inside fault after hInside hFails
        exact compileCommands_sober hInside hRoom hFails
      · intro _ bodied fault after _ hFails
        exact Aloof.sober bodied fault after hFails
  | forLoop span iterator first last direction body =>
      rw [Command.loopDepth] at hRoom
      have hHere : _ ∈ (Command.forLoop span iterator first last direction body).bodies :=
        List.mem_cons_self
      refine sober_of_body hStacking hHere ?_ ?_ ?_ hRun
      · intro fault after hFails
        apply forLead_sober hPrepared hBalanced _ _ hFails
        · exact vacant_of_stacking hStacking (by omega)
        · intro middle cell hOccupies
          have hFits := hStacking.stacked.fits
          have hMiddle := (hStacking.stacked.push hOccupies).2
          apply hMiddle.vacant
          rw [hOccupies.layout, hStacking.layout]
          rw [hStacking.layout] at hFits
          unfold AddressRange.extent at hRoom
          dsimp only at hFits ⊢
          omega
      · intro inside fault after hInside hFails
        exact compileCommands_sober hInside (by dsimp [List.length_cons]; omega) hFails
      · intro note bodied fault after hBodied hFails
        exact forTrail_sober hBodied.balanced iterator note.1 direction note.2 hFails

theorem compileCommands_sober {commands : List Command} {iterators : List String}
    {context after : Context} {fault : GeneratorFault}
    (hStacking : opened.Stacking context bases ⟨declarations, iterators⟩)
    (hRoom : 2 * (iterators.length + Command.loopDepthAll commands) + 2 ≤
      opened.setting.layout.loop.extent)
    (hRun : (compileCommands commands).run.run context = (.error fault, after)) :
    fault.isExhaustion = false := by
  cases commands with
  | nil =>
      rw [compileCommands] at hRun
      cases hRun
  | cons command rest =>
      rw [Command.loopDepthAll] at hRoom
      rw [compileCommands] at hRun
      rcases error_of_run_bind hRun with hFails | ⟨_, compiled, hCompile, hRun⟩
      · exact compileCommand_sober hStacking (by omega) hFails
      rcases error_of_run_bind hRun with hFails | ⟨_, settled, hSettle, hRest⟩
      · exact Aloof.sober compiled fault after hFails
      · exact compileCommands_sober (stacking_of_settle hStacking hCompile hSettle) (by omega) hRest

end

/-- A program is never refused for want of loop cells where its loops have two each and two more
are free. -/
theorem not_exhausted_of_loopDepth {options : GeneratorOptions}
    (hRegisters : GeneratorOptions.leastRegisters ≤ options.registers)
    (hLayout : options.layout.fault? = none) {program : Program} (hNamed : program.Named)
    (hRoom : 2 * program.loopDepth + 2 ≤ options.layout.loop.extent)
    (hRun : (compileProgram program).run.run (.empty options) = (.error fault, after)) :
    fault.exhausted? ≠ some .loop := by
  intro hLoop
  have hUsual : fault.isUsual = true := by
    have hEnsures := Context.compileProgram_ensures hRegisters hLayout hNamed
    unfold Ensures at hEnsures
    rw [hRun] at hEnsures
    exact hEnsures
  have hFault := GeneratorFault.isExhaustion_of_exhausted? hUsual hLoop
  rcases error_of_run_bind hRun with hDeclare | ⟨_, opened, hDeclare, hRun⟩
  · rcases exhausted_of_declareAll hDeclare hFault with hScalars | hArrays
    · cases hScalars.symm.trans hLoop
    · cases hArrays.symm.trans hLoop
  obtain ⟨hSame, hStacking⟩ := stacking_of_declareAll hRegisters hLayout hDeclare
  rcases error_of_run_bind hRun with hCommands | ⟨_, compiled, -, hRun⟩
  · rw [compileCommands_sober hStacking (by rw [hSame, List.length_nil, Nat.zero_add]; exact hRoom)
      hCommands] at hFault
    cases hFault
  rcases error_of_run_bind hRun with hStop | ⟨_, stopped, -, hRun⟩
  · cases hStop
  rcases error_of_run_bind hRun with hGet | ⟨_, _, hGet, hRun⟩
  · cases hGet
  cases hGet
  dsimp only at hRun
  split at hRun
  · cases hRun
    cases hLoop
  · cases hRun

end Generating

namespace Context

open Generating

/-- Two loop cells for each counting loop around a command, and two more, suffice for a program
that was read, simplified or not.  Between two commands the lowest cells are in use, two for each
loop around them; a loop gives its own back when it is left, and the outermost one finds no
others; behind the program none is in use. -/
theorem loop_cells_suffice {text : Text.Bytes} {program prepared : Program}
    (hParse : parse text = .ok program)
    (hPrepared : prepared = program ∨ prepared = program.simplify) {options : GeneratorOptions}
    {context : Context} (hCreate : Context.create options = .ok context) :
    (∀ depth fault after, prepared.loopDepth ≤ depth →
      2 * depth + 2 ≤ options.layout.loop.extent →
      context.generate prepared = (.error fault, after) → fault.exhausted? ≠ some .loop) ∧
    (∀ names command start, VisitsIn prepared context names command start →
      start.setting.Stacked (2 * names.length) ∧
      ∀ compiled settled, (compileCommand command).run.run start = (.ok (), compiled) →
        tidyUp.run.run compiled = (.ok (), settled) →
        settled.setting.Stacked (2 * names.length)) ∧
    (∀ names closed, Leaves prepared context names closed →
      closed.setting.Stacked (2 * names.length) ∧ (closed.loops = 0 →
        StoreAction.freeLoopCells.run closed.store = ((0, none), closed.store))) ∧
    ∀ after, context.generate prepared = (.ok (), after) →
      after.setting.Stacked 0 ∧ after.store.space.allocated .loop = 0 := by
  obtain ⟨hRegisters, hLayout, rfl⟩ := eq_empty_of_create hCreate
  have hNamed : prepared.Named := by
    rcases hPrepared with rfl | rfl
    · exact named_of_parse hParse
    · exact (named_of_parse hParse).simplify
  refine ⟨?_, ?_, ?_, ?_⟩
  · intro depth fault after hDepth hRoom hGenerate
    exact not_exhausted_of_loopDepth hRegisters hLayout hNamed (by omega) hGenerate
  · intro names command start hVisits
    obtain ⟨opened, bases, hStacking⟩ := stacking_of_visitsIn hRegisters hLayout hVisits
    refine ⟨hStacking.stacked, ?_⟩
    intro compiled settled hCompile hSettle
    exact (stacking_of_settle hStacking hCompile hSettle).stacked
  · exact fun names closed hLeaves => hLeaves.stacked hRegisters hLayout
  · intro after hGenerate
    obtain ⟨opened, compiled, hDeclare, hCompile, rfl⟩ := exists_of_generate hGenerate
    have hStacking := stacking_of_commands (stacking_of_declareAll hRegisters hLayout hDeclare).2
      hCompile
    refine ⟨hStacking.stacked, ?_⟩
    have hEmpty : compiled.store.space.chunks.range compiled.store.space.layout.loop.first
        compiled.store.space.layout.loop.last = [] :=
      OrderedMap.range_eq_nil (hStacking.stacked.owner_eq_none)
    change (compiled.store.space.chunks.range compiled.store.space.layout.loop.first
      compiled.store.space.layout.loop.last).length.toUInt64 = 0
    rw [hEmpty]
    rfl

def narrow : GeneratorOptions :=
  { GeneratorOptions.standard with layout := { Layout.standard with loop := ⟨0, 3⟩ } }

def remainders : Program :=
  let span (first last : Nat) : Source.Span := ⟨⟨first, 1, first + 1⟩, ⟨last, 1, last + 1⟩⟩
  let number (first : Nat) : Reference := ⟨span first (first + 1), "n", none⟩
  ⟨span 0 63, [⟨span 4 5, "n", none⟩],
    [ .read (span 12 19) (number 17),
      .forLoop (span 20 59) "i" (.number (span 31 32) 1) (.reference (number 36)) .up
        [.assign (span 41 52) (number 41) (.operation (span 46 51) (.reference (number 46)) .mod
          (.reference ⟨span 50 51, "i", none⟩))] ]⟩

theorem remainders_loop_cells_suffice :
    parse (Text.encode "VAR n BEGIN READ n; FOR i FROM 1 TO n DO n := n % i; ENDFOR END") =
      .ok remainders ∧ remainders.loopDepth = 1 ∧ narrow.layout.loop.extent = 4 ∧
    (∀ fault after, (empty narrow).generate remainders = (.error fault, after) →
      fault.exhausted? ≠ some .loop) ∧
    (∃ command start, VisitsIn remainders (empty narrow) ["i"] command start ∧
      start.setting.Stacked 2) ∧
    (∃ closed, Leaves remainders (empty narrow) [] closed ∧ closed.setting.Stacked 0 ∧
      StoreAction.freeLoopCells.run closed.store = ((0, none), closed.store)) ∧
    ∃ after, (empty narrow).generate remainders = (.ok (), after) ∧
      after.setting.Stacked 0 ∧ after.store.space.allocated .loop = 0 := by
  have hParse : parse (Text.encode
      "VAR n BEGIN READ n; FOR i FROM 1 TO n DO n := n % i; ENDFOR END") = .ok remainders := rfl
  have hCreate : create narrow = .ok (empty narrow) := rfl
  obtain ⟨hSuffices, hBetween, hLeft, hEnd⟩ := loop_cells_suffice hParse (.inl rfl) hCreate
  obtain ⟨command, start, hVisits⟩ : ∃ command start,
      VisitsIn remainders (empty narrow) ["i"] command start := by
    refine ⟨_, _, _, run_eq_ok_of_isSome ?_, .later_of_isSome ?_ ?_
      (.inside_of_isSome List.mem_cons_self ?_ .here rfl)⟩
    all_goals decide +kernel
  obtain ⟨closed, hLeaves, hOutermost⟩ : ∃ closed,
      Leaves remainders (empty narrow) [] closed ∧ closed.loops = 0 := by
    obtain ⟨span, iterator, first, last, direction, body, loop, compiled, hVisits, hCompile,
        hLoops⟩ : ∃ span iterator first last direction body loop compiled,
        VisitsIn remainders (empty narrow) [] (.forLoop span iterator first last direction body)
          loop ∧
        (compileCommand (.forLoop span iterator first last direction body)).run.run loop =
          (.ok (), compiled) ∧ compiled.loops = 0 := by
      refine ⟨_, _, _, _, _, _, _, _, ⟨_, run_eq_ok_of_isSome ?_, .later_of_isSome ?_ ?_ .here⟩,
        run_eq_ok_of_isSome ?_, ?_⟩
      all_goals decide +kernel
    obtain ⟨closed, hLeaves, hSame⟩ := exists_leaves hVisits hCompile
    exact ⟨closed, hLeaves, hSame.trans hLoops⟩
  obtain ⟨after, hGenerate⟩ : ∃ after, (empty narrow).generate remainders = (.ok (), after) :=
    ⟨_, run_eq_ok_of_isSome (by decide +kernel)⟩
  obtain ⟨hStacked, hNothing⟩ := hLeft [] closed hLeaves
  exact ⟨hParse, rfl, rfl, fun fault after => hSuffices 1 fault after (by decide) (by decide),
    ⟨command, start, hVisits, (hBetween ["i"] command start hVisits).1⟩,
    ⟨closed, hLeaves, hStacked, hNothing hOutermost⟩, after, hGenerate, hEnd after hGenerate⟩

end Context

end RegisterCompiler
