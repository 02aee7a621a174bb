/-
The loop cells as a stack.

A counting loop takes the two lowest cells that are free and gives them back when it is left;
scratch cells are taken above them and given back by the command that took them.  So between
two commands inside `k` counting loops the cells that have owners are the lowest `2 * k` of the
segment, whatever was compiled before, and two more are all that a command ever needs.
-/

import RegisterCompiler.Proofs.Generator.Shadowing

set_option autoImplicit false

namespace RegisterCompiler

open Generating StoreAction

/-! ### Stacked cells -/

namespace Setting

variable {before after setting : Setting} {height : Nat}

/-- The loop cells that have owners are the lowest ones of the segment, so many of them. -/
structure Stacked (setting : Setting) (height : Nat) : Prop where
  fits : setting.layout.loop.first.toNat + height ≤ setting.layout.loop.last.toNat + 1
  owned : ∀ address : Address, setting.layout.loop.first ≤ address →
    address ≤ setting.layout.loop.last →
      ((setting.owner address).isSome = true ↔
        address.toNat < setting.layout.loop.first.toNat + height)

namespace Stacked

private theorem congr (hStacked : before.Stacked height) (hSame : before.SameCells after) :
    after.Stacked height := by
  constructor
  · rw [hSame.layout]
    exact hStacked.fits
  · intro address
    rw [hSame.layout, hSame.owners]
    exact hStacked.owned address

private theorem zero (hOrdered : setting.layout.loop.first ≤ setting.layout.loop.last)
    (hNone : ∀ address : Address, setting.layout.loop.first ≤ address →
      address ≤ setting.layout.loop.last → setting.owner address = none) : setting.Stacked 0 := by
  constructor
  · rw [UInt64.le_iff_toNat_le] at hOrdered
    omega
  · intro address hLow hHigh
    rw [hNone address hLow hHigh]
    rw [UInt64.le_iff_toNat_le] at hLow
    simp only [Option.isSome_none, Bool.false_eq_true, false_iff]
    omega

theorem owner_eq_none (hStacked : setting.Stacked 0) (address : Address)
    (hLow : setting.layout.loop.first ≤ address) (hHigh : address ≤ setting.layout.loop.last) :
    setting.owner address = none := by
  rw [← Option.not_isSome_iff_eq_none, hStacked.owned address hLow hHigh]
  rw [UInt64.le_iff_toNat_le] at hLow
  omega

private theorem runAt (hStacked : setting.Stacked height) {count : Nat}
    (hRoom : setting.layout.loop.first.toNat + height + count ≤
      setting.layout.loop.last.toNat + 1) :
    setting.RunAt count (setting.layout.loop.first.toNat + height) := by
  refine ⟨Nat.le_add_right _ _, hRoom, ?_⟩
  intro address hLow hHigh
  rw [← Option.not_isSome_iff_eq_none, hStacked.owned address]
  · omega
  · rw [UInt64.le_iff_toNat_le]
    omega
  · rw [UInt64.le_iff_toNat_le]
    omega

theorem vacant (hStacked : setting.Stacked height) {count : Nat}
    (hRoom : setting.layout.loop.first.toNat + height + count ≤
      setting.layout.loop.last.toNat + 1) : setting.Vacant count :=
  fun _ => ⟨_, hStacked.runAt hRoom⟩

theorem push (hStacked : before.Stacked height) {cell : Address}
    (hOccupies : before.Occupies after cell) :
    cell.toNat = before.layout.loop.first.toNat + height ∧ after.Stacked (height + 1) := by
  have hRun := hOccupies.lowest.run
  have hAbove : before.layout.loop.first.toNat + height ≤ cell.toNat := by
    have hLow := hRun.first
    have hHigh := hRun.last
    apply Classical.byContradiction
    intro hBelow
    have hOwned := (hStacked.owned cell (UInt64.le_iff_toNat_le.mpr hLow)
      (UInt64.le_iff_toNat_le.mpr (by omega))).mpr (by omega)
    rw [hRun.free cell (Nat.le_refl _) (Nat.lt_succ_self _)] at hOwned
    cases hOwned
  have hRoom : before.layout.loop.first.toNat + height + 1 ≤ before.layout.loop.last.toNat + 1 :=
    Nat.le_trans (Nat.succ_le_succ hAbove) hRun.last
  have hCell : cell.toNat = before.layout.loop.first.toNat + height :=
    Nat.le_antisymm (hOccupies.lowest.lowest _ (hStacked.runAt hRoom)) hAbove
  refine ⟨hCell, ?_, ?_⟩
  · rw [hOccupies.layout]
    exact hRoom
  · intro address hLow hHigh
    rw [hOccupies.layout] at hLow hHigh ⊢
    rw [hOccupies.owners, Bool.or_eq_true, hStacked.owned address hLow hHigh, decide_eq_true_eq,
      InRun, hCell]
    omega

/-- The topmost cell that is given back leaves the stack. -/
theorem pop (hStacked : before.Stacked (height + 1)) {cell : Address}
    (hCell : cell.toNat = before.layout.loop.first.toNat + height)
    (hLayout : after.layout = before.layout)
    (hOwner : ∀ address, after.owner address = if address = cell then none
      else before.owner address) : after.Stacked height := by
  have hFits := hStacked.fits
  constructor
  · rw [hLayout]
    omega
  · intro address hLow hHigh
    rw [hLayout] at hLow hHigh ⊢
    rw [hOwner]
    by_cases hSame : address = cell
    · rw [if_pos hSame, hSame, hCell]
      simp
    · have hOther : address.toNat ≠ cell.toNat := fun hEqual => hSame (UInt64.toNat_inj.mp hEqual)
      rw [if_neg hSame, hStacked.owned address hLow hHigh]
      omega

end Stacked

end Setting

/-! ### Between commands -/

namespace Context

/-- A context between two commands of a program: the loop cells that have owners are those of the
loops around it. -/
structure Stacking (opened context : Context) (bases : Bases) (names : Names) : Prop
    extends Standing opened context bases names where
  layout : context.setting.layout = opened.setting.layout
  stacked : context.setting.Stacked (2 * names.iterators.length)

end Context

namespace Generating

variable {opened context inside : Context} {bases : Bases} {names : Names}
  {declarations : List Declaration} {iterators : List String}

theorem stacking_of_settle (hStacking : opened.Stacking context bases names) {command : Command}
    {compiled settled : Context}
    (hCompile : (compileCommand command).run.run context = (.ok (), compiled))
    (hSettle : tidyUp.run.run compiled = (.ok (), settled)) :
    opened.Stacking settled bases names := by
  obtain ⟨-, hCompiles⟩ := Context.settles_of_runs hStacking.prepared hCompile hSettle
  have hSame := hCompiles.extended.cells.sameCells
  exact ⟨(standing_of_settle hStacking.toStanding hCompile hSettle).1,
    hSame.layout.trans hStacking.layout, hStacking.stacked.congr hSame⟩

theorem stacking_of_commands (hStacking : opened.Stacking context bases names)
    {commands : List Command} {after : Context}
    (hRun : (compileCommands commands).run.run context = (.ok (), after)) :
    opened.Stacking after bases names := by
  induction commands generalizing context with
  | nil =>
      rw [compileCommands] at hRun
      cases hRun
      exact hStacking
  | cons command rest inductionHypothesis =>
      obtain ⟨compiled, settled, hCompile, hSettle, hRest⟩ := exists_of_compileCommands_cons hRun
      exact inductionHypothesis (stacking_of_settle hStacking hCompile hSettle) hRest

/-- The opening code of a counting loop puts its two cells onto the stack, the counter first. -/
theorem forLead_stacked (hStacking : opened.Stacking context bases names)
    {position : Source.Position} {iterator : String} {first last : Atom} {direction : Direction}
    {cells : LoopCells} {start : Nat}
    (hLead : (do
      let cells ← openLoop position iterator first last direction
      clearCache
      forgetPointer
      let start ← nextLine
      descend
      testLoop cells
      return (cells, start)).run.run context = (.ok (cells, start), inside)) :
    inside.setting.layout = opened.setting.layout ∧
      inside.setting.Stacked (2 * names.iterators.length + 2) ∧
      cells.counter.toNat = opened.setting.layout.loop.first.toNat + 2 * names.iterators.length ∧
      cells.iterator.toNat =
        opened.setting.layout.loop.first.toNat + 2 * names.iterators.length + 1 := by
  obtain ⟨middle, inner, hCounter, hIterator, hSame⟩ :=
    forLead_takes hStacking.prepared hStacking.balanced hLead
  obtain ⟨hCounterCell, hMiddle⟩ := hStacking.stacked.push hCounter
  obtain ⟨hIteratorCell, hInner⟩ := hMiddle.push hIterator
  rw [hCounter.layout] at hIteratorCell
  rw [hStacking.layout] at hCounterCell hIteratorCell
  refine ⟨?_, hInner.congr hSame, hCounterCell, hIteratorCell⟩
  rw [hSame.layout, hIterator.layout, hCounter.layout, hStacking.layout]

/-- Inside a counting loop two more cells are on the stack. -/
theorem stacking_of_lead (hStacking : opened.Stacking context bases ⟨declarations, iterators⟩)
    {command : Command} {body : Body} (hBody : body ∈ command.bodies) {note : body.Note}
    (hLead : body.lead.run.run context = (.ok note, inside)) :
    opened.Stacking inside bases ⟨declarations, body.names ++ iterators⟩ := by
  have hStanding := standing_of_lead hStacking.toStanding hBody hLead
  have hPlain : body.names = [] →
      opened.Stacking inside bases ⟨declarations, body.names ++ iterators⟩ := by
    intro hNames
    have hEnters := (Context.entrance_of_lead hStacking.prepared hBody hLead).setting
    rw [hNames] at hStanding hEnters ⊢
    cases hEnters with
    | construct hSame =>
        exact ⟨hStanding, hSame.sameCells.layout.trans hStacking.layout,
          hStacking.stacked.congr hSame.sameCells⟩
  cases command with
  | assign | read | write | skip => cases hBody
  | ifThen span condition commands =>
      cases List.mem_singleton.mp hBody
      exact hPlain rfl
  | ifElse span condition commands orElse =>
      cases List.mem_cons.mp hBody with
      | inl hFirst =>
          cases hFirst
          exact hPlain rfl
      | inr hSecond =>
          cases List.mem_singleton.mp hSecond
          exact hPlain rfl
  | whileLoop span condition commands =>
      cases List.mem_singleton.mp hBody
      exact hPlain rfl
  | forLoop span iterator first last direction commands =>
      cases List.mem_singleton.mp hBody
      obtain ⟨cells, start⟩ := note
      obtain ⟨hLayout, hStacked, -⟩ := forLead_stacked hStacking hLead
      refine ⟨hStanding, hLayout, ?_⟩
      rw [List.length_append, Nat.mul_add, Nat.add_comm]
      exact hStacked

/-- At every command that is visited the stack holds two cells for each loop around it. -/
theorem Visits.stacking {names : List String} {commands : List Command} {command : Command}
    {start : Context} (hVisits : Visits commands context names command start)
    (hStacking : opened.Stacking context bases ⟨declarations, iterators⟩) :
    opened.Stacking start bases ⟨declarations, names ++ iterators⟩ := by
  induction hVisits generalizing iterators with
  | here => exact hStacking
  | later hCompile hSettle _ inductionHypothesis =>
      exact inductionHypothesis (stacking_of_settle hStacking hCompile hSettle)
  | inside hBody hLead _ inductionHypothesis =>
      rw [List.append_assoc]
      exact inductionHypothesis (stacking_of_lead hStacking hBody hLead)

end Generating

/-! ### Leaving loops -/

namespace Generating

variable {opened context inside bodied landed closed : Context} {bases : Bases} {names : Names}
  {iterator : String} {cells : LoopCells}

def leaveLoop (iterator : String) (cells : LoopCells) : Generating Unit := do
  onStore (StoreAction.undeclare iterator)
  let _ ← onStore (StoreAction.freeAt cells.iterator)
  let _ ← onStore (StoreAction.freeAt cells.counter)
  modify fun context => { context with loops := context.loops - 1 }

/-- A loop gives its own cells back first, the outermost one then all that are left. -/
theorem closeLoop_eq (iterator : String) (cells : LoopCells) :
    closeLoop iterator cells = (do
      leaveLoop iterator cells
      let left ← get
      if left.loops = 0 then freeLoopCells else return ()) := by
  simp only [closeLoop, leaveLoop, bind_assoc]

private theorem leaveLoop_pops {height : Nat} (hStacked : context.setting.Stacked (height + 2))
    (hCounter : cells.counter.toNat = context.setting.layout.loop.first.toNat + height)
    (hIterator : cells.iterator.toNat = context.setting.layout.loop.first.toNat + height + 1)
    (hRun : (leaveLoop iterator cells).run.run context = (.ok (), closed)) :
    closed.setting.layout = context.setting.layout ∧ closed.setting.Stacked height ∧
      closed.loops = context.loops - 1 := by
  obtain ⟨_, one, hUndeclare, hRun⟩ := exists_of_run_bind hRun
  have hSame := sameCells_of_space (Aloof.space context _ one hUndeclare)
  obtain ⟨-, hOne⟩ := of_onStore hUndeclare
  obtain ⟨_, two, hFirst, hRun⟩ := exists_of_run_bind hRun
  obtain ⟨hGives, hTwo⟩ := of_onStore hFirst
  obtain ⟨hLayout, hOwner⟩ := freeAt_owner hGives
  obtain ⟨_, three, hSecond, hRun⟩ := exists_of_run_bind hRun
  obtain ⟨hMore, hThree⟩ := of_onStore hSecond
  obtain ⟨hLayoutToo, hOwnerToo⟩ := freeAt_owner hMore
  cases hRun
  -- the iterator was taken last, so it is the topmost cell
  have hPopped : two.setting.Stacked (height + 1) :=
    (hStacked.congr hSame).pop (by rw [hSame.layout]; exact hIterator) hLayout hOwner
  have hTwoLayout : two.setting.layout = context.setting.layout :=
    Eq.trans hLayout hSame.layout
  refine ⟨Eq.trans hLayoutToo hTwoLayout, ?_, ?_⟩
  · apply hPopped.pop _ hLayoutToo hOwnerToo
    rw [hTwoLayout]
    exact hCounter
  · have hLoops : three.loops = context.loops := by rw [hThree, hTwo, hOne]
    exact congrArg (· - 1) hLoops

/-- Behind the last step of a loop its cells are as in its body, and it still counts as open. -/
theorem InsideLoop.sameCells_landed {start : Nat}
    {handle owner : Handle} (hPrepared : context.Prepared bases)
    (hInside : InsideLoop context inside iterator cells start handle owner)
    {behaviour : Behaviour} (hCompiles : Context.Compiles inside bodied behaviour)
    (hTidy : bodied.Tidy) {direction : Direction}
    (hRun : (do
      clearCache
      stepLoop cells direction start
      landHere).run.run bodied = (.ok (), landed)) :
    bodied.setting.SameCells landed.setting ∧ landed.loops = context.loops + 1 := by
  obtain ⟨_, cleared, hClear, hRun⟩ := exists_of_run_bind hRun
  obtain ⟨hCleared, hFlat, hHolding⟩ := (Context.clearCache_ensures hTidy.toSound).of_run hClear
  have hClearedTidy : cleared.Tidy := ⟨hCleared.sound, hHolding _ hTidy.holding⟩
  have hSame : (context.setting.insideLoop iterator cells owner handle).Resembles
      cleared.setting := by
    rw [hCleared.setting, ← hInside.setting]
    exact hCompiles.extended.cells
  have hIterator : cleared.setting.cell? iterator = some (.iterator, handle, cells.iterator) := by
    rw [hSame.cell?]
    exact Setting.Admits.cell?_insideLoop
  have hCounter : cleared.setting.IsScratch cells.counter :=
    hSame.isScratch (hInside.admits.isScratch_insideLoop hPrepared.toSound.store.layout)
  have hStart : start ≤ cleared.listing.size :=
    Nat.le_trans hInside.start (Nat.le_trans hCompiles.extended.grows.size hCleared.grows.size)
  obtain ⟨_, stepped, hStep, hLand⟩ := exists_of_run_bind hRun
  obtain ⟨-, hSteps⟩ := (Context.stepLoop_ensures (.refl hCleared.sound) hClearedTidy hFlat
    hIterator hCounter direction hStart).of_run hStep
  obtain ⟨hStore, hLoops, -⟩ := landHere_keeps hLand
  constructor
  · apply Setting.Resembles.sameCells
    apply Setting.Resembles.of_eq
    exact (congrArg Store.setting hStore).trans (hSteps.setting.trans hCleared.setting)
  · rw [hLoops, hSteps.loops, hCleared.quiet.loops, hCompiles.loops, hInside.loops]

/-- While a program is compiled, a counting loop inside the loops with the given variables has
given its own two cells back. -/
def Leaves (program : Program) (context : Context) (names : List String) (closed : Context) :
    Prop :=
  ∃ span iterator first last direction body start cells line inside bodied landed,
    VisitsIn program context names (.forLoop span iterator first last direction body) start ∧
      (do
        let cells ← openLoop span.first iterator first last direction
        clearCache
        forgetPointer
        let start ← nextLine
        descend
        testLoop cells
        return (cells, start)).run.run start = (.ok (cells, line), inside) ∧
      (compileCommands body).run.run inside = (.ok (), bodied) ∧
      (do
        clearCache
        stepLoop cells direction line
        landHere).run.run bodied = (.ok (), landed) ∧
      (leaveLoop iterator cells).run.run landed = (.ok (), closed)

/-- Every counting loop that was compiled has given its own two cells back. -/
theorem exists_leaves {program : Program} {names : List String} {span : Source.Span}
    {iterator : String} {first last : Atom} {direction : Direction} {body : List Command}
    {start compiled : Context}
    (hVisits : VisitsIn program context names (.forLoop span iterator first last direction body)
      start)
    (hCompile : (compileCommand (.forLoop span iterator first last direction body)).run.run start =
      (.ok (), compiled)) :
    ∃ closed, Leaves program context names closed ∧ closed.loops = compiled.loops := by
  obtain ⟨⟨cells, line⟩, inside, bodied, hLead, hBody, hTrail⟩ :=
    exists_of_compileCommand hCompile List.mem_cons_self
  obtain ⟨_, cleared, hClear, hTrail⟩ := exists_of_run_bind hTrail
  obtain ⟨_, stepped, hStep, hTrail⟩ := exists_of_run_bind hTrail
  obtain ⟨_, landed, hLand, hTrail⟩ := exists_of_run_bind hTrail
  rw [closeLoop_eq] at hTrail
  obtain ⟨_, swept, hClose, hAscend⟩ := exists_of_run_bind hTrail
  obtain ⟨_, closed, hLeave, hSweep⟩ := exists_of_run_bind hClose
  refine ⟨closed, ⟨span, iterator, first, last, direction, body, start, cells, line, inside, bodied,
    landed, hVisits, hLead, hBody, ?_, hLeave⟩, ?_⟩
  · exact (run_bind_of_run hClear).trans ((run_bind_of_run hStep).trans hLand)
  cases hAscend
  obtain ⟨_, _, hGet, hSweep⟩ := exists_of_run_bind hSweep
  cases hGet
  split at hSweep
  · obtain ⟨_, _, hGet, hSweep⟩ := exists_of_run_bind hSweep
    cases hGet
    obtain ⟨_, freed, hFree, hSweep⟩ := exists_of_run_bind hSweep
    cases hFree
    split at hSweep
    · cases hSweep
      rfl
    · cases hSweep
  · cases hSweep
    rfl

/-- The commands of a program are compiled behind its declarations, where no loop cell has an
owner. -/
theorem stacking_of_declareAll {options : GeneratorOptions}
    (hRegisters : GeneratorOptions.leastRegisters ≤ options.registers)
    (hLayout : options.layout.fault? = none) {declarations : List Declaration}
    (hDeclare : (declareAll declarations).run.run (.empty options) = (.ok (), opened)) :
    opened.setting.layout = options.layout ∧
      opened.Stacking opened (Placement.bases opened.placements.toList) ⟨declarations, []⟩ := by
  obtain ⟨hOpening, hOptions⟩ := (Context.declareAll_ensures
    (Context.opening_empty hRegisters hLayout) (named_of_declareAll hDeclare)).of_run hDeclare
  have hFurnished := declareAll_furnished (Context.opening_empty hRegisters hLayout)
    (Context.furnished_empty options) hDeclare
  have hStanding := Context.standing_of_opening hOpening hFurnished
  have hLoops : opened.loops = 0 := by
    rw [hOpening.blank]
    rfl
  have hOrdered := Layout.ordered_of_fault? hStanding.prepared.toSound.store.layout
  obtain ⟨hSameOptions, hCharted⟩ := (Context.charted_empty options).addAll hLayout hDeclare
  refine ⟨?_, hStanding, rfl, .zero hOrdered.loop (hStanding.prepared.vacant hLoops)⟩
  change opened.store.space.layout = options.layout
  rw [hCharted.layout, hSameOptions]
  rfl

/-- At every command that is visited the stack holds two cells for each loop around it. -/
theorem stacking_of_visitsIn {options : GeneratorOptions}
    (hRegisters : GeneratorOptions.leastRegisters ≤ options.registers)
    (hLayout : options.layout.fault? = none) {program : Program} {names : List String}
    {command : Command} {start : Context}
    (hVisits : VisitsIn program (.empty options) names command start) :
    ∃ (opened : Context) (bases : Bases),
      opened.Stacking start bases ⟨program.declarations, names⟩ := by
  obtain ⟨opened, hDeclare, hVisits⟩ := hVisits
  have hStacking := hVisits.stacking (stacking_of_declareAll hRegisters hLayout hDeclare).2
  rw [List.append_nil] at hStacking
  exact ⟨opened, _, hStacking⟩

/-- A loop that has given its own cells back leaves the stack as it found it, so the outermost
one has no others to give back. -/
theorem Leaves.stacked {options : GeneratorOptions}
    (hRegisters : GeneratorOptions.leastRegisters ≤ options.registers)
    (hLayout : options.layout.fault? = none) {program : Program} {names : List String}
    (hLeaves : Leaves program (.empty options) names closed) :
    closed.setting.Stacked (2 * names.length) ∧ (closed.loops = 0 →
      StoreAction.freeLoopCells.run closed.store = ((0, none), closed.store)) := by
  obtain ⟨span, iterator, first, last, direction, body, start, cells, line, inside, bodied, landed,
    hVisits, hLead, hBody, hStep, hLeave⟩ := hLeaves
  obtain ⟨opened, bases, hStacking⟩ := stacking_of_visitsIn hRegisters hLayout hVisits
  obtain ⟨hInsideLayout, hInsideStacked, hCounter, hIterator⟩ := forLead_stacked hStacking hLead
  obtain ⟨handle, owner, hInside⟩ := forLead_inside hStacking.prepared hLead
  have hHere : _ ∈ (Command.forLoop span iterator first last direction body).bodies :=
    List.mem_cons_self
  have hEntrance := Context.entrance_of_lead hStacking.prepared hHere hLead
  obtain ⟨hCompiles, hTidy⟩ := (Context.compileCommands_ensures (named_of_compileCommands hBody) _
    hEntrance.prepared).of_run hBody
  obtain ⟨hSame, hLoops⟩ := hInside.sameCells_landed hStacking.prepared hCompiles hTidy hStep
  have hSame := hCompiles.extended.cells.sameCells.trans hSame
  have hLayouts : landed.setting.layout = opened.setting.layout :=
    hSame.layout.trans hInsideLayout
  obtain ⟨hClosedLayout, hStacked, hClosedLoops⟩ := leaveLoop_pops (hInsideStacked.congr hSame)
    (by rw [hLayouts]; exact hCounter) (by rw [hLayouts]; exact hIterator) hLeave
  refine ⟨hStacked, ?_⟩
  intro hOutermost
  have hStart : start.loops = 0 := by
    rw [hClosedLoops, hLoops] at hOutermost
    exact hOutermost
  have hSameLayout : closed.setting.layout = start.setting.layout := by
    rw [hClosedLayout, hLayouts, hStacking.layout]
  apply freeLoopCells_run
  intro address hLow hHigh
  -- where no loop is open no loop cell has an owner, and the stack is as high as before the loop
  have hOwned := hStacked.owned address hLow hHigh
  have hNone := hStacking.prepared.vacant hStart address (hSameLayout ▸ hLow) (hSameLayout ▸ hHigh)
  have hBefore := hStacking.stacked.owned address (hSameLayout ▸ hLow) (hSameLayout ▸ hHigh)
  rw [hNone, ← hSameLayout] at hBefore
  rw [← Option.not_isSome_iff_eq_none]
  exact fun hSome => Bool.false_ne_true (hBefore.mpr (hOwned.mp hSome))

end Generating

end RegisterCompiler
