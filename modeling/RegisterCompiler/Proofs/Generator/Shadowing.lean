/-
Compiling a program and, beside it, the simplified one.

Simplifying lifts commands out of constructs and drops others, so the simplified program stands
no deeper, more is remembered about its scalars, and the same loop cells have owners.  Knowing
more may cost a loop cell, but only outside all constructs, where they are free.  So the
simplified program finds the cells it needs wherever the program itself does.
-/

import RegisterCompiler.Proofs.Generator.Recall

set_option autoImplicit false

namespace RegisterCompiler

open Generating

/-- A context in which a program is compiled, and one in which the simplified program is. -/
structure Shadows (plain simple : Context) : Prop where
  options : simple.options = plain.options
  depth : simple.depth ≤ plain.depth
  loops : simple.loops = plain.loops
  shallow : simple.loops ≤ simple.depth
  cells : plain.setting.SameCells simple.setting
  recalled : plain.setting.RecalledBy simple.setting

theorem Setting.Resembles.sameCells {first second : Setting} (hSame : first.Resembles second) :
    first.SameCells second := by
  constructor
  · rw [hSame]
  · intro address
    rw [hSame]

private theorem Context.recalls_of_knows? {context : Context} {name : String} {value : Nat}
    (hKnows : context.knows? name = some value) : context.setting.recalls name = some value := by
  rw [Context.knows?_eq] at hKnows
  split at hKnows
  · exact hKnows
  · cases hKnows

private theorem Context.knows?_deep {context : Context} (hDeep : 0 < context.depth) :
    context.knows? = fun _ => none := by
  funext name
  rw [Context.knows?_eq, if_neg]
  exact fun hBoth => Nat.ne_of_gt hDeep hBoth.2

namespace Shadows

variable {plain simple : Context} (hShadows : Shadows plain simple)

include hShadows

private theorem depth_eq_zero (hPlain : plain.depth = 0) : simple.depth = 0 :=
  Nat.le_zero.mp (hPlain ▸ hShadows.depth)

private theorem knows? (name : String) (value : Nat) (hKnows : plain.knows? name = some value) :
    simple.knows? name = some value := by
  have hRecall := hShadows.recalled name value (Context.recalls_of_knows? hKnows)
  rw [Context.knows?_eq] at hKnows ⊢
  split at hKnows
  · rename_i hBoth
    rw [if_pos ⟨hShadows.options ▸ hBoth.1, hShadows.depth_eq_zero hBoth.2⟩]
    exact hRecall
  · cases hKnows

/-- Inside a construct neither knows anything. -/
theorem knows?_eq (hDeep : 0 < simple.depth) : simple.knows? = plain.knows? := by
  rw [Context.knows?_deep hDeep, Context.knows?_deep (Nat.lt_of_lt_of_le hDeep hShadows.depth)]

/-- Commands that were compiled side by side. -/
theorem advance {first second : Context} {behaviour other : Behaviour}
    (hPlain : Context.Compiles plain first behaviour) (hSimple : Context.Compiles simple second other)
    (hRecall : first.setting.RecalledBy second.setting) : Shadows first second where
  options := by rw [hSimple.extended.options, hPlain.extended.options, hShadows.options]
  depth := by
    rw [hSimple.depth, hPlain.depth]
    exact hShadows.depth
  loops := by rw [hSimple.loops, hPlain.loops, hShadows.loops]
  shallow := by
    rw [hSimple.loops, hSimple.depth]
    exact hShadows.shallow
  cells := (hPlain.extended.cells.symm.sameCells.trans hShadows.cells).trans
    hSimple.extended.cells.sameCells
  recalled := hRecall

end Shadows

structure Abreast (opened : Context) (bases : Bases) (names : Names) (plain simple : Context) :
    Prop extends Shadows plain simple where
  plain : opened.Standing plain bases names
  simple : opened.Standing simple bases names

namespace Abreast

variable {opened plain simple : Context} {bases : Bases} {names : Names}
  (hAbreast : Abreast opened bases names plain simple)

include hAbreast

/-- Outside all constructs a loop cell is free. -/
theorem vacant_one (hOutside : simple.depth = 0) : simple.setting.Vacant 1 := by
  have hPrepared := hAbreast.simple.prepared
  have hLoops : simple.loops = 0 := Nat.le_zero.mp (hOutside ▸ hAbreast.shallow)
  have hOrdered := Layout.ordered_of_fault? hPrepared.toSound.store.layout
  intro _
  refine ⟨_, Nat.le_refl _, Nat.succ_le_succ hOrdered.loop, ?_⟩
  intro address hLow hHigh
  apply hPrepared.vacant hLoops address
  · exact UInt64.le_iff_toNat_le.mpr hLow
  · exact UInt64.le_iff_toNat_le.mpr (Nat.le_trans (Nat.le_of_lt_succ hHigh) hOrdered.loop)

private theorem vacant {fewer more : Nat} (hVacant : plain.setting.Vacant fewer)
    (hOutside : simple.depth = 0 → more ≤ max 1 fewer) (hInside : 0 < simple.depth → more ≤ fewer) :
    simple.setting.Vacant more := by
  have hThere := hVacant.congr hAbreast.cells
  cases Nat.eq_zero_or_pos simple.depth with
  | inl hZero =>
      have hMost := hOutside hZero
      by_cases hFew : more ≤ 1
      · exact (hAbreast.vacant_one hZero).mono hFew
      · exact hThere.mono (by omega)
  | inr hDeep => exact hThere.mono (hInside hDeep)

private theorem vacant_expression {value : Expression}
    (hVacant : plain.setting.Vacant (value.cells bases plain.knows?)) :
    simple.setting.Vacant (value.simplify.cells bases simple.knows?) := by
  have hFewer := Expression.cells_simplify_le bases simple.knows? value
  apply hAbreast.vacant hVacant
  · intro _
    exact Nat.le_trans hFewer (Expression.cells_le hAbreast.knows? bases value)
  · intro hDeep
    rw [hAbreast.knows?_eq hDeep] at hFewer ⊢
    exact hFewer

private theorem vacant_condition {condition : Condition}
    (hVacant : plain.setting.Vacant (condition.cells bases plain.knows?)) :
    simple.setting.Vacant (condition.simplify.cells bases simple.knows?) := by
  apply hAbreast.vacant hVacant
  · intro _
    exact Nat.le_trans (Relation.cells_le _ _ _) (Nat.le_max_left _ _)
  · intro hDeep
    rw [hAbreast.knows?_eq hDeep]
    exact Condition.cells_simplify_le bases _ condition

end Abreast

/-! ### Simple commands -/

/-- A step that never fails for want of memory, and behind which all is remembered that is
remembered in a setting. -/
structure Upholds (action : Generating Unit) (context : Context) (setting : Setting) : Prop where
  recalled : ∀ after, action.run.run context = (.ok (), after) → setting.RecalledBy after.setting
  sober : ∀ fault after, action.run.run context = (.error fault, after) →
    fault.isExhaustion = false

namespace Upholds

variable {context : Context} {setting weaker : Setting}

private theorem mono {action : Generating Unit} (hUpholds : Upholds action context setting)
    (hWeaker : weaker.RecalledBy setting) : Upholds action context weaker where
  recalled := fun after hRun => hWeaker.trans (hUpholds.recalled after hRun)
  sober := hUpholds.sober

private theorem bind {α : Type} {action : Generating α} {next : α → Generating Unit}
    (hSober : ∀ fault after, action.run.run context = (.error fault, after) →
      fault.isExhaustion = false)
    (hNext : ∀ value middle, action.run.run context = (.ok value, middle) →
      Upholds (next value) middle setting) : Upholds (action >>= next) context setting where
  recalled := by
    intro after hRun
    obtain ⟨value, middle, hFirst, hSecond⟩ := exists_of_run_bind hRun
    exact (hNext value middle hFirst).recalled after hSecond
  sober := by
    intro fault after hRun
    rcases error_of_run_bind hRun with hFirst | ⟨value, middle, hFirst, hSecond⟩
    · exact hSober fault after hFirst
    · exact (hNext value middle hFirst).sober fault after hSecond

private theorem idle (hRecall : setting.RecalledBy context.setting) :
    Upholds (compileCommands []) context setting where
  recalled := by
    intro after hRun
    rw [compileCommands] at hRun
    cases hRun
    exact hRecall
  sober := by
    intro fault after hRun
    rw [compileCommands] at hRun
    cases hRun

private theorem single {bases : Bases} (hPrepared : context.Prepared bases) {command : Command}
    (hUpholds : Upholds (compileCommand command) context setting) :
    Upholds (compileCommands [command]) context setting := by
  rw [compileCommands]
  apply bind hUpholds.sober
  intro _ compiled hCompile
  have hCompiles := (Context.compileCommand_ensures (named_of_compileCommand hCompile)
    hPrepared).of_run hCompile
  apply bind (Aloof.sober compiled)
  intro _ settled hSettle
  have hSettles := ((Context.tidyUp_ensures hCompiles.extended.sound).of_run hSettle).1
  apply idle
  rw [hSettles.setting]
  exact hUpholds.recalled compiled hCompile

end Upholds

private theorem Reference.remember_mono {cell : Reference} {first second : Setting}
    (hRecall : first.RecalledBy second) {less more : Option Nat}
    (hMore : ∀ value, less = some value → more = some value) (name : String) (value : Nat)
    (hHere : cell.remember first.recalls less name = some value) :
    cell.remember second.recalls more name = some value := by
  unfold Reference.remember at hHere ⊢
  cases hIndex : cell.index with
  | some index =>
      rw [hIndex] at hHere
      exact hRecall name value hHere
  | none =>
      rw [hIndex] at hHere
      simp only [Function.update_apply] at hHere ⊢
      by_cases hName : name = cell.name
      · rw [if_pos hName] at hHere ⊢
        exact hMore value hHere
      · rw [if_neg hName] at hHere ⊢
        exact hRecall name value hHere

/-- Where more is known an expression keeps its value. -/
theorem Expression.value?_knowledge {plain simple : Context} (hShadows : Shadows plain simple)
    {bases : Bases} {expression : Expression} {value : Nat}
    (hValue : expression.value? bases plain.knowledge = some value) :
    expression.value? bases simple.knowledge = some value := by
  have hAtom : ∀ (atom : Atom) (number : Nat), atom.value? bases plain.knowledge = some number →
      atom.value? bases simple.knowledge = some number := by
    intro atom number hNumber
    cases atom with
    | number span found => exact hNumber
    | reference cell =>
        rw [Atom.value?, Reference.value?] at hNumber ⊢
        cases hIndex : cell.index with
        | none =>
            rw [hIndex] at hNumber
            exact hShadows.knows? cell.name number hNumber
        | some index =>
            rw [hIndex] at hNumber
            simp [Context.knowledge] at hNumber
  cases expression with
  | atom span atom => exact hAtom atom value hValue
  | operation span left operator right =>
      obtain ⟨first, second, hFirst, hSecond, rfl⟩ := Expression.value?_operation hValue
      rw [Expression.value?, hAtom left first hFirst, hAtom right second hSecond]
      rfl

namespace Abreast

variable {opened plain simple compiled : Context} {bases : Bases} {names : Names}
  (hAbreast : Abreast opened bases names plain simple)

include hAbreast

private theorem recalledBy_of_self {target : Reference} {value : Expression}
    (hSelf : value.simplify.isCell target = true)
    (hRun : (assign target value).run.run plain = (.ok (), compiled)) :
    compiled.setting.RecalledBy simple.setting := by
  intro name number hRecall
  rw [Context.assign_recalls hAbreast.plain.prepared.toTidy hAbreast.plain.prepared.bases
    hAbreast.plain.scopes hRun, Reference.remember] at hRecall
  cases hIndex : target.index with
  | some index =>
      rw [hIndex] at hRecall
      exact hAbreast.recalled name number hRecall
  | none =>
      rw [hIndex] at hRecall
      simp only [Function.update_apply] at hRecall
      split at hRecall
      · rename_i hName
        split at hRecall
        · have hSimple := Expression.value?_simplify hRecall
          have hCell : value.simplify.value? bases plain.knowledge = plain.knows? target.name := by
            unfold Expression.isCell at hSelf
            split at hSelf
            · rename_i span other hAtom
              rw [hAtom, Expression.value?, Atom.value?, ← Reference.value?_of_sameCell hSelf,
                Reference.value?, hIndex]
              rfl
            · cases hSelf
          rw [hCell] at hSimple
          rw [hName]
          exact hAbreast.recalled _ _ (Context.recalls_of_knows? hSimple)
        · cases hRecall
      · exact hAbreast.recalled name number hRecall

private theorem assign_upholds (span : Source.Span) {target : Reference} {value : Expression}
    (hRun : (assign target value).run.run plain = (.ok (), compiled)) :
    Upholds (compileCommand (.assign span target value.simplify)) simple compiled.setting := by
  have hPlain := hAbreast.plain
  have hSimple := hAbreast.simple
  have hNeeds := (assign_costs hPlain.prepared.toSound hPlain.prepared.bases hPlain.balanced target
    value).needs () compiled hRun
  have hCosts := assign_costs hSimple.prepared.toSound hSimple.prepared.bases hSimple.balanced target
    value.simplify
  rw [compileCommand]
  constructor
  · intro after hThere name number hRecall
    rw [Context.assign_recalls hPlain.prepared.toTidy hPlain.prepared.bases hPlain.scopes hRun]
      at hRecall
    rw [Context.assign_recalls hSimple.prepared.toTidy hSimple.prepared.bases hSimple.scopes hThere]
    apply Reference.remember_mono hAbreast.recalled _ name number hRecall
    intro known hKnown
    split at hKnown
    · rename_i hOutside
      rw [if_pos (hAbreast.depth_eq_zero hOutside)]
      exact Expression.value?_simplify
        (Expression.value?_knowledge hAbreast.toShadows hKnown)
    · cases hKnown
  · intro fault after hThere
    rw [← Bool.not_eq_true]
    intro hFault
    exact hCosts.sober fault after hThere hFault (hAbreast.vacant_expression hNeeds)

private theorem read_upholds (span : Source.Span) {target : Reference}
    (hRun : (readInput target).run.run plain = (.ok (), compiled)) :
    Upholds (compileCommand (.read span target)) simple compiled.setting := by
  have hPlain := hAbreast.plain
  have hSimple := hAbreast.simple
  rw [compileCommand]
  constructor
  · intro after hThere name number hRecall
    rw [Context.readInput_recalls hPlain.prepared.toTidy hPlain.prepared.bases hPlain.scopes hRun]
      at hRecall
    rw [Context.readInput_recalls hSimple.prepared.toTidy hSimple.prepared.bases hSimple.scopes
      hThere]
    exact Reference.remember_mono hAbreast.recalled (fun _ hKnown => hKnown) name number hRecall
  · exact fun fault after hThere => Frugal.sober simple fault after hThere hSimple.balanced

private theorem write_upholds (span : Source.Span) {value : Atom}
    (hRun : (writeOutput value).run.run plain = (.ok (), compiled)) :
    Upholds (compileCommand (.write span value)) simple compiled.setting := by
  have hPlain := hAbreast.plain
  have hSimple := hAbreast.simple
  rw [compileCommand]
  constructor
  · intro after hThere name number hRecall
    rw [Context.writeOutput_recalls hPlain.prepared.toTidy hPlain.prepared.bases hRun] at hRecall
    rw [Context.writeOutput_recalls hSimple.prepared.toTidy hSimple.prepared.bases hThere]
    exact hAbreast.recalled name number hRecall
  · exact fun fault after hThere => Frugal.sober simple fault after hThere hSimple.balanced

end Abreast

/-! ### Constructs -/

structure Inner (opened : Context) (bases : Bases) (names : Names) (context inside : Context) :
    Prop where
  standing : opened.Standing inside bases names
  options : inside.options = context.options
  depth : inside.depth = context.depth + 1
  loops : inside.loops = context.loops
  cells : context.setting.Resembles inside.setting

private theorem inner_of_lead {opened context inside : Context} {bases : Bases}
    {declarations : List Declaration} {iterators : List String}
    (hStanding : opened.Standing context bases ⟨declarations, iterators⟩) {command : Command}
    {body : Body} (hBody : body ∈ command.bodies) (hNames : body.names = []) {note : body.Note}
    (hLead : body.lead.run.run context = (.ok note, inside)) :
    Inner opened bases ⟨declarations, iterators⟩ context inside := by
  have hPrepared := hStanding.prepared
  have hInside := standing_of_lead hStanding hBody hLead
  have hEntrance := Context.entrance_of_lead hPrepared hBody hLead
  rw [hNames] at hInside hEntrance
  refine ⟨hInside, hEntrance.options, hEntrance.depth, ?_, ?_⟩
  · cases command with
    | assign | read | write | skip => cases hBody
    | ifThen span condition commands =>
        cases List.mem_singleton.mp hBody
        obtain ⟨_, tested, hTest, hDescend⟩ := exists_of_run_bind hLead
        cases hDescend
        exact (testCondition_keeps hPrepared hTest).2
    | ifElse span condition commands orElse =>
        cases List.mem_cons.mp hBody with
        | inl hFirst =>
            cases hFirst
            obtain ⟨_, tested, hTest, hDescend⟩ := exists_of_run_bind hLead
            cases hDescend
            exact (testCondition_keeps hPrepared hTest).2
        | inr hSecond =>
            cases List.mem_singleton.mp hSecond
            obtain ⟨_, tested, hTest, hRun⟩ := exists_of_run_bind hLead
            obtain ⟨_, _, hDescend, hRun⟩ := exists_of_run_bind hRun
            cases hDescend
            obtain ⟨_, bodied, hCommands, hSwitch⟩ := exists_of_run_bind hRun
            have hTested := (Context.entrance_of_test hPrepared hTest).1
            obtain ⟨hCompiles, hTidy⟩ := (Context.compileCommands_ensures
              (named_of_compileCommands hCommands) _ hTested.prepared).of_run hCommands
            rw [(switchBranch_keeps hTidy.toSound hSwitch).2, hCompiles.loops]
            exact (testCondition_keeps hPrepared hTest).2
    | whileLoop span condition commands =>
        cases List.mem_singleton.mp hBody
        exact (whileLead_keeps hPrepared hLead).2
    | forLoop span iterator first last direction commands =>
        cases List.mem_singleton.mp hBody
        cases hNames
  · cases hEntrance.setting with
    | construct hSame => exact hSame

namespace Abreast

variable {opened plain simple compiled : Context} {bases : Bases} {names : Names}
  {declarations : List Declaration} {iterators : List String}

private theorem enter {first second : Context} (hAbreast : Abreast opened bases names plain simple)
    (hFirst : Inner opened bases names plain first)
    (hSecond : Inner opened bases names simple second)
    (hRecall : first.setting.RecalledBy second.setting) :
    Abreast opened bases names first second where
  options := by rw [hSecond.options, hFirst.options, hAbreast.options]
  depth := by
    rw [hSecond.depth, hFirst.depth]
    exact Nat.succ_le_succ hAbreast.depth
  loops := by rw [hSecond.loops, hFirst.loops, hAbreast.loops]
  shallow := by
    rw [hSecond.loops, hSecond.depth]
    exact Nat.le_succ_of_le hAbreast.shallow
  cells := (hFirst.cells.symm.sameCells.trans hAbreast.cells).trans hSecond.cells.sameCells
  recalled := hRecall
  plain := hFirst.standing
  simple := hSecond.standing

private theorem lift {first : Context} (hAbreast : Abreast opened bases names plain simple)
    (hFirst : Inner opened bases names plain first)
    (hRecall : first.setting.RecalledBy plain.setting) :
    Abreast opened bases names first simple where
  options := by rw [hFirst.options, hAbreast.options]
  depth := by
    rw [hFirst.depth]
    exact Nat.le_succ_of_le hAbreast.depth
  loops := by rw [hFirst.loops, hAbreast.loops]
  shallow := hAbreast.shallow
  cells := hFirst.cells.symm.sameCells.trans hAbreast.cells
  recalled := hRecall.trans hAbreast.recalled
  plain := hFirst.standing
  simple := hAbreast.simple

/-- The commands of a body take the place of a construct. -/
theorem lifted_upholds (hAbreast : Abreast opened bases ⟨declarations, iterators⟩ plain simple)
    {command : Command} {body : Body} (hBody : body ∈ command.bodies) (hNames : body.names = [])
    (hRun : (compileCommand command).run.run plain = (.ok (), compiled)) {commands : List Command}
    (hCommands : ∀ inside bodied, Abreast opened bases ⟨declarations, iterators⟩ inside simple →
      (compileCommands body.commands).run.run inside = (.ok (), bodied) →
      Upholds (compileCommands commands) simple bodied.setting) :
    Upholds (compileCommands commands) simple compiled.setting := by
  have hPrepared := hAbreast.plain.prepared
  obtain ⟨note, inside, bodied, hLead, hInside, hTrail⟩ := exists_of_compileCommand hRun hBody
  have hInner := inner_of_lead hAbreast.plain hBody hNames hLead
  apply (hCommands inside bodied (hAbreast.lift hInner (lead_recalledBy hPrepared hBody hLead))
    hInside).mono
  exact trail_recalledBy hPrepared hBody hLead hInside hTrail

/-- No command takes the place of a construct. -/
theorem dropped_upholds (hAbreast : Abreast opened bases names plain simple) {command : Command}
    {body : Body} (hBody : body ∈ command.bodies)
    (hRun : (compileCommand command).run.run plain = (.ok (), compiled)) :
    Upholds (compileCommands []) simple compiled.setting := by
  apply Upholds.idle
  exact (construct_recalledBy hAbreast.plain.prepared hBody hRun).trans hAbreast.recalled

private theorem testCondition_sober (hAbreast : Abreast opened bases names plain simple)
    {condition : Condition} {tested : Context}
    (hTest : (testCondition condition).run.run plain = (.ok (), tested)) {fault : GeneratorFault}
    {after : Context}
    (hRun : (testCondition condition.simplify).run.run simple = (.error fault, after)) :
    fault.isExhaustion = false := by
  have hPlain := hAbreast.plain
  have hSimple := hAbreast.simple
  have hNeeds := (testCondition_costs hPlain.prepared.toSound hPlain.prepared.bases hPlain.balanced
    condition).needs () tested hTest
  have hCosts := testCondition_costs hSimple.prepared.toSound hSimple.prepared.bases
    hSimple.balanced condition.simplify
  rw [← Bool.not_eq_true]
  intro hFault
  exact hCosts.sober fault after hRun hFault (hAbreast.vacant_condition hNeeds)

private theorem branch_upholds
    (hAbreast : Abreast opened bases ⟨declarations, iterators⟩ plain simple) (span : Source.Span)
    {condition : Condition} {tested bodied : Context}
    (hTest : (testCondition condition).run.run plain = (.ok (), tested))
    {simpleBody simpleElse : List Command} {setting : Setting}
    (hFirst : ∀ inside, Abreast opened bases ⟨declarations, iterators⟩
      (tested.atDepth (tested.depth + 1)) inside →
      Upholds (compileCommands simpleBody) inside bodied.setting)
    (hSecond : ∀ switched, Inner opened bases ⟨declarations, iterators⟩ simple switched →
      bodied.setting.RecalledBy switched.setting →
      Upholds (compileCommands simpleElse) switched setting) :
    Upholds (compileCommand (.ifElse span condition.simplify simpleBody simpleElse)) simple
      setting := by
  have hBody : _ ∈ (Command.ifThen span condition []).bodies := List.mem_cons_self
  have hPlainInner := inner_of_lead hAbreast.plain hBody rfl (run_bind_of_run hTest)
  have hThen : _ ∈ (Command.ifElse span condition.simplify simpleBody simpleElse).bodies :=
    List.mem_cons_self
  have hElse : _ ∈ (Command.ifElse span condition.simplify simpleBody simpleElse).bodies :=
    List.mem_cons_of_mem _ List.mem_cons_self
  rw [Command.compile_eq hThen]
  apply Upholds.bind
  · intro fault after hRun
    rcases error_of_run_bind hRun with hFails | ⟨_, _, -, hDescend⟩
    · exact hAbreast.testCondition_sober hTest hFails
    · cases hDescend
  intro _ inside hLead
  have hInner := inner_of_lead hAbreast.simple hThen rfl hLead
  obtain ⟨_, simpleTested, hSimpleTest, hDescend⟩ := exists_of_run_bind hLead
  cases hDescend
  have hSimpleSetting := (testCondition_keeps hAbreast.simple.prepared hSimpleTest).1
  have hPlainSetting := (testCondition_keeps hAbreast.plain.prepared hTest).1
  have hRecall : tested.setting.RecalledBy simpleTested.setting := by
    rw [hSimpleSetting, hPlainSetting]
    exact hAbreast.recalled
  have hBodyUpholds := hFirst _ (hAbreast.enter hPlainInner hInner hRecall)
  apply Upholds.bind hBodyUpholds.sober
  intro _ simpleBodied hBodied
  have hTidy := ((Context.compileCommands_ensures (named_of_compileCommands hBodied) _
    hInner.standing.prepared).of_run hBodied).2
  apply Upholds.bind (Aloof.sober simpleBodied)
  intro _ switched hSwitch
  have hSwitched := inner_of_lead hAbreast.simple hElse rfl ((run_bind_of_run hSimpleTest).trans
    ((run_bind_of_run rfl).trans ((run_bind_of_run hBodied).trans hSwitch)))
  have hElseUpholds := hSecond switched hSwitched (by
    rw [(switchBranch_keeps hTidy.toSound hSwitch).1]
    exact hBodyUpholds.recalled simpleBodied hBodied)
  apply Upholds.bind hElseUpholds.sober
  intro _ closed hClosed
  have hClosedTidy := ((Context.compileCommands_ensures (named_of_compileCommands hClosed) _
    hSwitched.standing.prepared).of_run hClosed).2
  constructor
  · intro after hLeave
    rw [leaveBranch_setting hClosedTidy.toSound hLeave]
    exact hElseUpholds.recalled closed hClosed
  · exact Aloof.sober closed

end Abreast

/-- The test of a WHILE loop stands inside it, where nothing is known. -/
theorem Generating.whileLead_costs {context : Context} {bases : Bases}
    (hPrepared : context.Prepared bases) (hBalanced : context.Balanced) (condition : Condition) :
    Costs (do
      clearCache
      forgetPointer
      let start ← nextLine
      descend
      testCondition condition
      return start) (condition.cells bases fun _ => none) context := by
  apply Costs.behind_frugal hBalanced
  intro _ cleared hClear hCleared
  have hTurns := ((Context.clearCache_ensures hPrepared.toSound).of_run hClear).1
  apply Costs.behind_frugal hCleared
  intro _ forgotten hForget hForgotten
  cases hForget
  apply Costs.behind_frugal hForgotten
  intro start _ hLine hNext
  cases hLine
  apply Costs.behind_frugal hNext
  intro _ deeper hDescend hDeeper
  cases hDescend
  let inside : Context := { cleared with pointer := none, depth := cleared.depth + 1 }
  have hSound : inside.Sound := ⟨hTurns.sound.store, hTurns.sound.size, hTurns.sound.dynamics,
    hTurns.sound.distinct, hTurns.sound.recorded⟩
  have hBases : inside.setting.HasBases bases := hTurns.setting ▸ hPrepared.bases
  have hKnows : inside.knows? = fun _ => none := Context.knows?_deep (Nat.succ_pos _)
  rw [← hKnows]
  exact (testCondition_costs hSound hBases hDeeper condition).before_aloof

namespace Abreast

variable {opened plain simple compiled : Context} {bases : Bases} {names : Names}
  {declarations : List Declaration} {iterators : List String}

private theorem while_upholds
    (hAbreast : Abreast opened bases ⟨declarations, iterators⟩ plain simple) (span : Source.Span)
    {condition : Condition} {body simpleBody : List Command}
    (hRun : (compileCommand (.whileLoop span condition body)).run.run plain = (.ok (), compiled))
    (hBody : ∀ first second bodied, Abreast opened bases ⟨declarations, iterators⟩ first second →
      (compileCommands body).run.run first = (.ok (), bodied) →
      Upholds (compileCommands simpleBody) second bodied.setting) :
    Upholds (compileCommand (.whileLoop span condition.simplify simpleBody)) simple
      compiled.setting := by
  have hHere : _ ∈ (Command.whileLoop span condition body).bodies := List.mem_cons_self
  have hThere : _ ∈ (Command.whileLoop span condition.simplify simpleBody).bodies :=
    List.mem_cons_self
  have hPlain := hAbreast.plain
  have hSimple := hAbreast.simple
  obtain ⟨start, first, bodied, hLead, hCommands, hTrail⟩ := exists_of_compileCommand hRun hHere
  have hFirst := inner_of_lead hPlain hHere rfl hLead
  have hNeeds := (whileLead_costs hPlain.prepared hPlain.balanced condition).needs start first hLead
  have hVacant := (hNeeds.congr hAbreast.cells).mono
    (Condition.cells_simplify_le bases (fun _ => none) condition)
  apply Upholds.mono _ (trail_recalledBy hPlain.prepared hHere hLead hCommands hTrail)
  rw [Command.compile_eq hThere]
  apply Upholds.bind
  · intro fault after hFails
    rw [← Bool.not_eq_true]
    intro hFault
    exact (whileLead_costs hSimple.prepared hSimple.balanced condition.simplify).sober fault after
      hFails hFault hVacant
  intro note second hSimpleLead
  have hSecond := inner_of_lead hSimple hThere rfl hSimpleLead
  have hRecall : first.setting.RecalledBy second.setting := by
    rw [(whileLead_keeps hPlain.prepared hLead).1, (whileLead_keeps hSimple.prepared hSimpleLead).1]
    exact hAbreast.recalled
  have hUpholds := hBody first second bodied (hAbreast.enter hFirst hSecond hRecall) hCommands
  apply Upholds.bind hUpholds.sober
  intro _ simpleBodied hBodied
  have hTidy := ((Context.compileCommands_ensures (named_of_compileCommands hBodied) _
    hSecond.standing.prepared).of_run hBodied).2
  constructor
  · intro after hLeave
    rw [whileTrail_setting hTidy.toSound hLeave]
    exact hUpholds.recalled simpleBodied hBodied
  · exact Aloof.sober simpleBodied

end Abreast

/-! ### Counting loops -/

theorem Setting.Occupies.vacant {before after : Setting} {cell : Address}
    (hOccupies : before.Occupies after cell) : before.Vacant 1 :=
  fun _ => ⟨_, hOccupies.lowest.run⟩

namespace Generating

variable {context inside after : Context} {bases : Bases}

/-- The opening code of a counting loop takes the two lowest cells. -/
theorem forLead_takes (hPrepared : context.Prepared bases) (hBalanced : context.Balanced)
    {position : Source.Position} {iterator : String} {first last : Atom} {direction : Direction}
    {cells : LoopCells} {start : Nat}
    (hLead : (do
      let cells ← openLoop position iterator first last direction
      clearCache
      forgetPointer
      let start ← nextLine
      descend
      testLoop cells
      return (cells, start)).run.run context = (.ok (cells, start), inside)) :
    ∃ middle inner, context.setting.Occupies middle cells.counter ∧
      middle.Occupies inner cells.iterator ∧ inner.SameCells inside.setting := by
  obtain ⟨found, opened, hOpen, hRest⟩ := exists_of_run_bind hLead
  have hOpened := (openLoop_books hPrepared.toSound hPrepared.bases hBalanced hOpen).balanced
  obtain ⟨middle, inner, hCounter, hIterator, hSame⟩ := openLoop_takes hBalanced hOpen
  have hSpace := Frugal.space opened _ inside hRest hOpened
  have hFound : found = cells := by
    obtain ⟨_, _, -, hRest⟩ := exists_of_run_bind hRest
    obtain ⟨_, _, -, hRest⟩ := exists_of_run_bind hRest
    obtain ⟨_, _, -, hRest⟩ := exists_of_run_bind hRest
    obtain ⟨_, _, -, hRest⟩ := exists_of_run_bind hRest
    obtain ⟨_, _, -, hPure⟩ := exists_of_run_bind hRest
    cases hPure
    rfl
  rw [hFound] at hCounter hIterator
  exact ⟨middle, inner, hCounter, hIterator, hSame.trans (sameCells_of_space hSpace)⟩

theorem forLead_sober (hPrepared : context.Prepared bases) (hBalanced : context.Balanced)
    {position : Source.Position} {iterator : String} {first last : Atom} {direction : Direction}
    (hVacant : context.setting.Vacant 1)
    (hAgain : ∀ middle cell, context.setting.Occupies middle cell → middle.Vacant 1)
    {fault : GeneratorFault}
    (hRun : (do
      let cells ← openLoop position iterator first last direction
      clearCache
      forgetPointer
      let start ← nextLine
      descend
      testLoop cells
      return (cells, start)).run.run context = (.error fault, after)) :
    fault.isExhaustion = false := by
  rcases error_of_run_bind hRun with hFails | ⟨cells, opened, hOpen, hRest⟩
  · rw [← Bool.not_eq_true]
    intro hFault
    exact not_vacant_of_openLoop hBalanced hFails hFault hVacant hAgain
  · apply Frugal.sober opened fault after hRest
    exact (openLoop_books hPrepared.toSound hPrepared.bases hBalanced hOpen).balanced

theorem forTrail_sober (hBalanced : context.Balanced) (iterator : String) (cells : LoopCells)
    (direction : Direction) (start : Nat) {fault : GeneratorFault}
    (hRun : (do
      clearCache
      stepLoop cells direction start
      landHere
      closeLoop iterator cells
      ascend).run.run context = (.error fault, after)) : fault.isExhaustion = false := by
  rcases error_of_run_bind hRun with hClear | ⟨_, cleared, hClear, hRun⟩
  · exact Aloof.sober _ _ _ hClear
  have hCleared := Orderly.balanced context _ cleared hClear hBalanced
  rcases error_of_run_bind hRun with hStep | ⟨_, stepped, -, hRun⟩
  · exact Frugal.sober cleared fault after hStep hCleared
  rcases error_of_run_bind hRun with hLand | ⟨_, landed, -, hRun⟩
  · exact Aloof.sober _ _ _ hLand
  rcases error_of_run_bind hRun with hClose | ⟨_, closed, -, hAscend⟩
  · exact closeLoop_sober iterator cells landed fault after hClose
  · cases hAscend

end Generating

namespace Abreast

variable {opened plain simple compiled : Context} {bases : Bases}
  {declarations : List Declaration} {iterators : List String}

/-- Both enter a counting loop. -/
theorem for_upholds (hAbreast : Abreast opened bases ⟨declarations, iterators⟩ plain simple)
    (span : Source.Span) {iterator : String} {first last : Atom} {direction : Direction}
    {body simpleBody : List Command}
    (hRun : (compileCommand (.forLoop span iterator first last direction body)).run.run plain =
      (.ok (), compiled))
    (hBody : ∀ one two bodied, Abreast opened bases ⟨declarations, iterator :: iterators⟩ one two →
      (compileCommands body).run.run one = (.ok (), bodied) →
      Upholds (compileCommands simpleBody) two bodied.setting) :
    Upholds (compileCommand (.forLoop span iterator first last direction simpleBody)) simple
      compiled.setting := by
  have hHere : _ ∈ (Command.forLoop span iterator first last direction body).bodies :=
    List.mem_cons_self
  have hThere : _ ∈ (Command.forLoop span iterator first last direction simpleBody).bodies :=
    List.mem_cons_self
  have hPlain := hAbreast.plain
  have hSimple := hAbreast.simple
  obtain ⟨⟨cells, start⟩, one, bodied, hLead, hCommands, hTrail⟩ :=
    exists_of_compileCommand hRun hHere
  obtain ⟨middle, inner, hCounter, hIterator, hInner⟩ :=
    forLead_takes hPlain.prepared hPlain.balanced hLead
  obtain ⟨handle, owner, hInside⟩ := forLead_inside hPlain.prepared hLead
  have hEntrance := Context.entrance_of_lead hPlain.prepared hHere hLead
  apply Upholds.mono _ (trail_recalledBy hPlain.prepared hHere hLead hCommands hTrail)
  rw [Command.compile_eq hThere]
  apply Upholds.bind
  · intro fault after hFails
    apply forLead_sober hSimple.prepared hSimple.balanced _ _ hFails
    · exact hCounter.vacant.congr hAbreast.cells
    · intro other cell hOther
      exact hIterator.vacant.congr (hCounter.congr hOther hAbreast.cells).2
  rintro ⟨simpleCells, simpleStart⟩ two hSimpleLead
  obtain ⟨otherMiddle, otherInner, hOtherCounter, hOtherIterator, hOtherInner⟩ :=
    forLead_takes hSimple.prepared hSimple.balanced hSimpleLead
  obtain ⟨simpleHandle, simpleOwner, hSimpleInside⟩ := forLead_inside hSimple.prepared hSimpleLead
  have hSimpleEntrance := Context.entrance_of_lead hSimple.prepared hThere hSimpleLead
  have hBoth : Abreast opened bases ⟨declarations, iterator :: iterators⟩ one two := by
    constructor
    · constructor
      · rw [hSimpleEntrance.options, hEntrance.options, hAbreast.options]
      · rw [hSimpleEntrance.depth, hEntrance.depth]
        exact Nat.succ_le_succ hAbreast.depth
      · rw [hSimpleInside.loops, hInside.loops, hAbreast.loops]
      · rw [hSimpleInside.loops, hSimpleEntrance.depth]
        exact Nat.succ_le_succ hAbreast.shallow
      · have hMiddles := (hCounter.congr hOtherCounter hAbreast.cells).2
        have hInners := (hIterator.congr hOtherIterator hMiddles).2
        exact (hInner.symm.trans hInners).trans hOtherInner
      · intro name value hRecall
        rw [hInside.recalls_inside] at hRecall
        rw [hSimpleInside.recalls_inside]
        exact hAbreast.recalled name value hRecall
    · exact standing_of_lead hPlain hHere hLead
    · exact standing_of_lead hSimple hThere hSimpleLead
  have hUpholds := hBody one two bodied hBoth hCommands
  apply Upholds.bind hUpholds.sober
  intro _ simpleBodied hBodied
  obtain ⟨hCompiles, hTidy⟩ := (Context.compileCommands_ensures (named_of_compileCommands hBodied) _
    hSimpleEntrance.prepared).of_run hBodied
  have hDeep : 0 < two.depth := by
    rw [hSimpleEntrance.depth]
    exact Nat.succ_pos _
  constructor
  · intro after hLeave name value hRecall
    rw [hSimpleInside.recalls_outside hSimple.prepared hDeep hCompiles hTidy hLeave]
    exact hUpholds.recalled simpleBodied hBodied name value hRecall
  · intro fault after hFails
    exact forTrail_sober (standing_of_commands hBoth.simple hBodied).balanced iterator simpleCells
      direction simpleStart hFails

end Abreast

/-! ### Programs -/

theorem Generating.compileCommands_append (first second : List Command) :
    compileCommands (first ++ second) =
      compileCommands first >>= fun _ => compileCommands second := by
  induction first with
  | nil =>
      rw [List.nil_append, compileCommands]
      rfl
  | cons command rest inductionHypothesis =>
      rw [List.cons_append, compileCommands, compileCommands, inductionHypothesis]
      simp only [bind_assoc]

namespace Command

variable {opened : Context} {bases : Bases} {declarations : List Declaration}

mutual

/-- The commands in the place of a command find the cells they need, and behind them all is
remembered that is remembered behind the command. -/
theorem simplify_upholds {command : Command} {iterators : List String}
    {plain simple compiled : Context}
    (hAbreast : Abreast opened bases ⟨declarations, iterators⟩ plain simple)
    (hRun : (compileCommand command).run.run plain = (.ok (), compiled)) :
    Upholds (compileCommands command.simplify) simple compiled.setting := by
  have hPrepared := hAbreast.simple.prepared
  cases command with
  | assign span target value =>
      rw [compileCommand] at hRun
      rw [simplify]
      split
      · rename_i hSelf
        exact .idle (hAbreast.recalledBy_of_self hSelf hRun)
      · exact .single hPrepared (hAbreast.assign_upholds span hRun)
  | read span target =>
      rw [compileCommand] at hRun
      exact .single hPrepared (hAbreast.read_upholds span hRun)
  | write span value =>
      rw [compileCommand] at hRun
      exact .single hPrepared (hAbreast.write_upholds span hRun)
  | skip span =>
      rw [compileCommand] at hRun
      cases hRun
      apply Upholds.single hPrepared
      rw [compileCommand]
      have hIdle := Upholds.idle hAbreast.recalled
      rw [compileCommands] at hIdle
      exact hIdle
  | ifThen span condition body =>
      have hBody : _ ∈ (ifThen span condition body).bodies := List.mem_cons_self
      rw [simplify]
      split
      · apply hAbreast.lifted_upholds hBody rfl hRun
        exact fun _ _ hInside hCommands => simplifyAll_upholds hInside hCommands
      · exact hAbreast.dropped_upholds hBody hRun
      · obtain ⟨_, inside, bodied, hLead, hCommands, hTrail⟩ := exists_of_compileCommand hRun hBody
        have hEntrance := Context.entrance_of_lead hAbreast.plain.prepared hBody hLead
        have hTidy := ((Context.compileCommands_ensures (named_of_compileCommands hCommands) _
          hEntrance.prepared).of_run hCommands).2
        obtain ⟨_, tested, hTest, hDescend⟩ := exists_of_run_bind hLead
        cases hDescend
        apply Upholds.single hPrepared
        apply hAbreast.branch_upholds span hTest
        · exact fun _ hInside => simplifyAll_upholds hInside hCommands
        · intro switched _ hRecall
          apply Upholds.idle
          rw [leaveBranch_setting hTidy.toSound hTrail]
          exact hRecall
  | ifElse span condition body orElse =>
      have hThen : _ ∈ (ifElse span condition body orElse).bodies := List.mem_cons_self
      have hElse : _ ∈ (ifElse span condition body orElse).bodies :=
        List.mem_cons_of_mem _ List.mem_cons_self
      rw [simplify]
      split
      · apply hAbreast.lifted_upholds hThen rfl hRun
        exact fun _ _ hInside hCommands => simplifyAll_upholds hInside hCommands
      · apply hAbreast.lifted_upholds hElse rfl hRun
        exact fun _ _ hInside hCommands => simplifyAll_upholds hInside hCommands
      · obtain ⟨_, inside, bodied, hLead, hCommands, hTrail⟩ := exists_of_compileCommand hRun hThen
        have hEntrance := Context.entrance_of_lead hAbreast.plain.prepared hThen hLead
        have hTidy := ((Context.compileCommands_ensures (named_of_compileCommands hCommands) _
          hEntrance.prepared).of_run hCommands).2
        obtain ⟨_, tested, hTest, hDescend⟩ := exists_of_run_bind hLead
        cases hDescend
        obtain ⟨_, switched, hSwitch, hRest⟩ := exists_of_run_bind hTrail
        obtain ⟨_, closed, hClosed, hLeave⟩ := exists_of_run_bind hRest
        have hInner := inner_of_lead hAbreast.plain hElse rfl ((run_bind_of_run hTest).trans
          ((run_bind_of_run rfl).trans ((run_bind_of_run hCommands).trans hSwitch)))
        have hClosedTidy := ((Context.compileCommands_ensures (named_of_compileCommands hClosed) _
          hInner.standing.prepared).of_run hClosed).2
        apply Upholds.single hPrepared
        apply hAbreast.branch_upholds span hTest
        · exact fun _ hInside => simplifyAll_upholds hInside hCommands
        · intro other hOther hRecall
          rw [← (switchBranch_keeps hTidy.toSound hSwitch).1] at hRecall
          rw [leaveBranch_setting hClosedTidy.toSound hLeave]
          exact simplifyAll_upholds (hAbreast.enter hInner hOther hRecall) hClosed
  | whileLoop span condition body =>
      have hBody : _ ∈ (whileLoop span condition body).bodies := List.mem_cons_self
      rw [simplify]
      split
      · exact hAbreast.dropped_upholds hBody hRun
      · apply Upholds.single hPrepared
        apply hAbreast.while_upholds span hRun
        exact fun _ _ _ hInside hCommands => simplifyAll_upholds hInside hCommands
  | forLoop span iterator first last direction body =>
      have hBody : _ ∈ (forLoop span iterator first last direction body).bodies :=
        List.mem_cons_self
      rw [simplify]
      split
      · exact hAbreast.dropped_upholds hBody hRun
      · apply Upholds.single hPrepared
        apply hAbreast.for_upholds span hRun
        exact fun _ _ _ hInside hCommands => simplifyAll_upholds hInside hCommands

theorem simplifyAll_upholds {commands : List Command} {iterators : List String}
    {plain simple after : Context}
    (hAbreast : Abreast opened bases ⟨declarations, iterators⟩ plain simple)
    (hRun : (compileCommands commands).run.run plain = (.ok (), after)) :
    Upholds (compileCommands (simplifyAll commands)) simple after.setting := by
  cases commands with
  | nil =>
      rw [compileCommands] at hRun
      cases hRun
      exact .idle hAbreast.recalled
  | cons command rest =>
      obtain ⟨compiled, settled, hCompile, hSettle, hRest⟩ := exists_of_compileCommands_cons hRun
      have hUpholds := simplify_upholds hAbreast hCompile
      rw [simplifyAll, compileCommands_append]
      apply Upholds.bind hUpholds.sober
      intro _ middle hMiddle
      obtain ⟨-, hCompiles⟩ :=
        Context.settles_of_runs hAbreast.plain.prepared hCompile hSettle
      have hSound := ((Context.compileCommand_ensures (named_of_compileCommand hCompile)
        hAbreast.plain.prepared).of_run hCompile).extended.sound
      have hTurns := ((Context.tidyUp_ensures hSound).of_run hSettle).1
      obtain ⟨hSimpler, -⟩ := (Context.compileCommands_ensures (named_of_compileCommands hMiddle) _
        hAbreast.simple.prepared).of_run hMiddle
      have hBehind : Abreast opened bases ⟨declarations, iterators⟩ settled middle := by
        constructor
        · apply hAbreast.advance hCompiles hSimpler
          rw [hTurns.setting]
          exact hUpholds.recalled middle hMiddle
        · exact (standing_of_settle hAbreast.plain hCompile hSettle).1
        · exact standing_of_commands hAbreast.simple hMiddle
      exact simplifyAll_upholds hBehind hRest

end

end Command

/-- A simplified program is not compiled for want of memory only if the program is not. -/
theorem Context.generate_simplify_sober {options : GeneratorOptions}
    (hRegisters : GeneratorOptions.leastRegisters ≤ options.registers)
    (hLayout : options.layout.fault? = none) {program : Program} {after simplified : Context}
    (hPlain : (Context.empty options).generate program = (.ok (), after)) {fault : GeneratorFault}
    (hSimple : (Context.empty options).generate program.simplify = (.error fault, simplified)) :
    fault.isExhaustion = false := by
  obtain ⟨opened, compiled, hDeclare, hCompile, -⟩ := exists_of_generate hPlain
  have hGenerates := Generates.of_runs hRegisters hLayout hDeclare hCompile
  have hStanding := standing_of_opening hGenerates.opening
    (declareAll_furnished (opening_empty hRegisters hLayout) (furnished_empty options) hDeclare)
  have hLoops : opened.loops = 0 := by
    rw [hGenerates.opening.blank]
    rfl
  have hAbreast : Abreast opened (Placement.bases opened.placements.toList)
      ⟨program.declarations, []⟩ opened opened :=
    ⟨⟨rfl, Nat.le_refl _, rfl, hLoops ▸ Nat.zero_le _, .refl _, .of_eq rfl⟩, hStanding, hStanding⟩
  have hUpholds := Command.simplifyAll_upholds hAbreast hCompile
  rcases error_of_run_bind hSimple with hFails | ⟨_, found, hFound, hSimple⟩
  · rw [show declareAll program.simplify.declarations = declareAll program.declarations from rfl,
      hDeclare] at hFails
    cases hFails
  rw [show declareAll program.simplify.declarations = declareAll program.declarations from rfl,
    hDeclare] at hFound
  cases hFound
  rcases error_of_run_bind hSimple with hFails | ⟨_, closed, -, hSimple⟩
  · exact hUpholds.sober fault simplified hFails
  rcases error_of_run_bind hSimple with hFails | ⟨_, stopped, -, hSimple⟩
  · cases hFails
  rcases error_of_run_bind hSimple with hFails | ⟨_, _, -, hSimple⟩
  · cases hFails
  dsimp only at hSimple
  split at hSimple
  · cases hSimple
    rfl
  · cases hSimple

end RegisterCompiler
