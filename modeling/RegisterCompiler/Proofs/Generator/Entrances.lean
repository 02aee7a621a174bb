/-
The names inside constructs.

The commands of a body are compiled behind the opening code of its construct, in a context
that is again one between two commands.  There every name plays the role it played before;
only the variable of a counting loop is new.
-/

import RegisterCompiler.Proofs.Generator.Compilation
import RegisterCompiler.Proofs.Generator.Visits
import RegisterCompiler.Proofs.Program.Legality

set_option autoImplicit false

namespace RegisterCompiler

open Generating (Ensures LoopCells)

/-! ### Roles -/

namespace Setting

/-- A name is declared as its role says, and not at all without one. -/
def Casts (setting : Setting) (name : String) : Option Role → Prop
  | none => setting.declared name = none
  | some .scalar => ∃ handle, setting.declared name = some (.scalar, .value handle)
  | some (.array length) => ∃ ref base, setting.declared name = some (.array, .array ref) ∧
      setting.array ref = (some base, (length : Int))
  | some .iterator => ∃ handle, setting.declared name = some (.iterator, .value handle)

def Scopes (setting : Setting) (names : Names) : Prop :=
  ∀ name, setting.Casts name (names.role? name)

variable {before inside : Setting} {names : Names}

private theorem Casts.congr {name : String} {role? : Option Role} (hCasts : before.Casts name role?)
    (hDeclared : inside.declared name = before.declared name)
    (hArray : inside.array = before.array) : inside.Casts name role? := by
  unfold Casts at hCasts ⊢
  rw [hDeclared, hArray]
  exact hCasts

theorem Scopes.resembles (hScopes : before.Scopes names) (hSame : before.Resembles inside) :
    inside.Scopes names := by
  intro name
  apply (hScopes name).congr
  · rw [hSame.declared]
  · rw [hSame]

private theorem Scopes.insideLoop (hScopes : before.Scopes names) (iterator : String)
    (cells : LoopCells) (owner handle : Handle) :
    (before.insideLoop iterator cells owner handle).Scopes (names.enter iterator) := by
  intro name
  rw [Names.role?_enter]
  by_cases hSame : name = iterator
  · rw [if_pos hSame, hSame]
    exact ⟨handle, Function.update_self _ _ _⟩
  · rw [if_neg hSame]
    exact (hScopes name).congr (Function.update_of_ne hSame _ _) rfl

theorem Declares.scopes {setting : Setting} {declarations : List Declaration}
    (hDeclares : setting.Declares declarations) : setting.Scopes ⟨declarations, []⟩ := by
  intro name
  rw [Names.role?, if_neg List.not_mem_nil]
  cases hFound : declarations.find? fun declaration => declaration.name == name with
  | none =>
      apply hDeclares.others name
      intro hMem
      obtain ⟨declaration, hDeclaration, hName⟩ := List.mem_map.mp hMem
      exact List.find?_eq_none.mp hFound declaration hDeclaration (beq_iff_eq.mpr hName)
  | some declaration =>
      have hName : declaration.name = name := by simpa using List.find?_some hFound
      have hStands := hDeclares.stands declaration (List.mem_of_find?_eq_some hFound)
      rw [Declaration.Stands, hName] at hStands
      rw [Option.map_some, Declaration.role]
      cases hLength : declaration.length with
      | none =>
          rw [hLength] at hStands
          exact hStands
      | some length =>
          rw [hLength] at hStands
          exact hStands

theorem Scopes.role?_eq_none_iff (hScopes : before.Scopes names) (name : String) :
    names.role? name = none ↔ before.declared name = none := by
  have hCasts := hScopes name
  unfold Casts at hCasts
  constructor
  · intro hNone
    rw [hNone] at hCasts
    exact hCasts
  · intro hNone
    rw [hNone] at hCasts
    split at hCasts
    · assumption
    · obtain ⟨_, hSome⟩ := hCasts
      cases hSome
    · obtain ⟨_, _, hSome, -⟩ := hCasts
      cases hSome
    · obtain ⟨_, hSome⟩ := hCasts
      cases hSome

/-- Inside a construct the setting is what it was, but for the variable of a loop. -/
inductive Enters (before : Setting) : List String → Setting → Prop
  | construct {inside : Setting} (hSame : before.Resembles inside) : Enters before [] inside
  | loop {inside : Setting} {iterator : String} {cells : LoopCells} {owner handle : Handle}
      (hAdmits : before.Admits iterator cells owner handle)
      (hInside : inside = before.insideLoop iterator cells owner handle) :
      Enters before [iterator] inside

theorem Scopes.enters {declarations : List Declaration} {iterators entered : List String}
    (hScopes : before.Scopes ⟨declarations, iterators⟩) (hEnters : before.Enters entered inside) :
    inside.Scopes ⟨declarations, entered ++ iterators⟩ := by
  cases hEnters with
  | construct hSame => exact hScopes.resembles hSame
  | loop _ hInside =>
      rw [hInside]
      exact hScopes.insideLoop _ _ _ _

end Setting

/-! ### Opening code -/

namespace Context

variable {bases : Bases} {context inside : Context}

/-- A command that was compiled and settled leads from one context between two commands to
the next. -/
theorem settles_of_runs (hPrepared : context.Prepared bases) {command : Command}
    {compiled settled : Context}
    (hCompile : (Generating.compileCommand command).run.run context = (.ok (), compiled))
    (hSettle : Generating.tidyUp.run.run compiled = (.ok (), settled)) :
    settled.Prepared bases ∧
      Compiles context settled fun bound scope => Command.execute bases bound scope command := by
  have hCompiles := (compileCommand_ensures (Generating.named_of_compileCommand hCompile)
    hPrepared).of_run hCompile
  obtain ⟨hTurns, hTidy, -⟩ := (tidyUp_ensures hCompiles.extended.sound).of_run hSettle
  have hSettles := hCompiles.before_idle (.of_turns hTurns)
  exact ⟨hPrepared.congr hTidy hSettles.extended.cells hSettles.loops, hSettles⟩

structure Entrance (before inside : Context) (bases : Bases) (names : List String) : Prop where
  prepared : inside.Prepared bases
  options : inside.options = before.options
  depth : inside.depth = before.depth + 1
  setting : before.setting.Enters names inside.setting

/-- Behind its test a branch is entered. -/
theorem entrance_of_test (hPrepared : context.Prepared bases) {condition : Condition}
    {tested : Context}
    (hTest : (Generating.testCondition condition).run.run context = (.ok (), tested)) :
    Entrance context (tested.atDepth (tested.depth + 1)) bases [] ∧
      tested.loops = context.loops ∧ ∃ label, 0 ≤ label.slot ∧
        tested.labels = label :: context.labels ∧ Extends label.slots context tested := by
  obtain ⟨label, holds?, hBranches, hTested, -⟩ :=
    (testCondition_ensures hPrepared.toTidy hPrepared.bases condition).of_run hTest
  have hSame : context.setting.Resembles tested.setting := .of_eq hBranches.setting
  constructor
  · constructor
    · exact hPrepared.congr (hTested.atDepth (tested.depth + 1)) hSame hBranches.loops
    · exact hBranches.extended.options
    · exact congrArg (· + 1) hBranches.depth
    · exact .construct hSame
  · exact ⟨hBranches.loops, label, hBranches.slot, hBranches.labels, hBranches.extended⟩

/-- Behind the first branch of a construct the second one is entered. -/
theorem switchBranch_ensures {base : Context} {label : Label} {rest : List Label}
    (hTidy : context.Tidy) (hLabels : context.labels = label :: rest) (hLow : 0 ≤ label.slot)
    (hExtends : Extends label.slots base context) :
    Ensures Generating.switchBranch context fun _ after =>
      after.Tidy ∧ after.loops = context.loops ∧ after.depth = context.depth ∧
        after.options = base.options ∧ base.setting.Resembles after.setting := by
  refine .bind (clearCache_ensures hTidy.toSound) ?_
  rintro - cleared ⟨hCleared, -, hHolding⟩
  have hToCleared : Extends label.slots base cleared := hExtends.trans hCleared.extends
  have hDivert : Ensures (do
      let leave ← Generating.emitJump .jump []
      Generating.landHere
      Generating.openLabel .ending leave
      Pure.pure ()) cleared fun _ after =>
        after.Tidy ∧ after.loops = context.loops ∧ after.depth = context.depth ∧
          after.options = base.options ∧ base.setting.Resembles after.setting := by
    apply divert_ensures (hCleared.quiet.labels.trans hLabels) hLow hToCleared
    intro turned hTurned hToTurned
    apply Ensures.pure
    constructor
    · exact ⟨hToTurned.sound, (hHolding _ hTidy.holding).congr (by rw [hTurned.store])⟩
    · exact ⟨hTurned.loops.trans hCleared.quiet.loops, hTurned.depth.trans hCleared.quiet.depth,
        hToTurned.options, hToTurned.cells⟩
  simpa only [bind_pure_unit] using hDivert

/-- Behind a first branch that was compiled the second one is entered. -/
theorem entrance_of_switch (hPrepared : context.Prepared bases) {condition : Condition}
    {tested bodied : Context} {commands : List Command}
    (hTest : (Generating.testCondition condition).run.run context = (.ok (), tested))
    (hBody : (Generating.compileCommands commands).run.run
      (tested.atDepth (tested.depth + 1)) = (.ok (), bodied))
    (hSwitch : Generating.switchBranch.run.run bodied = (.ok (), inside)) :
    Entrance context inside bases [] := by
  obtain ⟨hEntrance, hLoops, label, hSlot, hLabels, hExtends⟩ := entrance_of_test hPrepared hTest
  obtain ⟨hCompiles, hTidy⟩ := (compileCommands_ensures
    (Generating.named_of_compileCommands hBody) _ hEntrance.prepared).of_run hBody
  obtain ⟨hInside, hInsideLoops, hDepth, hOptions, hSame⟩ :=
    (switchBranch_ensures hTidy (hCompiles.labels.trans hLabels) hSlot
      (hExtends.trans hCompiles.extended.ofDepth)).of_run hSwitch
  constructor
  · exact hPrepared.congr hInside hSame (hInsideLoops.trans (hCompiles.loops.trans hLoops))
  · exact hOptions
  · exact hDepth.trans (hCompiles.depth.trans hEntrance.depth)
  · exact .construct hSame

private theorem entrance_of_while (hPrepared : context.Prepared bases) (condition : Condition) :
    Ensures (do
      Generating.clearCache
      Generating.forgetPointer
      let start ← Generating.nextLine
      Generating.descend
      Generating.testCondition condition
      return start) context fun _ inside => Entrance context inside bases [] := by
  apply enterLoop_ensures hPrepared.toTidy
  intro outside hOutside hOutsideTidy _ _
  have hSame : context.setting.Resembles outside.setting := .of_eq hOutside.setting
  have hDeeper : (outside.atDepth (outside.depth + 1)).Prepared bases :=
    hPrepared.congr (hOutsideTidy.atDepth _) hSame hOutside.quiet.loops
  refine .modify_bind (.bind (testCondition_ensures hDeeper.toTidy hDeeper.bases condition) ?_)
  rintro - tested ⟨label, holds?, hBranches, hTested, -⟩
  apply Ensures.pure
  constructor
  · exact hDeeper.congr hTested (.of_eq hBranches.setting) hBranches.loops
  · exact hBranches.extended.options.trans hOutside.quiet.options
  · exact hBranches.depth.trans (congrArg (· + 1) hOutside.quiet.depth)
  · exact .construct (hSame.trans (.of_eq hBranches.setting))

/-- Behind the test of a counting loop its variable has a name. -/
theorem entrance_of_for (hPrepared : context.Prepared bases) {opened : Context}
    {iterator : String} {cells : LoopCells} {owner handle : Handle}
    (hOpens : OpensLoop context opened iterator cells owner handle) :
    Ensures (do
      Generating.clearCache
      Generating.forgetPointer
      let start ← Generating.nextLine
      Generating.descend
      Generating.testLoop cells
      return (cells, start)) opened fun _ inside => Entrance context inside bases [iterator] := by
  apply enterLoop_ensures hOpens.tidy
  intro outside hOutside hOutsideTidy hOutsideFlat _
  refine .modify_bind (.bind (testLoop_ensures (hOutsideTidy.atDepth (outside.depth + 1))
    hOutsideFlat cells) ?_)
  rintro - tested ⟨label, hBranches, hTested⟩
  have hSetting : tested.setting = context.setting.insideLoop iterator cells owner handle :=
    hBranches.setting.trans (hOutside.setting.trans hOpens.setting)
  have hLoops : tested.loops = context.loops + 1 :=
    hBranches.loops.trans (hOutside.quiet.loops.trans hOpens.loops)
  apply Ensures.pure
  constructor
  · refine ⟨hTested, ?_, fun hNone => ?_⟩
    · rw [hSetting]
      exact Setting.Admits.hasBases_insideLoop hPrepared.bases
    · rw [hLoops] at hNone
      contradiction
  · exact hBranches.extended.options.trans (hOutside.quiet.options.trans hOpens.options)
  · exact hBranches.depth.trans (congrArg (· + 1) (hOutside.quiet.depth.trans hOpens.depth))
  · exact .loop hOpens.admits hSetting

theorem entrance_of_lead (hPrepared : context.Prepared bases) {command : Command} {body : Body}
    (hBody : body ∈ command.bodies) {note : body.Note}
    (hRun : body.lead.run.run context = (.ok note, inside)) :
    Entrance context inside bases body.names := by
  cases command with
  | assign | read | write | skip => cases hBody
  | ifThen span condition commands =>
      cases List.mem_singleton.mp hBody
      obtain ⟨_, tested, hTest, hDescend⟩ := Generating.exists_of_run_bind hRun
      cases hDescend
      exact (entrance_of_test hPrepared hTest).1
  | ifElse span condition commands orElse =>
      cases List.mem_cons.mp hBody with
      | inl hFirst =>
          cases hFirst
          obtain ⟨_, tested, hTest, hDescend⟩ := Generating.exists_of_run_bind hRun
          cases hDescend
          exact (entrance_of_test hPrepared hTest).1
      | inr hSecond =>
          cases List.mem_singleton.mp hSecond
          obtain ⟨_, tested, hTest, hRun⟩ := Generating.exists_of_run_bind hRun
          obtain ⟨_, _, hDescend, hRun⟩ := Generating.exists_of_run_bind hRun
          cases hDescend
          obtain ⟨_, bodied, hFirst, hSwitch⟩ := Generating.exists_of_run_bind hRun
          exact entrance_of_switch hPrepared hTest hFirst hSwitch
  | whileLoop span condition commands =>
      cases List.mem_singleton.mp hBody
      exact (entrance_of_while hPrepared condition).of_run hRun
  | forLoop span iterator first last direction commands =>
      cases List.mem_singleton.mp hBody
      obtain ⟨cells, opened, hOpen, hRun⟩ := Generating.exists_of_run_bind hRun
      have hName : iterator ≠ "" := by
        intro hEmpty
        rw [hEmpty] at hOpen
        exact Generating.openLoop_fails span.first first last direction _ _ _ hOpen
      obtain ⟨owner, handle, hOpens, -⟩ := (openLoop_ensures hPrepared.toTidy hPrepared.bases
        span.first hName first last direction).of_run hOpen
      exact (entrance_of_for hPrepared hOpens).of_run hRun

end Context

end RegisterCompiler
