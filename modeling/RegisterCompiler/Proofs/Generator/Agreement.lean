/-
Code generation refuses the programs the check refuses.

The judgement of a program follows its text: a construct is judged by its opening code and
by the commands inside, which are compiled with the names in scope there.  So the generator
complains about a program exactly when the check does; a value that was propagated into an
index may give it one more reason.
-/

import RegisterCompiler.Proofs.Generator.Refusals
import RegisterCompiler.Proofs.Program.Parsing

set_option autoImplicit false

namespace RegisterCompiler

open Source (Position)

namespace Generating

open Context (Resolving)

variable {start context : Context} {names : Names}

/-! ### Constructs -/

/-- A complaint about a reference of a command that is visited, known to be beyond its array. -/
def Excused (declarations : List Declaration) (iterators : List String) (commands : List Command)
    (context : Context) (complaint : Complaint) : Prop :=
  ∃ names command start, Visits commands context names command start ∧
    Overrun command.references ⟨declarations, names ++ iterators⟩ start complaint

namespace Excused

variable {declarations : List Declaration} {iterators : List String} {first : Command}
  {rest : List Command} {complaint : Complaint}

private theorem here
    (hOverrun : Overrun first.references ⟨declarations, iterators⟩ context complaint) :
    Excused declarations iterators (first :: rest) context complaint :=
  ⟨[], first, context, .here, hOverrun⟩

private theorem later {compiled settled : Context}
    (hCompile : (compileCommand first).run.run context = (.ok (), compiled))
    (hSettle : tidyUp.run.run compiled = (.ok (), settled))
    (hRest : Excused declarations iterators rest settled complaint) :
    Excused declarations iterators (first :: rest) context complaint := by
  obtain ⟨names, command, start, hVisits, hOverrun⟩ := hRest
  exact ⟨names, command, start, .later hCompile hSettle hVisits, hOverrun⟩

private theorem inside {inner : Context} {body : Body} {note : body.Note}
    (hBody : body ∈ first.bodies) (hLead : body.lead.run.run context = (.ok note, inner))
    (hInside : Excused declarations (body.names ++ iterators) body.commands inner complaint) :
    Excused declarations iterators (first :: rest) context complaint := by
  obtain ⟨names, command, start, hVisits, hOverrun⟩ := hInside
  refine ⟨names ++ body.names, command, start, .inside hBody hLead hVisits, ?_⟩
  rw [List.append_assoc]
  exact hOverrun

end Excused

/-- Inside a construct nothing is known. -/
theorem not_overrun_of_deep {references : List Reference} {complaint : Complaint}
    (hSound : start.Sound) (hScopes : start.setting.Scopes names) (hDeep : start.depth ≠ 0) :
    ¬Overrun references names start complaint := by
  rintro ⟨cell, -, hOverruns⟩
  cases hOverruns with
  | @beyond span other label offset length hIndex hScalar hKnown hArray hBeyond =>
      have hCasts := hScopes other
      rw [hScalar] at hCasts
      obtain ⟨handle, hDeclared⟩ := hCasts
      rw [Context.viewIndex_run_eq_known_iff hSound span.first hDeclared, Context.knows?,
        if_neg fun hBoth => hDeep hBoth.2] at hKnown
      cases hKnown

section

variable {bases : Bases} {declarations : List Declaration} {iterators : List String}
  {command : Command} {rest : List Command}

private theorem resolving_of_prepared (hPrepared : context.Prepared bases)
    (hScopes : context.setting.Scopes names) : Resolving context context names where
  origin := hPrepared.toSound
  sound := hPrepared.toSound
  scopes := hScopes
  setting := rfl
  options := rfl
  depth := rfl

private theorem construct_judges (hPrepared : context.Prepared bases)
    (hScopes : context.setting.Scopes ⟨declarations, iterators⟩) {body : Body}
    (hBody : body ∈ command.bodies) {opening commands : Prop}
    (hLead : Judges body.lead context opening
      (Excused declarations iterators (command :: rest) context))
    (hCommands : ∀ inside : Context, inside.Prepared bases →
      inside.setting.Scopes ⟨declarations, body.names ++ iterators⟩ →
      Judges (compileCommands body.commands) inside commands
        (Excused declarations (body.names ++ iterators) body.commands inside))
    (hTrail : ∀ note, Routine false (body.trail note)) :
    Judges (compileCommand command) context (opening ∧ commands)
      (Excused declarations iterators (command :: rest) context) := by
  rw [Command.compile_eq hBody]
  apply hLead.bind
  intro note inside hRun
  have hEntrance := Context.entrance_of_lead hPrepared hBody hRun
  apply Judges.before_routine _ fun _ => hTrail note
  apply (hCommands inside hEntrance.prepared (hScopes.enters hEntrance.setting)).mono
  exact fun complaint => Excused.inside hBody hRun

/-- The test in front of a branch. -/
theorem test_judges (hPrepared : context.Prepared bases)
    (hScopes : context.setting.Scopes ⟨declarations, iterators⟩) {condition : Condition}
    (hReferences : command.references = condition.left.references ++ condition.right.references) :
    Judges (testCondition condition) context (condition.Legal ⟨declarations, iterators⟩)
      (Excused declarations iterators (command :: rest) context) := by
  have hResolving := resolving_of_prepared hPrepared hScopes
  apply (testCondition_judges hResolving hPrepared.bases condition).mono
  rw [← hReferences]
  exact fun complaint => Excused.here

/-- The start of a WHILE loop, where nothing is known. -/
theorem while_judges (hPrepared : context.Prepared bases)
    (hScopes : context.setting.Scopes names) (condition : Condition)
    {excuse : Complaint → Prop} :
    Judges (do
      clearCache
      forgetPointer
      let start ← nextLine
      descend
      testCondition condition
      return start) context (condition.Legal names) excuse := by
  apply Judges.after_routine
  intro _ cleared hClear
  have hTurns := ((Context.clearCache_ensures hPrepared.toSound).of_run hClear).1
  apply Judges.after_routine
  intro _ _ hForget
  cases hForget
  apply Judges.after_routine
  intro _ _ hLine
  cases hLine
  apply Judges.after_routine
  intro _ _ hDescend
  cases hDescend
  apply Judges.before_routine _ inferInstance
  let deeper : Context := { cleared with pointer := none, depth := cleared.depth + 1 }
  have hSetting : deeper.setting = context.setting := hTurns.setting
  have hDeeper : deeper.setting.Scopes names := by
    rw [hSetting]
    exact hScopes
  have hBases : deeper.setting.HasBases bases := by
    rw [hSetting]
    exact hPrepared.bases
  have hSound : deeper.Sound :=
    ⟨hTurns.sound.store, hTurns.sound.size, hTurns.sound.dynamics, hTurns.sound.distinct,
      hTurns.sound.recorded⟩
  apply (testCondition_judges ⟨hSound, hSound, hDeeper, rfl, rfl, rfl⟩ hBases condition).mono
  exact fun complaint hOverrun =>
    absurd hOverrun (not_overrun_of_deep hSound hDeeper (Nat.succ_ne_zero _))

mutual

theorem compileCommand_judges {context : Context} {iterators : List String}
    (hPrepared : context.Prepared bases)
    (hScopes : context.setting.Scopes ⟨declarations, iterators⟩) (command : Command)
    (rest : List Command) :
    Judges (compileCommand command) context (command.Legal ⟨declarations, iterators⟩)
      (Excused declarations iterators (command :: rest) context) := by
  have hResolving := resolving_of_prepared hPrepared hScopes
  have hHere : ∀ complaint, Overrun command.references ⟨declarations, iterators⟩ context complaint →
      Excused declarations iterators (command :: rest) context complaint :=
    fun _ => Excused.here
  cases command with
  | assign span target value =>
      rw [compileCommand, Command.Legal]
      exact (assign_judges hResolving hPrepared.bases target value).mono hHere
  | read span target =>
      rw [compileCommand, Command.Legal]
      exact (readInput_judges hResolving target).mono hHere
  | write span value =>
      rw [compileCommand, Command.Legal]
      exact (writeOutput_judges hResolving value).mono hHere
  | skip span =>
      rw [compileCommand, Command.Legal]
      exact .of_run rfl trivial
  | ifThen span condition body =>
      rw [Command.Legal]
      apply construct_judges hPrepared hScopes List.mem_cons_self
      · exact (test_judges hPrepared hScopes rfl).before_routine inferInstance
      · exact fun inside hInside hInsideScopes => compileCommands_judges hInside hInsideScopes body
      · infer_instance
  | ifElse span condition body orElse =>
      rw [Command.Legal, ← and_assoc]
      apply construct_judges hPrepared hScopes (List.mem_cons_of_mem _ List.mem_cons_self)
      · apply (test_judges hPrepared hScopes rfl).bind
        intro _ tested hTest
        apply Judges.after_routine
        intro _ _ hDescend
        have hLead : (do testCondition condition; descend).run.run context = _ :=
          (run_bind_of_run hTest).trans hDescend
        have hFirst : _ ∈ (Command.ifElse span condition body orElse).bodies := List.mem_cons_self
        have hEntrance := Context.entrance_of_lead hPrepared hFirst hLead
        apply Judges.before_routine _ inferInstance
        apply (compileCommands_judges hEntrance.prepared (hScopes.enters hEntrance.setting)
          body).mono
        exact fun complaint => Excused.inside hFirst hLead
      · exact fun inside hInside hInsideScopes => compileCommands_judges hInside hInsideScopes orElse
      · infer_instance
  | whileLoop span condition body =>
      rw [Command.Legal]
      apply construct_judges hPrepared hScopes List.mem_cons_self
      · exact while_judges hPrepared hScopes condition
      · exact fun inside hInside hInsideScopes => compileCommands_judges hInside hInsideScopes body
      · infer_instance
  | forLoop span iterator first last direction body =>
      rw [Command.Legal, ← and_assoc]
      apply construct_judges hPrepared hScopes List.mem_cons_self
      · apply Judges.before_routine
        · exact (openLoop_judges hResolving hPrepared.bases span.first iterator first last
            direction).mono hHere
        · infer_instance
      · exact fun inside hInside hInsideScopes => compileCommands_judges hInside hInsideScopes body
      · infer_instance

theorem compileCommands_judges {context : Context} {iterators : List String}
    (hPrepared : context.Prepared bases)
    (hScopes : context.setting.Scopes ⟨declarations, iterators⟩) (commands : List Command) :
    Judges (compileCommands commands) context (Command.AllLegal ⟨declarations, iterators⟩ commands)
      (Excused declarations iterators commands context) := by
  cases commands with
  | nil =>
      rw [compileCommands, Command.AllLegal]
      exact .of_run rfl trivial
  | cons command rest =>
      rw [compileCommands, Command.AllLegal]
      apply (compileCommand_judges hPrepared hScopes command rest).bind
      intro _ compiled hCompile
      apply Judges.after_routine
      intro _ settled hSettle
      obtain ⟨hSettled, hCompiles⟩ := Context.settles_of_runs hPrepared hCompile hSettle
      apply (compileCommands_judges hSettled (hScopes.resembles hCompiles.extended.cells) rest).mono
      exact fun complaint => Excused.later hCompile hSettle

end

end

/-! ### Declarations -/

theorem declared_eq_none_iff {done : List Declaration} (hOpening : context.Opening done)
    (name : String) :
    context.setting.declared name = none ↔ name ∉ done.map Declaration.name := by
  constructor
  · intro hNone hMem
    obtain ⟨declaration, hDeclaration, hName⟩ := List.mem_map.mp hMem
    have hSome := (hOpening.declares.stands declaration hDeclaration).isSome_declared
    rw [hName, hNone] at hSome
    cases hSome
  · exact hOpening.declares.others name

private theorem declareScalar_routine (name : String) : Routine false (declareScalar name) := by
  have hNote : ∀ placement, Routine false (modify fun context : Context =>
      { context with placements := context.placements.push placement } : Generating Unit) :=
    fun _ => .modify fun _ => .still rfl rfl rfl
  unfold declareScalar
  infer_instance

private theorem declareArray_routine (name : String) (length : Nat) :
    Routine false (declareArray name length) := by
  have hNote : ∀ placement, Routine false (modify fun context : Context =>
      { context with placements := context.placements.push placement } : Generating Unit) :=
    fun _ => .modify fun _ => .still rfl rfl rfl
  unfold declareArray
  refine .andThen fun ref => .andThen fun head => .andThen fun _ => .andThen fun context => ?_
  simp only
  infer_instance

private theorem declareName_judges {done : List Declaration} (hOpening : context.Opening done)
    (declaration : Declaration) {excuse : Complaint → Prop} :
    Judges (declareName declaration) context
      (declaration.name ∉ done.map Declaration.name ∧ declaration.length ≠ some 0) excuse := by
  have hNew := declared_eq_none_iff hOpening declaration.name
  have hScalar := declareScalar_routine declaration.name
  have hArray := declareArray_routine declaration.name
  apply Judges.of_get
  cases hLookup : context.store.symbols.lookup? declaration.name with
  | some entry =>
      have hTaken : context.setting.declared declaration.name ≠ none := by
        rw [Context.declared_of_lookup? hLookup]
        exact Option.some_ne_none _
      exact .of_misuse rfl fun hLegal => absurd (hNew.mpr hLegal.1) hTaken
  | none =>
      have hFree := hNew.mp (Option.map_eq_none_iff.mpr hLookup)
      cases hLength : declaration.length with
      | none =>
          change Judges (declareScalar declaration.name) context _ _
          exact .routine ⟨hFree, nofun⟩
      | some length =>
          by_cases hZero : length = 0
          · rw [hZero]
            exact .of_misuse rfl fun hLegal => absurd rfl hLegal.2
          · simp only [hZero, if_false]
            change Judges (declareArray declaration.name length) context _ _
            exact .routine ⟨hFree, by simpa using hZero⟩

private theorem declareAll_judges {done : List Declaration} (hOpening : context.Opening done)
    (declarations : List Declaration) {excuse : Complaint → Prop} :
    Judges (declareAll declarations) context
      ((∀ declaration ∈ declarations, declaration.name ∉ done.map Declaration.name) ∧
        Declaration.AllLegal declarations) excuse := by
  induction declarations generalizing context done with
  | nil => exact .of_run rfl ⟨nofun, List.nodup_nil, nofun⟩
  | cons declaration rest inductionHypothesis =>
      rw [declareAll]
      apply Judges.congr _ Declaration.allLegal_cons_iff
      apply (declareName_judges hOpening declaration).bind
      intro _ named hDeclare
      have hName : declaration.name ≠ "" :=
        fun hEmpty => declareName_fails hEmpty _ _ _ hDeclare
      have hNamed := ((Context.declareName_ensures hOpening hName).of_run hDeclare).1
      have hRest := inductionHypothesis hNamed
      rw [List.map_append] at hRest
      exact hRest

/-! ### Programs -/

/-- A program is legal when its declarations are and its commands are behind them. -/
theorem legal_iff (program : Program) :
    ((∀ declaration ∈ program.declarations,
        declaration.name ∉ ([] : List Declaration).map Declaration.name) ∧
      Declaration.AllLegal program.declarations) ∧
      Command.AllLegal ⟨program.declarations, []⟩ program.body ↔ program.Legal := by
  constructor
  · rintro ⟨⟨-, hDeclarations⟩, hBody⟩
    exact ⟨hDeclarations, hBody⟩
  · intro hLegal
    exact ⟨⟨fun _ _ => List.not_mem_nil, hLegal.declarations⟩, hLegal.body⟩

theorem compileProgram_judges {options : GeneratorOptions}
    (hRegisters : GeneratorOptions.leastRegisters ≤ options.registers)
    (hLayout : options.layout.fault? = none) (program : Program) :
    Judges (compileProgram program) (.empty options) program.Legal fun complaint =>
      ∃ names command start, VisitsIn program (.empty options) names command start ∧
        Overrun command.references ⟨program.declarations, names⟩ start complaint := by
  have hOpening := Context.opening_empty hRegisters hLayout
  apply Judges.congr _ (legal_iff program)
  apply (declareAll_judges hOpening program.declarations).bind
  intro _ opened hDeclare
  obtain ⟨hOpened, -⟩ := (Context.declareAll_ensures hOpening
    (named_of_declareAll hDeclare)).of_run hDeclare
  apply Judges.before_routine
  · apply (compileCommands_judges hOpened.prepared hOpened.declares.scopes program.body).mono
    rintro complaint ⟨names, command, start, hVisits, hOverrun⟩
    rw [List.append_nil] at hOverrun
    exact ⟨names, command, start, ⟨opened, hDeclare, hVisits⟩, hOverrun⟩
  · intro _
    refine .andThen fun _ => .andThen fun context => ?_
    simp only
    split
    · exact .throw nofun
    · infer_instance

theorem Visits.options {commands : List Command} {iterators : List String} {command : Command}
    (hVisits : Visits commands context iterators command start) :
    start.options = context.options := by
  induction hVisits with
  | here => rfl
  | later hCompile hSettle _ inductionHypothesis =>
      rw [inductionHypothesis, (logs_of_run hSettle).options, (logs_of_run hCompile).options]
  | inside hBody hLead _ inductionHypothesis =>
      have hRoutine := lead_routine hBody
      rw [inductionHypothesis, (logs_of_run hLead).options]

theorem propagate_of_known {position : Position} {name : String} {number : Nat}
    (hRun : (viewIndex position name).run.run context = (.ok (.known number), context)) :
    context.options.propagate = true := by
  obtain ⟨entry, found, hDeclared, hView⟩ := exists_of_run_bind hRun
  have hSame := logs_of_run hDeclared
  cases hBinding : entry.binding with
  | array ref => rw [hBinding] at hView; cases hView
  | nothing => rw [hBinding] at hView; cases hView
  | value handle =>
      rw [hBinding] at hView
      obtain ⟨known, _, hKnown, hView⟩ := exists_of_run_bind hView
      by_contra hOff
      have hNone : (known? entry handle).run.run found = (.ok none, found) := by
        have hGet : ∀ next : Context → Generating (Option Nat),
            (MonadState.get >>= next).run.run found = (next found).run.run found := fun _ => rfl
        rw [known?, hGet, hSame.options, Bool.eq_false_iff.mpr hOff]
        rfl
      rw [hNone] at hKnown
      cases hKnown
      obtain ⟨cell, _, -, hCell⟩ := exists_of_run_bind hView
      cases hCell

end Generating

def GeneratorFault.isExhaustion : GeneratorFault → Bool
  | .store fault | .placing _ fault => fault.isExhaustion
  | _ => false

namespace Context

/-- Unless a segment of the memory is full, a program that was read is compiled or refused for
a misuse of a name. -/
theorem generate_eq_ok_or_misuse {text : Text.Bytes} {program : Program}
    (hParse : parse text = .ok program) {options : GeneratorOptions} {context : Context}
    (hCreate : Context.create options = .ok context)
    (hRoom : ∀ fault, (context.generate program).1 = .error fault → fault.isExhaustion = false) :
    (∃ after, context.generate program = (.ok (), after)) ∨
      ∃ complaint after, context.generate program = (.error (.misuse complaint), after) := by
  obtain ⟨hRegisters, hLayout, rfl⟩ := eq_empty_of_create hCreate
  have hEnsures := compileProgram_ensures hRegisters hLayout (named_of_parse hParse)
  unfold Generating.Ensures at hEnsures
  unfold generate at hRoom ⊢
  cases hRun : (Generating.compileProgram program).run.run (empty options) with
  | mk result after =>
      rw [hRun] at hEnsures hRoom
      cases result with
      | ok => exact .inl ⟨after, rfl⟩
      | error fault =>
          have hSpace := hRoom fault rfl
          cases fault with
          | misuse complaint => exact .inr ⟨complaint, after, rfl⟩
          | store cause => exact absurd (hEnsures.symm.trans hSpace) Bool.true_eq_false.mp
          | placing name cause => exact absurd (hEnsures.symm.trans hSpace) Bool.true_eq_false.mp
          | _ => exact absurd hEnsures Bool.false_ne_true

/-- The check and the generator agree on which programs are legal.  Unless a segment of the
memory is full, a program that was read is refused for a misuse of a name exactly when the
check complains; where values are propagated it may also be refused for the index of an array
that is a scalar whose value is known and not below the length of the array. -/
theorem generate_refuses_iff_complaints {text : Text.Bytes} {program : Program}
    (hParse : parse text = .ok program) {options : GeneratorOptions} {context : Context}
    (hCreate : Context.create options = .ok context)
    (hRoom : ∀ fault, (context.generate program).1 = .error fault → fault.isExhaustion = false) :
    (options.propagate = false →
      ((∃ complaint, (context.generate program).1 = .error (.misuse complaint)) ↔
        (analyze program).complaints ≠ [])) ∧
    (options.propagate = true →
      ((analyze program).complaints ≠ [] →
        ∃ complaint, (context.generate program).1 = .error (.misuse complaint)) ∧
      ∀ complaint, (context.generate program).1 = .error (.misuse complaint) →
        (analyze program).complaints = [] →
        ∃ names command start, Generating.VisitsIn program context names command start ∧
          ∃ cell ∈ command.references,
            cell.Overruns ⟨program.declarations, names⟩ start complaint) := by
  have hLegal := complaints_analyze_eq_nil_iff program
  obtain ⟨hRegisters, hLayout, rfl⟩ := eq_empty_of_create hCreate
  have hJudges := Generating.compileProgram_judges hRegisters hLayout program
  have hRefused : (analyze program).complaints ≠ [] →
      ∃ complaint, ((empty options).generate program).1 = .error (.misuse complaint) := by
    intro hComplaints
    cases generate_eq_ok_or_misuse hParse hCreate hRoom with
    | inl hOk =>
        obtain ⟨after, hRun⟩ := hOk
        exact absurd (hLegal.mpr (hJudges.accepts () after hRun)) hComplaints
    | inr hMisuse =>
        obtain ⟨complaint, after, hRun⟩ := hMisuse
        exact ⟨complaint, congrArg Prod.fst hRun⟩
  have hExcuse := fun complaint
      (hRun : ((empty options).generate program).1 = .error (.misuse complaint))
      (hNone : (analyze program).complaints = []) =>
    hJudges.refuses complaint _ (Prod.ext hRun rfl) (hLegal.mp hNone)
  constructor
  · intro hOff
    refine ⟨?_, hRefused⟩
    rintro ⟨complaint, hRun⟩ hNone
    obtain ⟨names, command, start, ⟨opened, hDeclare, hVisits⟩, cell, -, hOverruns⟩ :=
      hExcuse complaint hRun hNone
    have hOptions := ((declareAll_ensures (opening_empty hRegisters hLayout)
      (Generating.named_of_declareAll hDeclare)).of_run hDeclare).2
    cases hOverruns with
    | beyond _ _ hKnown _ _ =>
        have hOn := Generating.propagate_of_known hKnown
        rw [hVisits.options, hOptions] at hOn
        exact absurd hOn (Bool.eq_false_iff.mp hOff)
  · intro _
    exact ⟨hRefused, hExcuse⟩

def misuse? (result : Except GeneratorFault Unit) : Option Complaint :=
  match result with
  | .error (.misuse complaint) => some complaint
  | _ => none

private theorem eq_error_of_misuse? {result : Except GeneratorFault Unit} {complaint : Complaint}
    (hMisuse : misuse? result = some complaint) : result = .error (.misuse complaint) := by
  unfold misuse? at hMisuse
  split at hMisuse
  · cases hMisuse
    rfl
  · cases hMisuse

theorem overrun_refuses_iff_complaints :
    ∃ program complaint,
      parse (Text.encode "VAR n a[3] BEGIN n := 5; a[n] := 1; END") = .ok program ∧
      (analyze program).complaints = [] ∧
      ((empty .standard).generate program).1 = .error (.misuse complaint) ∧
      ∃ names command start, Generating.VisitsIn program (empty .standard) names command start ∧
        ∃ cell ∈ command.references,
          cell.Overruns ⟨program.declarations, names⟩ start complaint := by
  have hRuns : ((parse (Text.encode "VAR n a[3] BEGIN n := 5; a[n] := 1; END")).toOption.any
      fun program => (analyze program).complaints.isEmpty &&
        (misuse? ((empty .standard).generate program).1).isSome) = true := by decide +kernel
  cases hParse : parse (Text.encode "VAR n a[3] BEGIN n := 5; a[n] := 1; END") with
  | error complaints =>
      rw [hParse] at hRuns
      contradiction
  | ok program =>
      rw [hParse] at hRuns
      have hBoth := (Bool.and_eq_true _ _).mp hRuns
      have hNone := List.isEmpty_iff.mp hBoth.1
      obtain ⟨complaint, hMisuse⟩ := Option.isSome_iff_exists.mp hBoth.2
      have hRun := eq_error_of_misuse? hMisuse
      have hRoom : ∀ fault, ((empty .standard).generate program).1 = .error fault →
          fault.isExhaustion = false := by
        intro fault hFault
        rw [hRun] at hFault
        cases hFault
        rfl
      have hCreate : create .standard = .ok (empty .standard) := rfl
      have hAgrees := generate_refuses_iff_complaints hParse hCreate hRoom
      exact ⟨program, complaint, rfl, hNone, hRun, (hAgrees.2 rfl).2 complaint hRun hNone⟩

end Context

end RegisterCompiler
