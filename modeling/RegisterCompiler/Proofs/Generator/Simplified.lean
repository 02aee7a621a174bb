/-
Builds of simplified programs.

Simplifying drops operands and commands and lifts commands out of constructs, so a program
that uses its names as declared still does.  But outside all constructs more is known about
the scalars, and an index that is known is checked.  So where a text is built without
simplifying, the simplified program is built too, unless an index is then known to be beyond
its array.
-/

import RegisterCompiler.Proofs.Correctness
import RegisterCompiler.Proofs.Generator.Shadowing

set_option autoImplicit false

namespace RegisterCompiler

/-! ### Legal programs -/

variable {names : Names}

private theorem Expression.Legal.simplify {value : Expression} (hLegal : value.Legal names) :
    value.simplify.Legal names := by
  cases value with
  | atom span value => exact hLegal
  | operation span left operator right =>
      rcases Expression.simplify_operation span left operator right with
        hSame | ⟨value, hValue, rfl | rfl | ⟨number, rfl⟩⟩
      · rw [hSame]
        exact hLegal
      · rw [hValue]
        exact hLegal.1
      · rw [hValue]
        exact hLegal.2
      · rw [hValue]
        trivial

private theorem Condition.Legal.simplify {condition : Condition} (hLegal : condition.Legal names) :
    condition.simplify.Legal names := by
  unfold Condition.simplify
  split
  · exact ⟨trivial, trivial⟩
  · exact hLegal

namespace Command

private theorem allLegal_append {first second : List Command} (hFirst : AllLegal names first)
    (hSecond : AllLegal names second) : AllLegal names (first ++ second) := by
  induction first with
  | nil => exact hSecond
  | cons command rest inductionHypothesis => exact ⟨hFirst.1, inductionHypothesis hFirst.2⟩

private theorem allLegal_singleton {command : Command} (hLegal : command.Legal names) :
    AllLegal names [command] :=
  ⟨hLegal, trivial⟩

mutual

theorem allLegal_simplify {names : Names} {command : Command} (hLegal : command.Legal names) :
    AllLegal names command.simplify := by
  cases command with
  | assign span target value =>
      obtain ⟨hTarget, hValue⟩ := hLegal
      rw [simplify]
      split
      · trivial
      · exact allLegal_singleton ⟨hTarget, hValue.simplify⟩
  | read span target => exact allLegal_singleton hLegal
  | write span value => exact allLegal_singleton hLegal
  | skip span => exact allLegal_singleton hLegal
  | ifThen span condition body =>
      obtain ⟨hCondition, hBody⟩ := hLegal
      rw [simplify]
      split
      · exact allLegal_simplifyAll hBody
      · trivial
      · exact allLegal_singleton ⟨hCondition.simplify, allLegal_simplifyAll hBody, trivial⟩
  | ifElse span condition body orElse =>
      obtain ⟨hCondition, hBody, hElse⟩ := hLegal
      rw [simplify]
      split
      · exact allLegal_simplifyAll hBody
      · exact allLegal_simplifyAll hElse
      · exact allLegal_singleton
          ⟨hCondition.simplify, allLegal_simplifyAll hBody, allLegal_simplifyAll hElse⟩
  | whileLoop span condition body =>
      obtain ⟨hCondition, hBody⟩ := hLegal
      rw [simplify]
      split
      · trivial
      · exact allLegal_singleton ⟨hCondition.simplify, allLegal_simplifyAll hBody⟩
  | forLoop span iterator first last direction body =>
      obtain ⟨hIterator, hBounds, hBody⟩ := hLegal
      rw [simplify]
      split
      · trivial
      · exact allLegal_singleton ⟨hIterator, hBounds, allLegal_simplifyAll hBody⟩

theorem allLegal_simplifyAll {names : Names} {commands : List Command}
    (hLegal : AllLegal names commands) : AllLegal names (simplifyAll commands) := by
  cases commands with
  | nil => trivial
  | cons command rest =>
      rw [simplifyAll]
      exact allLegal_append (allLegal_simplify hLegal.1) (allLegal_simplifyAll hLegal.2)

end

end Command

private theorem Program.Legal.simplify {program : Program} (hLegal : program.Legal) :
    program.simplify.Legal where
  declarations := hLegal.declarations
  body := Command.allLegal_simplifyAll hLegal.body

/-- Simplifying never makes the check complain. -/
theorem complaints_analyze_simplify {program : Program}
    (hClean : (analyze program).complaints = []) :
    (analyze program.simplify).complaints = [] :=
  (complaints_analyze_eq_nil_iff _).mpr ((complaints_analyze_eq_nil_iff program).mp hClean).simplify

def liftedLoop : Text.Bytes :=
  Text.encode ("VAR n t[4] BEGIN IF 1 = 1 THEN READ n; FOR i FROM 0 TO 3 DO " ++
    "IF i < n THEN t[i] := n * 1; ELSE t[i] := i; ENDIF ENDFOR ELSE n := t[0]; ENDIF WRITE t[2]; END")

theorem lifted_loop_simplify_clean :
    ∃ program, parse liftedLoop = .ok program ∧ (analyze program).complaints = [] ∧
      program.simplify ≠ program ∧ (analyze program.simplify).complaints = [] := by
  obtain ⟨program, hParse, hTest⟩ : ∃ program, parse liftedLoop = .ok program ∧
      ((analyze program).complaints.isEmpty &&
        program.simplify.body.length != program.body.length) = true :=
    exists_of_any_toOption (by decide +kernel)
  rw [Bool.and_eq_true, List.isEmpty_iff, bne_iff_ne] at hTest
  obtain ⟨hClean, hOther⟩ := hTest
  refine ⟨program, hParse, hClean, ?_, complaints_analyze_simplify hClean⟩
  intro hSame
  rw [hSame] at hOther
  exact hOther rfl

/-! ### Builds -/

namespace Generating

/-- Where an index is known to be beyond its array, no construct is open. -/
theorem VisitsIn.depth_of_overruns {options : GeneratorOptions} {program : Program}
    (hRegisters : GeneratorOptions.leastRegisters ≤ options.registers)
    (hLayout : options.layout.fault? = none) {names : List String} {command : Command}
    {start : Context} (hVisits : VisitsIn program (.empty options) names command start)
    {complaint : Complaint}
    (hOverrun : Overrun command.references ⟨program.declarations, names⟩ start complaint) :
    start.depth = 0 ∧ options.propagate = true := by
  obtain ⟨opened, bases, hStanding⟩ := Context.standing_of_visitsIn hRegisters hLayout hVisits
  constructor
  · apply Classical.byContradiction
    intro hDeep
    exact not_overrun_of_deep hStanding.prepared.toSound hStanding.scopes hDeep hOverrun
  · obtain ⟨cell, -, hOverruns⟩ := hOverrun
    obtain ⟨opened, hDeclare, hVisits⟩ := hVisits
    obtain ⟨-, hOptions⟩ := (Context.declareAll_ensures (Context.opening_empty hRegisters hLayout)
      (named_of_declareAll hDeclare)).of_run hDeclare
    cases hOverruns with
    | beyond _ _ hKnown _ _ =>
        have hOn := propagate_of_known hKnown
        rw [hVisits.options, hOptions] at hOn
        exact hOn

end Generating

/-- Building a text that reads well and misuses no name is generating its code and reading it
back. -/
theorem build_eq {options : BuildOptions} {text : Text.Bytes} {program : Program}
    (hParse : parse text = .ok program) (hClean : (analyze program).complaints = [])
    {context : Context} (hCreate : Context.create options.generator = .ok context) (id : String) :
    (∀ fault, (context.generate (options.prepare program)).1 = .error fault →
      build options id false text = .error (.stuck fault)) ∧
    ∀ after, context.generate (options.prepare program) = (.ok (), after) →
      (∃ code, after.listing.decode = .ok code) → ∃ built, build options id false text = .ok built := by
  have hCheck : check text = .ok ⟨program, (analyze program).warnings⟩ := by
    simp only [check, hParse, hClean, List.isEmpty_nil, if_true]
  constructor
  · intro fault hFault
    have hCode : generateCode options.generator (options.prepare program) =
        .error (.stuck fault) := by
      cases hRun : context.generate (options.prepare program) with
      | mk result after =>
          rw [hRun] at hFault
          cases hFault
          rw [generateCode, hCreate]
          simp only [hRun]
    rw [build, hCheck]
    simp only [bind, Except.bind, Bool.false_eq_true, if_false, hCode]
  · rintro after hRun ⟨code, hDecode⟩
    have hCode : generateCode options.generator (options.prepare program) =
        .ok ⟨after.listing, after.placements.toList⟩ := by
      rw [generateCode, hCreate]
      simp only [hRun]
    rw [build, hCheck]
    simp only [bind, Except.bind, Bool.false_eq_true, if_false, hCode, Image.ofListing, hDecode,
      Except.map]
    exact ⟨_, rfl⟩

/-- Gives a scalar a value inside a construct that is always entered, and uses it as an index. -/
def forcedIndex : Text.Bytes :=
  Text.encode "VAR x t[3] BEGIN IF 1 = 1 THEN x := 5; ENDIF t[x] := 1; END"

/-- Where a text is built without simplifying, the simplified program is built too; or it is
refused because outside all constructs the index of an array is known to be beyond it; or its
registers or its lines are more than a word can count. -/
theorem simplified_build {options : BuildOptions} {id : String} {text : Text.Bytes} {plain : Build}
    (hPlain : build { options with simplify := false } id false text = .ok plain) :
    (∃ simple, build { options with simplify := true } id false text = .ok simple) ∨
      ∃ program context, parse text = .ok program ∧
        Context.create options.generator = .ok context ∧
        ((∃ complaint, build { options with simplify := true } id false text =
              .error (.stuck (.misuse complaint)) ∧ options.generator.propagate = true ∧
            ∃ names command start,
              Generating.VisitsIn program.simplify context names command start ∧
                start.depth = 0 ∧ ∃ cell ∈ command.references,
                  cell.Overruns ⟨program.declarations, names⟩ start complaint) ∨
          ∃ after, context.generate program.simplify = (.ok (), after) ∧
            (Text.fitsSigned64 options.generator.registers &&
              Text.fitsSigned64 after.listing.size) = false) := by
  obtain ⟨program, context, plainly, _, hParse, hClean, hCreate, hGenerated, -⟩ :=
    exists_of_build hPlain
  have hCreate : Context.create options.generator = .ok context := hCreate
  let simplifying : BuildOptions := { options with simplify := true }
  have hSame : Context.create simplifying.generator = .ok context := hCreate
  have hPrepare : simplifying.prepare program = program.simplify := rfl
  obtain ⟨hFails, hBuilds⟩ := build_eq hParse hClean hSame id
  obtain ⟨hRegisters, hLayout, rfl⟩ := Context.eq_empty_of_create hCreate
  have hLegal := ((complaints_analyze_eq_nil_iff program).mp hClean).simplify
  have hEnsures := Context.compileProgram_ensures hRegisters hLayout (named_of_parse hParse).simplify
  have hJudges := Generating.compileProgram_judges hRegisters hLayout program.simplify
  rw [hPrepare] at hFails hBuilds
  unfold Generating.Ensures at hEnsures
  cases hRun : (Generating.compileProgram program.simplify).run.run (.empty options.generator) with
  | mk result after =>
      have hGenerate : (Context.empty options.generator).generate program.simplify =
          (result, after) := hRun
      rw [hRun] at hEnsures
      cases result with
      | ok =>
          obtain ⟨opened, compiled, hGenerates⟩ := hEnsures
          by_cases hFits : (Text.fitsSigned64 options.generator.registers &&
              Text.fitsSigned64 after.listing.size) = true
          · rw [Bool.and_eq_true] at hFits
            exact .inl (hBuilds after hGenerate (hGenerates.decodes hFits.1 hFits.2))
          · exact .inr ⟨program, _, hParse, hCreate, .inr ⟨after, hGenerate,
              Bool.eq_false_iff.mpr hFits⟩⟩
      | error fault =>
          have hStuck := hFails fault (congrArg Prod.fst hGenerate)
          have hSober := Context.generate_simplify_sober hRegisters hLayout hGenerated hGenerate
          refine .inr ⟨program, _, hParse, hCreate, .inl ?_⟩
          cases fault with
          | misuse complaint =>
              obtain ⟨names, command, start, hVisits, hOverrun⟩ :=
                hJudges.refuses complaint after hRun hLegal
              obtain ⟨hDepth, hOn⟩ := hVisits.depth_of_overruns hRegisters hLayout hOverrun
              exact ⟨complaint, hStuck, hOn, names, command, start, hVisits, hDepth, hOverrun⟩
          | store cause => exact absurd (hEnsures.symm.trans hSober) Bool.true_eq_false.mp
          | placing name cause => exact absurd (hEnsures.symm.trans hSober) Bool.true_eq_false.mp
          | _ => exact absurd hEnsures Bool.false_ne_true

theorem forced_index_simplified_build :
    ∃ plain, build { BuildOptions.standard with simplify := false } "id" false forcedIndex =
        .ok plain ∧
      ((∃ simple, build { BuildOptions.standard with simplify := true } "id" false forcedIndex =
          .ok simple) ∨
        ∃ program context, parse forcedIndex = .ok program ∧
          Context.create BuildOptions.standard.generator = .ok context ∧
          ((∃ complaint, build { BuildOptions.standard with simplify := true } "id" false
                forcedIndex = .error (.stuck (.misuse complaint)) ∧
              BuildOptions.standard.generator.propagate = true ∧
              ∃ names command start,
                Generating.VisitsIn program.simplify context names command start ∧
                  start.depth = 0 ∧ ∃ cell ∈ command.references,
                    cell.Overruns ⟨program.declarations, names⟩ start complaint) ∨
            ∃ after, context.generate program.simplify = (.ok (), after) ∧
              (Text.fitsSigned64 BuildOptions.standard.generator.registers &&
                Text.fitsSigned64 after.listing.size) = false)) := by
  obtain ⟨plain, hPlain⟩ : ∃ plain,
      build { BuildOptions.standard with simplify := false } "id" false forcedIndex = .ok plain :=
    exists_of_isSome_toOption (by decide +kernel)
  exact ⟨plain, hPlain, simplified_build hPlain⟩

def misuseOf? : Except BuildFault Build → Option Misuse
  | .error (.stuck (.misuse complaint)) => some complaint.misuse
  | _ => none

private theorem exists_of_misuseOf? {result : Except BuildFault Build} {misuse : Misuse}
    (hMisuse : misuseOf? result = some misuse) :
    ∃ position, result = .error (.stuck (.misuse ⟨position, misuse⟩)) := by
  unfold misuseOf? at hMisuse
  split at hMisuse
  · cases hMisuse
    exact ⟨_, rfl⟩
  · cases hMisuse

/-- A text that is built without simplifying, and refused when it is simplified. -/
theorem forced_index_refused_when_simplified :
    (∃ plain, build { BuildOptions.standard with simplify := false } "id" false forcedIndex =
        .ok plain) ∧
      ∃ position, build { BuildOptions.standard with simplify := true } "id" false forcedIndex =
        .error (.stuck (.misuse ⟨position, .indexOutOfRange 5 "t" 3⟩)) := by
  constructor
  · exact exists_of_isSome_toOption (by decide +kernel)
  · exact exists_of_misuseOf? (by decide +kernel)

end RegisterCompiler
