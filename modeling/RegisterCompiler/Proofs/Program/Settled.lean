/-
Simplifying settled programs.

A program to which no rewrite applies is not left as it is: its conditionals get an empty ELSE
part where they have none.  A conditional with an ELSE part is compiled with a jump around that
part, so the code of such a program is another one than that of the program as written.  It is
the same program, and the same code, just where every conditional has its ELSE part already.
-/

import RegisterCompiler.Proofs.Correctness
import RegisterCompiler.Proofs.Program.Rewriting

set_option autoImplicit false

namespace RegisterCompiler

namespace Command

def lacksElse : Command → Bool
  | .ifThen _ _ _ => true
  | _ => false

def HaveElse (commands : List Command) : Prop :=
  ∀ command ∈ visitAll (fun _ => true) commands, command.lacksElse = false

private theorem haveElse_nil : HaveElse [] := by
  intro command hCommand
  cases hCommand

private theorem haveElse_cons {command : Command} {rest : List Command} :
    HaveElse (command :: rest) ↔
      (∀ inner ∈ command.visit (fun _ => true), inner.lacksElse = false) ∧ HaveElse rest :=
  List.forall_mem_append

mutual

theorem complete_eq_iff (command : Command) :
    command.complete = command ↔
      ∀ inner ∈ command.visit (fun _ => true), inner.lacksElse = false := by
  cases command with
  | assign span target value => simp [complete, visit, lacksElse]
  | read span target => simp [complete, visit, lacksElse]
  | write span value => simp [complete, visit, lacksElse]
  | skip span => simp [complete, visit, lacksElse]
  | ifThen span condition body => simp [complete, visit, lacksElse]
  | ifElse span condition body orElse =>
      have hBody := completeAll_eq_iff body
      have hElse := completeAll_eq_iff orElse
      simp only [complete, visit, ifElse.injEq, true_and, hBody, hElse, if_true,
        List.forall_mem_cons, lacksElse, List.forall_mem_append]
      rfl
  | whileLoop span condition body =>
      have hBody := completeAll_eq_iff body
      simp only [complete, visit, whileLoop.injEq, true_and, hBody, if_true,
        List.forall_mem_cons, lacksElse]
      rfl
  | forLoop span iterator first last direction body =>
      have hBody := completeAll_eq_iff body
      simp only [complete, visit, forLoop.injEq, true_and, hBody, if_true,
        List.forall_mem_cons, lacksElse]
      rfl

/-- Completing changes nothing just where every conditional has an ELSE part. -/
theorem completeAll_eq_iff (commands : List Command) :
    completeAll commands = commands ↔ HaveElse commands := by
  cases commands with
  | nil => exact ⟨fun _ => haveElse_nil, fun _ => rfl⟩
  | cons command rest =>
      rw [completeAll, List.cons.injEq, haveElse_cons, complete_eq_iff command,
        completeAll_eq_iff rest]

end

/-! ### Deciding whether a rewrite applies -/

mutual

def isSettled : Command → Bool
  | .assign _ target value => value.simplify == value && !value.isCell target
  | .ifThen _ condition body =>
      condition.simplify == condition && condition.static?.isNone && isSettledAll body
  | .ifElse _ condition body orElse =>
      condition.simplify == condition && condition.static?.isNone && isSettledAll body &&
        isSettledAll orElse
  | .whileLoop _ condition body =>
      condition.simplify == condition && condition.static? != some false && isSettledAll body
  | .forLoop _ _ first last direction body => !direction.isEmpty first last && isSettledAll body
  | .read _ _ => true
  | .write _ _ => true
  | .skip _ => true

def isSettledAll : List Command → Bool
  | [] => true
  | command :: rest => isSettled command && isSettledAll rest

end

private theorem not_folds_of_simplify_eq {value : Expression}
    (hSame : (value.simplify == value) = true) (result : Expression) : ¬ value.Folds result := by
  have hNot : ¬ value.simplify.Folds result := value.not_folds_simplify
  rw [eq_of_beq hSame] at hNot
  exact hNot

private theorem condition_not_folds_of_simplify_eq {condition : Condition}
    (hSame : (condition.simplify == condition) = true) (result : Condition) :
    ¬ condition.Folds result := by
  have hNot : ¬ condition.simplify.Folds result := condition.not_folds_simplify
  rw [eq_of_beq hSame] at hNot
  exact hNot

mutual

theorem settled_of_isSettled {command : Command} (hSettled : command.isSettled = true) :
    Settled [command] := by
  cases command with
  | assign span target value =>
      simp only [isSettled, Bool.and_eq_true, Bool.not_eq_true'] at hSettled
      exact .assign (not_folds_of_simplify_eq hSettled.1) hSettled.2
  | read span target => exact .singleton fun _ hRewrites => by cases hRewrites
  | write span value => exact .singleton fun _ hRewrites => by cases hRewrites
  | skip span => exact .singleton fun _ hRewrites => by cases hRewrites
  | ifThen span condition body =>
      simp only [isSettled, Bool.and_eq_true, Option.isNone_iff_eq_none] at hSettled
      obtain ⟨⟨hCondition, hStatic⟩, hBody⟩ := hSettled
      exact .ifThen (condition_not_folds_of_simplify_eq hCondition) hStatic
        (settled_of_isSettledAll hBody)
  | ifElse span condition body orElse =>
      simp only [isSettled, Bool.and_eq_true, Option.isNone_iff_eq_none] at hSettled
      obtain ⟨⟨⟨hCondition, hStatic⟩, hBody⟩, hElse⟩ := hSettled
      exact .ifElse (condition_not_folds_of_simplify_eq hCondition) hStatic
        (settled_of_isSettledAll hBody) (settled_of_isSettledAll hElse)
  | whileLoop span condition body =>
      simp only [isSettled, Bool.and_eq_true, bne_iff_ne] at hSettled
      obtain ⟨⟨hCondition, hStatic⟩, hBody⟩ := hSettled
      exact .whileLoop (condition_not_folds_of_simplify_eq hCondition) hStatic
        (settled_of_isSettledAll hBody)
  | forLoop span iterator first last direction body =>
      simp only [isSettled, Bool.and_eq_true, Bool.not_eq_true'] at hSettled
      obtain ⟨hRounds, hBody⟩ := hSettled
      exact .forLoop (Bool.not_eq_true _ ▸ hRounds) (settled_of_isSettledAll hBody)

theorem settled_of_isSettledAll {commands : List Command}
    (hSettled : isSettledAll commands = true) : Settled commands := by
  cases commands with
  | nil => exact .nil
  | cons command rest =>
      simp only [isSettledAll, Bool.and_eq_true] at hSettled
      exact (settled_of_isSettled hSettled.1).append (settled_of_isSettledAll hSettled.2)

end

end Command

/-! ### Settled programs -/

def Program.complete (program : Program) : Program :=
  { program with body := Command.completeAll program.body }

private theorem Program.complete_eq_iff {program : Program} :
    program.complete = program ↔ Command.HaveElse program.body := by
  rw [← Command.completeAll_eq_iff]
  obtain ⟨span, declarations, body⟩ := program
  simp [complete]

/-- Where simplifying leaves a program as it is, builds are the same with and without it. -/
theorem build_eq_of_simplify_eq {text : Text.Bytes} {program : Program}
    (hParse : parse text = .ok program) (hSame : program.simplify = program)
    (options : GeneratorOptions) (includeSource : Bool) (id : String) (cancelled : Bool) :
    build ⟨options, true, includeSource⟩ id cancelled text =
      build ⟨options, false, includeSource⟩ id cancelled text := by
  cases hCheck : check text with
  | error fault => simp only [build, hCheck, bind, Except.bind]
  | ok checked =>
      have hProgram : checked.program = program :=
        Except.ok.inj ((exists_of_check hCheck).1.symm.trans hParse)
      simp only [build, hCheck, bind, Except.bind, BuildOptions.prepare, if_true,
        Bool.false_eq_true, if_false, hProgram, hSame]

/-- A program to which no rewrite applies is simplified by giving its conditionals an ELSE part,
and by nothing else.  It stays as it is just where all of them have one, and then its code is the
same as well. -/
theorem simplify_of_settled_program {text : Text.Bytes} {program : Program}
    (hParse : parse text = .ok program) (hSettled : Command.Settled program.body) :
    program.simplify = program.complete ∧
      (program.simplify = program ↔ Command.HaveElse program.body) ∧
      (Command.HaveElse program.body → ∀ options,
        generateCode options program.simplify = generateCode options program ∧
          ∀ includeSource id cancelled,
            build ⟨options, true, includeSource⟩ id cancelled text =
              build ⟨options, false, includeSource⟩ id cancelled text) := by
  have hSimplify : program.simplify = program.complete := by
    simp only [Program.simplify, Program.complete, Command.simplifyAll_of_settled hSettled]
  have hUnchanged : program.simplify = program ↔ Command.HaveElse program.body := by
    rw [hSimplify]
    exact Program.complete_eq_iff
  refine ⟨hSimplify, hUnchanged, ?_⟩
  intro hElse options
  have hSame := hUnchanged.mpr hElse
  exact ⟨by rw [hSame], build_eq_of_simplify_eq hParse hSame options⟩

def balancedConditional : Text.Bytes :=
  Text.encode "VAR n BEGIN READ n; IF n = 1 THEN WRITE n; ELSE SKIP; ENDIF END"

theorem balanced_conditional_simplify :
    ∃ program, parse balancedConditional = .ok program ∧ Command.Settled program.body ∧
      program.simplify = program.complete ∧
      (program.simplify = program ↔ Command.HaveElse program.body) ∧
      (Command.HaveElse program.body → ∀ options,
        generateCode options program.simplify = generateCode options program ∧
          ∀ includeSource id cancelled,
            build ⟨options, true, includeSource⟩ id cancelled balancedConditional =
              build ⟨options, false, includeSource⟩ id cancelled balancedConditional) := by
  obtain ⟨program, hParse, hTest⟩ : ∃ program, parse balancedConditional = .ok program ∧
      Command.isSettledAll program.body = true := exists_of_any_toOption (by decide +kernel)
  have hSettled := Command.settled_of_isSettledAll hTest
  exact ⟨program, hParse, hSettled, simplify_of_settled_program hParse hSettled⟩

def loneConditional : Text.Bytes :=
  Text.encode "VAR n BEGIN READ n; IF n = 1 THEN WRITE n; ENDIF END"

def codeSize? (program : Program) : Option Nat :=
  (generateCode .standard program).toOption.map fun code => code.listing.size

private theorem exists_of_codeSize? {program : Program} {size : Nat}
    (hSize : codeSize? program = some size) :
    ∃ code, generateCode .standard program = .ok code ∧ code.listing.size = size := by
  unfold codeSize? at hSize
  cases hCode : generateCode .standard program with
  | error fault =>
      rw [hCode] at hSize
      cases hSize
  | ok code =>
      rw [hCode] at hSize
      exact ⟨code, rfl, Option.some.inj hSize⟩

/-- No rewrite applies to this program, yet it is not left as it is: its conditional gets an ELSE
part, and its code a jump around that part. -/
theorem lone_conditional_not_unchanged :
    ∃ program, parse loneConditional = .ok program ∧ Command.Settled program.body ∧
      program.simplify ≠ program ∧
      ∃ plain simple, generateCode .standard program = .ok plain ∧
        generateCode .standard program.simplify = .ok simple ∧
        plain.listing.size = 42 ∧ simple.listing.size = 43 := by
  obtain ⟨program, hParse, hTest⟩ : ∃ program, parse loneConditional = .ok program ∧
      (Command.isSettledAll program.body &&
        (Command.visitAll (fun _ => true) program.body).any Command.lacksElse &&
        codeSize? program == some 42 && codeSize? program.simplify == some 43) = true :=
    exists_of_any_toOption (by decide +kernel)
  simp only [Bool.and_eq_true, beq_iff_eq, List.any_eq_true] at hTest
  obtain ⟨⟨⟨hSettled, command, hCommand, hLacks⟩, hPlain⟩, hSimple⟩ := hTest
  have hSettled := Command.settled_of_isSettledAll hSettled
  obtain ⟨plain, hPlainCode, hPlainSize⟩ := exists_of_codeSize? hPlain
  obtain ⟨simple, hSimpleCode, hSimpleSize⟩ := exists_of_codeSize? hSimple
  refine ⟨program, hParse, hSettled, ?_,
    plain, simple, hPlainCode, hSimpleCode, hPlainSize, hSimpleSize⟩
  intro hSame
  have hBody : Command.completeAll program.body = program.body :=
    (Command.simplifyAll_of_settled hSettled).symm.trans (congrArg Program.body hSame)
  have hElse := Command.completeAll_eq_iff program.body |>.mp hBody
  rw [hElse command hCommand] at hLacks
  cases hLacks

end RegisterCompiler
