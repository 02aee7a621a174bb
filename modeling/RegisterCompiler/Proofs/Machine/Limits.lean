/-
Runs under different step limits.

An instruction works on the contents of a machine and on nothing else, so that machines
with the same contents take the same steps whatever their limits and counters are.  A run
that ends within its limit is the same under every larger one, and a run that uses up its
limit is the beginning of the run under a larger one.
-/

import Mathlib.Data.List.Infix
import RegisterCompiler.Proofs.Machine.Moments

set_option autoImplicit false

namespace RegisterCompiler
namespace Machine

/-! ### What an instruction works on -/

/-- The contents of one machine under the code, the limit and the counters of another. -/
def refill (books contents : Machine) : Machine :=
  { books with
    registers := contents.registers
    memory := contents.memory
    input := contents.input
    sink := contents.sink
    output := contents.output }

private theorem combine_refill (books machine : Machine) (line register : Int) (value : Nat)
    (operation : Nat → Nat → Nat) :
    (books.refill machine).combine line register value operation =
      ((machine.combine line register value operation).1,
        books.refill (machine.combine line register value operation).2) := by
  unfold combine
  rw [show (books.refill machine).cell? = machine.cell? from rfl]
  cases machine.cell? with
  | none => rfl
  | some cell => rfl

private theorem give_refill (books machine : Machine) (value : Nat) :
    (books.refill machine).give value = books.refill (machine.give value) := by
  unfold give
  rw [show (books.refill machine).sink = machine.sink from rfl]
  split <;> simp_all [refill]

private theorem executeOn_refill (books machine : Machine) (line : Int) (instruction : Instruction)
    (value : Nat) :
    (books.refill machine).executeOn line instruction value =
      ((machine.executeOn line instruction value).1,
        books.refill (machine.executeOn line instruction value).2) := by
  cases hOpcode : instruction.opcode <;> simp only [executeOn, hOpcode]
  case get =>
    rw [take_eq, take_eq, show (books.refill machine).input = machine.input from rfl]
    cases (takeNumber machine.input).1 with
    | error cause => rfl
    | ok taken => rfl
  case put =>
    rw [show (books.refill machine).isClosed = machine.isClosed from rfl, give_refill]
    cases machine.isClosed <;> rfl
  case load | add | sub => exact combine_refill books machine line _ value _
  all_goals rfl

private theorem execute_refill (books machine : Machine) (line : Int) (instruction : Instruction) :
    (books.refill machine).execute line instruction =
      ((machine.execute line instruction).1,
        books.refill (machine.execute line instruction).2) := by
  unfold execute
  split
  · rfl
  · rw [show (books.refill machine).register? instruction.register =
      machine.register? instruction.register from rfl]
    cases machine.register? instruction.register with
    | none => rfl
    | some value => exact executeOn_refill books machine line instruction value

theorem execute_eq_refill (machine : Machine) (line : Int) (instruction : Instruction) :
    (machine.execute line instruction).2 = machine.refill (machine.execute line instruction).2 :=
  congrArg Prod.snd (execute_refill machine machine line instruction)

private theorem output_give (machine : Machine) (value : Nat) :
    machine.output.toList <+: (machine.give value).output.toList := by
  unfold give
  split
  · exact List.prefix_rfl
  · exact List.prefix_rfl
  · simp
  · simp

private theorem output_execute (machine : Machine) (line : Int) (instruction : Instruction) :
    machine.output.toList <+: (machine.execute line instruction).2.output.toList := by
  have hCombine : ∀ register value operation, machine.output.toList <+:
      (machine.combine line register value operation).2.output.toList := by
    intro register value operation
    unfold combine
    cases machine.cell? <;> exact List.prefix_rfl
  unfold execute
  split
  · exact List.prefix_rfl
  cases machine.register? instruction.register with
  | none => exact List.prefix_rfl
  | some value =>
      cases hOpcode : instruction.opcode <;> simp only [executeOn, hOpcode]
      case get =>
        rw [take_eq]
        cases (takeNumber machine.input).1 <;> exact List.prefix_rfl
      case put =>
        split
        · exact List.prefix_rfl
        · exact output_give machine value
      case load | add | sub => exact hCombine _ _ _
      all_goals exact List.prefix_rfl

private theorem steps_execute (machine : Machine) (line : Int) (instruction : Instruction) :
    (machine.execute line instruction).2.steps = machine.steps := by
  rw [execute_eq_refill]
  rfl

/-! ### How a run ends -/

/-- What a run comes to that ends at once, with so many steps left. -/
inductive Ends : Nat → Machine → Int → Except RunFault Unit × Machine → Prop where
  | outside (budget : Nat) {machine : Machine} {line : Int}
      (hAt : machine.instruction? line = none) :
      Ends budget machine line
        (.error (if line = machine.code.size then .noHalt else .badJump line), machine)
  | limit {machine : Machine} {line : Int} {instruction : Instruction}
      (hAt : machine.instruction? line = some instruction) :
      Ends 0 machine line (.error (.stepLimit machine.limit), machine)
  | cancelled (budget : Nat) {machine : Machine} {line : Int} {instruction : Instruction}
      (hAt : machine.instruction? line = some instruction)
      (hCancelled : machine.stopsCancelled = true) :
      Ends (budget + 1) machine line (.error .cancelled, machine)
  | halt (budget : Nat) {machine : Machine} {line : Int} {instruction : Instruction}
      (hAt : machine.instruction? line = some instruction)
      (hActive : machine.stopsCancelled = false) (hHalt : instruction.opcode = .halt) :
      Ends (budget + 1) machine line (.ok (), machine.charge line instruction)
  | fault (budget : Nat) {machine after : Machine} {line : Int} {instruction : Instruction}
      {cause : ExecutionFault} (hAt : machine.instruction? line = some instruction)
      (hActive : machine.stopsCancelled = false) (hGoes : instruction.opcode ≠ .halt)
      (hExecute :
        (machine.charge line instruction).execute line instruction = (.error cause, after)) :
      Ends (budget + 1) machine line (.error (.execution line instruction cause), after)

variable {machine last : Machine} {budget count : Nat} {line lastLine : Int}
  {result : Except RunFault Unit × Machine}

private theorem Ends.runFrom_eq (hEnds : Ends budget machine line result) :
    runFrom budget machine line = result := by
  cases hEnds with
  | outside budget hAt => rw [runFrom, hAt]
  | limit hAt => rw [runFrom, hAt]
  | cancelled budget hAt hCancelled =>
      rw [runFrom, hAt]
      exact if_pos hCancelled
  | halt budget hAt hActive hHalt =>
      rw [runFrom, hAt]
      simp only [hActive, Bool.false_eq_true, if_false, hHalt, if_true]
  | fault budget hAt hActive hGoes hExecute =>
      rw [runFrom, hAt]
      simp only [hActive, Bool.false_eq_true, if_false, hGoes, hExecute]

theorem exists_ends (budget : Nat) (machine : Machine) (line : Int) :
    ∃ count left last lastLine, budget = count + left ∧ Steps count machine line last lastLine ∧
      Ends left last lastLine (runFrom budget machine line) := by
  fun_induction runFrom budget machine line with
  | case1 budget machine line hAt =>
      exact ⟨0, budget, machine, line, (Nat.zero_add _).symm, .refl _ _, .outside budget hAt⟩
  | case2 machine line instruction hAt =>
      exact ⟨0, 0, machine, line, rfl, .refl _ _, .limit hAt⟩
  | case3 machine line instruction hAt budget hCancelled =>
      exact ⟨0, _, machine, line, (Nat.zero_add _).symm, .refl _ _,
        .cancelled budget hAt hCancelled⟩
  | case4 machine line instruction hAt budget hActive charged hHalt =>
      exact ⟨0, _, machine, line, (Nat.zero_add _).symm, .refl _ _,
        .halt budget hAt (Bool.eq_false_iff.mpr hActive) hHalt⟩
  | case5 machine line instruction hAt budget hActive charged hHalt next after hExecute
      inductionHypothesis =>
      obtain ⟨count, left, last, lastLine, rfl, hSteps, hEnds⟩ := inductionHypothesis
      exact ⟨count + 1, left, last, lastLine, by omega,
        .step hAt (Bool.eq_false_iff.mpr hActive) hHalt hExecute hSteps, hEnds⟩
  | case6 machine line instruction hAt budget hActive charged hHalt cause after hExecute =>
      exact ⟨0, _, machine, line, (Nat.zero_add _).symm, .refl _ _,
        .fault budget hAt (Bool.eq_false_iff.mpr hActive) hHalt hExecute⟩

private theorem Ends.grows (hEnds : Ends budget machine line result) :
    (machine.steps ≤ result.2.steps ∧ result.2.steps ≤ machine.steps + budget) ∧
      machine.output.toList <+: result.2.output.toList := by
  cases hEnds with
  | outside | limit | cancelled =>
      exact ⟨⟨Nat.le_refl _, Nat.le_add_right _ _⟩, List.prefix_rfl⟩
  | halt =>
      exact ⟨⟨Nat.le_succ _, Nat.add_le_add_left (Nat.le_add_left 1 _) _⟩, List.prefix_rfl⟩
  | @fault budget _ after line instruction cause hAt hActive hGoes hExecute =>
      have hAfter := congrArg Prod.snd hExecute
      have hOutput := output_execute (machine.charge line instruction) line instruction
      have hCounted := steps_execute (machine.charge line instruction) line instruction
      rw [hAfter] at hOutput hCounted
      have hStep : after.steps = machine.steps + 1 := hCounted
      refine ⟨?_, hOutput⟩
      change machine.steps ≤ after.steps ∧ after.steps ≤ machine.steps + (budget + 1)
      omega

private theorem Steps.grows (hSteps : Steps count machine line last lastLine) :
    last.steps = machine.steps + count ∧ machine.output.toList <+: last.output.toList := by
  induction hSteps with
  | refl => exact ⟨rfl, List.prefix_rfl⟩
  | @step count machine middle last line next lastLine instruction hAt hActive hGoes hExecute _
      inductionHypothesis =>
      have hMiddle := congrArg Prod.snd hExecute
      have hOutput := output_execute (machine.charge line instruction) line instruction
      have hCounted := steps_execute (machine.charge line instruction) line instruction
      rw [hMiddle] at hOutput hCounted
      have hStep : middle.steps = machine.steps + 1 := hCounted
      exact ⟨by omega, List.IsPrefix.trans hOutput inductionHypothesis.2⟩

/-- A run takes no more steps than it may, and adds to the output or leaves it as it is. -/
theorem runFrom_grows (budget : Nat) (machine : Machine) (line : Int) :
    (machine.steps ≤ (runFrom budget machine line).2.steps ∧
      (runFrom budget machine line).2.steps ≤ machine.steps + budget) ∧
      machine.output.toList <+: (runFrom budget machine line).2.output.toList := by
  obtain ⟨count, left, last, lastLine, rfl, hSteps, hEnds⟩ := exists_ends budget machine line
  obtain ⟨hCount, hFirst⟩ := hSteps.grows
  obtain ⟨hLeft, hSecond⟩ := hEnds.grows
  exact ⟨by omega, hFirst.trans hSecond⟩

/-! ### Larger budgets -/

def allow (machine : Machine) (limit : Nat) : Machine :=
  { machine with limit := limit }

private theorem execute_allow (machine : Machine) (limit : Nat) (line : Int)
    (instruction : Instruction) :
    ((machine.allow limit).charge line instruction).execute line instruction =
      (((machine.charge line instruction).execute line instruction).1,
        ((machine.charge line instruction).execute line instruction).2.allow limit) := by
  rw [execute_eq_refill (machine.charge line instruction)]
  exact execute_refill ((machine.allow limit).charge line instruction)
    (machine.charge line instruction) line instruction

private theorem Steps.allow (hSteps : Steps count machine line last lastLine) (limit : Nat) :
    Steps count (machine.allow limit) line (last.allow limit) lastLine := by
  induction hSteps with
  | refl => exact .refl _ _
  | step hAt hActive hGoes hExecute _ inductionHypothesis =>
      exact .step hAt hActive hGoes (by rw [execute_allow, hExecute]) inductionHypothesis

private theorem Ends.allow (hEnds : Ends budget machine line result)
    (hOther : ∀ limit, result.1 ≠ .error (.stepLimit limit)) (more limit : Nat) :
    Ends (budget + more) (machine.allow limit) line (result.1, result.2.allow limit) := by
  cases hEnds with
  | outside budget hAt => exact .outside _ hAt
  | limit hAt => exact absurd rfl (hOther machine.limit)
  | cancelled budget hAt hCancelled =>
      rw [Nat.add_right_comm]
      exact .cancelled _ hAt hCancelled
  | halt budget hAt hActive hHalt =>
      rw [Nat.add_right_comm]
      exact .halt _ hAt hActive hHalt
  | fault budget hAt hActive hGoes hExecute =>
      rw [Nat.add_right_comm]
      exact .fault _ hAt hActive hGoes (by rw [execute_allow, hExecute])

private theorem Ends.of_stepLimit {found : Nat} (hEnds : Ends budget machine line result)
    (hStops : result.1 = .error (.stepLimit found)) :
    found = machine.limit ∧ budget = 0 ∧ result.2 = machine := by
  cases hEnds with
  | outside budget hAt =>
      have hOther := (stopsWith_of_none hAt (Except.error.inj hStops)).2
      exact absurd rfl (hOther found)
  | limit hAt => exact ⟨by cases hStops; rfl, rfl, rfl⟩
  | cancelled | halt | fault => cases hStops

/-- A larger budget changes nothing about a run that ends within the smaller one, and goes on
where a run stops that has used it up. -/
theorem runFrom_allow (budget more limit : Nat) (machine : Machine) (line : Int) :
    ((∀ found, (runFrom budget machine line).1 ≠ .error (.stepLimit found)) →
      runFrom (budget + more) (machine.allow limit) line =
        ((runFrom budget machine line).1, (runFrom budget machine line).2.allow limit)) ∧
    ∀ found, (runFrom budget machine line).1 = .error (.stepLimit found) →
      found = machine.limit ∧ (runFrom budget machine line).2.steps = machine.steps + budget ∧
        ∃ next, runFrom (budget + more) (machine.allow limit) line =
          runFrom more ((runFrom budget machine line).2.allow limit) next := by
  obtain ⟨count, left, last, lastLine, rfl, hSteps, hEnds⟩ := exists_ends budget machine line
  have hFollows : ∀ rest, runFrom (count + rest) (machine.allow limit) line =
      runFrom rest (last.allow limit) lastLine := runFrom_of_steps (hSteps.allow limit)
  constructor
  · intro hOther
    rw [Nat.add_assoc, hFollows]
    exact (hEnds.allow hOther more limit).runFrom_eq
  · intro found hStops
    obtain ⟨hLimit, rfl, hLast⟩ := hEnds.of_stepLimit hStops
    rw [hLast]
    exact ⟨hLimit.trans hSteps.sameSetup.limit, hSteps.grows.1, lastLine, hFollows more⟩

/-! ### Machines under different limits -/

theorem create_allow (code : List Instruction) (config : MachineConfig) {smaller larger : Nat}
    (hPositive : 0 < smaller) (hLarger : smaller ≤ larger) {machine : Machine}
    (hCreate : Machine.create code { config with stepLimit := smaller } = .ok machine) :
    machine.limit = smaller ∧ machine.steps = 0 ∧
      Machine.create code { config with stepLimit := larger } = .ok (machine.allow larger) := by
  have hNonzero : larger ≠ 0 := Nat.ne_of_gt (Nat.lt_of_lt_of_le hPositive hLarger)
  unfold Machine.create at hCreate ⊢
  split at hCreate
  · cases hCreate
  · rename_i hRegisters
    rw [if_neg (Nat.ne_of_gt hPositive)] at hCreate
    cases hCreate
    refine ⟨rfl, rfl, ?_⟩
    rw [if_neg hRegisters, if_neg hNonzero]
    rfl

/-- A run that ends by itself within a step limit is the same under every larger limit.  A run
that uses up its limit has made as many steps, and what it has put is the beginning of what is
put under a larger limit. -/
theorem run_under_larger_limit (code : List Instruction) (config : MachineConfig)
    {smaller larger : Nat} (hPositive : 0 < smaller) (hLarger : smaller ≤ larger)
    {machine : Machine}
    (hCreate : Machine.create code { config with stepLimit := smaller } = .ok machine) :
    ∃ longer, Machine.create code { config with stepLimit := larger } = .ok longer ∧
      ((∀ limit, machine.run.1 ≠ .error (.stepLimit limit)) →
        longer.run = (machine.run.1, { machine.run.2 with limit := larger })) ∧
      ∀ limit, machine.run.1 = .error (.stepLimit limit) →
        limit = smaller ∧ machine.run.2.steps = smaller ∧
          machine.run.2.output.toList <+: longer.run.2.output.toList ∧
          smaller ≤ longer.run.2.steps := by
  obtain ⟨hLimit, hSteps, hLonger⟩ := create_allow code config hPositive hLarger hCreate
  obtain ⟨more, rfl⟩ := Nat.exists_eq_add_of_le hLarger
  obtain ⟨hEnds, hStops⟩ := runFrom_allow smaller more (smaller + more) machine 0
  have hRun : machine.run = runFrom smaller machine 0 := by
    rw [run, hLimit, hSteps]
    rfl
  have hLongerRun : (machine.allow (smaller + more)).run =
      runFrom (smaller + more) (machine.allow (smaller + more)) 0 := by
    rw [run, show (machine.allow (smaller + more)).steps = 0 from hSteps]
    rfl
  refine ⟨_, hLonger, ?_, ?_⟩
  · intro hOther
    rw [hRun] at hOther ⊢
    rw [hLongerRun]
    exact hEnds hOther
  · intro limit hLast
    rw [hRun] at hLast ⊢
    obtain ⟨hFound, hCount, next, hGoesOn⟩ := hStops limit hLast
    rw [hLongerRun, hGoesOn]
    rw [hSteps, Nat.zero_add] at hCount
    obtain ⟨⟨hMore, -⟩, hOutput⟩ :=
      runFrom_grows more ((runFrom smaller machine 0).2.allow (smaller + more)) next
    exact ⟨hFound.trans hLimit, hCount, hOutput, Nat.le_trans (Nat.le_of_eq hCount.symm) hMore⟩

def counting : List Instruction :=
  [⟨.inc, 1, 0⟩, ⟨.put, 1, 0⟩, ⟨.jump, 0, 0⟩]

def twoRegisters (stepLimit : Nat) : MachineConfig where
  registers := 2
  stepLimit := stepLimit
  input := none
  sink := .unbounded
  profile := false
  cancelled := false

theorem counting_under_larger_limit : ∃ machine longer,
    Machine.create counting (twoRegisters 3) = .ok machine ∧
      Machine.create counting (twoRegisters 5) = .ok longer ∧
      machine.run.1 = .error (.stepLimit 3) ∧ machine.run.2.steps = 3 ∧
      machine.run.2.output.toList = [1] ∧ [1] <+: longer.run.2.output.toList ∧
      3 ≤ longer.run.2.steps := by
  have hLarger : 3 ≤ 5 := by decide
  obtain ⟨longer, hLonger, -, hStops⟩ :=
    run_under_larger_limit counting (twoRegisters 0) (Nat.succ_pos 2) hLarger rfl
  obtain ⟨-, hSteps, hOutput, hMore⟩ := hStops 3 rfl
  exact ⟨_, longer, rfl, hLonger, rfl, hSteps, rfl, hOutput, hMore⟩

end Machine
end RegisterCompiler
