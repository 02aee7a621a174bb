/-
The counters of a machine.

Every instruction that is executed, also one that fails, is counted once: as a step, with
its cost, and in the profile of its line.  So after any number of runs the steps are the sum
of the counts of all lines, and the cost is the sum of the counts times the costs of the
instructions.  The report of the executed lines lists them by their counts.
-/

import Mathlib.Algebra.BigOperators.Group.Finset.Basic
import Mathlib.Algebra.BigOperators.Ring.Finset
import RegisterCompiler.Proofs.Machine.Limits
import RegisterCompiler.Proofs.Store.Histories

set_option autoImplicit false

namespace RegisterCompiler
namespace Machine

/-! ### Counting -/

def costAt (machine : Machine) (line : Nat) : Nat :=
  (machine.code[line]?).elim 0 fun instruction => instruction.opcode.cost.toNat

def tally (machine : Machine) (weight : Nat → Nat) : Nat :=
  ∑ line ∈ Finset.range machine.code.size, machine.count line * weight line

def Profiled (machine : Machine) : Prop :=
  ∃ counts, machine.profile = some counts ∧ counts.size = machine.code.size

structure Tallied (machine : Machine) : Prop where
  profiled : machine.Profiled
  steps : machine.steps = machine.tally fun _ => 1
  cost : machine.cost.toNat = machine.tally machine.costAt % 2 ^ 64

variable {machine last : Machine} {instruction : Instruction} {line lastLine : Int}
  {budget count number : Nat} {result : Except RunFault Unit × Machine}

private theorem exists_line_of_instruction? (hAt : machine.instruction? line = some instruction) :
    ∃ number : Nat, line = number ∧ number < machine.code.size ∧
      machine.code[number]? = some instruction := by
  unfold instruction? at hAt
  split at hAt
  · cases hAt
  · exact ⟨line.toNat, by omega, (Array.getElem?_eq_some_iff.mp hAt).1, hAt⟩

private theorem count_eq {counts : Array Nat} (hProfile : machine.profile = some counts)
    (line : Nat) :
    machine.count line = counts[line]?.getD 0 := by
  rw [Machine.count, if_neg (by omega), hProfile]
  rfl

private theorem Profiled.charge (hProfiled : machine.Profiled) (line : Int)
    (instruction : Instruction) :
    (machine.charge line instruction).Profiled := by
  obtain ⟨counts, hCounts, hSize⟩ := hProfiled
  refine ⟨counts.modify line.toNat (· + 1), ?_, ?_⟩
  · rw [Machine.charge, hCounts]
    rfl
  · rw [Array.size_modify]
    exact hSize

private theorem count_charge (hProfiled : machine.Profiled) (hInside : number < machine.code.size)
    (instruction : Instruction) (other : Nat) :
    (machine.charge number instruction).count other =
      machine.count other + if other = number then 1 else 0 := by
  obtain ⟨counts, hCounts, hSize⟩ := hProfiled
  have hCharged : (machine.charge number instruction).profile =
      some (counts.modify number (· + 1)) := by
    rw [Machine.charge, hCounts]
    rfl
  rw [count_eq hCounts, count_eq hCharged, Array.getElem?_modify]
  by_cases hSame : number = other
  · subst hSame
    rw [if_pos rfl, if_pos rfl, Array.getElem?_eq_getElem (hSize ▸ hInside)]
    rfl
  · rw [if_neg hSame, if_neg (Ne.symm hSame), Nat.add_zero]

private theorem tally_charge (hProfiled : machine.Profiled) (hInside : number < machine.code.size)
    (instruction : Instruction) (weight : Nat → Nat) :
    (machine.charge number instruction).tally weight = machine.tally weight + weight number := by
  have hTerm : ∀ other ∈ Finset.range machine.code.size,
      (machine.charge number instruction).count (other : Nat) * weight other =
        machine.count other * weight other + if other = number then weight number else 0 := by
    intro other _
    rw [count_charge hProfiled hInside, Nat.add_mul]
    split
    · rename_i hSame
      rw [hSame, Nat.one_mul]
    · rw [Nat.zero_mul]
  unfold tally
  rw [show (machine.charge number instruction).code = machine.code from rfl,
    Finset.sum_congr rfl hTerm, Finset.sum_add_distrib, Finset.sum_ite_eq',
    if_pos (Finset.mem_range.mpr hInside)]

private theorem Tallied.charge (hTallied : machine.Tallied)
    (hAt : machine.instruction? line = some instruction) :
    (machine.charge line instruction).Tallied := by
  obtain ⟨number, rfl, hInside, hCode⟩ := exists_line_of_instruction? hAt
  have hCost : machine.costAt number = instruction.opcode.cost.toNat := by
    rw [costAt, hCode]
    rfl
  refine ⟨hTallied.profiled.charge _ _, ?_, ?_⟩
  · rw [tally_charge hTallied.profiled hInside, ← hTallied.steps]
    rfl
  · have hSum : (machine.charge number instruction).cost.toNat =
        (machine.cost.toNat + instruction.opcode.cost.toNat) % 2 ^ 64 := UInt64.toNat_add _ _
    rw [hSum, hTallied.cost, ← hCost, Nat.mod_add_mod,
      show (machine.charge number instruction).costAt = machine.costAt from rfl,
      tally_charge hTallied.profiled hInside]

private theorem Tallied.refill (hTallied : machine.Tallied) (contents : Machine) :
    (machine.refill contents).Tallied :=
  ⟨hTallied.profiled, hTallied.steps, hTallied.cost⟩

private theorem Tallied.step {result : Except ExecutionFault Int} {after : Machine}
    (hTallied : machine.Tallied) (hAt : machine.instruction? line = some instruction)
    (hExecute : (machine.charge line instruction).execute line instruction = (result, after)) :
    after.Tallied := by
  have hAfter := execute_eq_refill (machine.charge line instruction) line instruction
  rw [hExecute] at hAfter
  rw [show after = (machine.charge line instruction).refill after from hAfter]
  exact (hTallied.charge hAt).refill _

/-! ### Runs -/

theorem Tallied.steps_of (hTallied : machine.Tallied)
    (hSteps : Steps count machine line last lastLine) : last.Tallied := by
  induction hSteps with
  | refl => exact hTallied
  | step hAt _ _ hExecute _ inductionHypothesis =>
      exact inductionHypothesis (hTallied.step hAt hExecute)

private theorem Ends.tallied (hEnds : Ends budget machine line result)
    (hTallied : machine.Tallied) :
    result.2.Tallied := by
  cases hEnds with
  | outside | limit | cancelled => exact hTallied
  | halt budget hAt => exact hTallied.charge hAt
  | fault budget hAt hActive hGoes hExecute => exact hTallied.step hAt hExecute

private theorem Tallied.runFrom (hTallied : machine.Tallied) (budget : Nat) (line : Int) :
    (runFrom budget machine line).2.Tallied := by
  obtain ⟨_, _, _, _, -, hSteps, hEnds⟩ := exists_ends budget machine line
  exact hEnds.tallied (hTallied.steps_of hSteps)

private theorem Ends.sameSetup (hEnds : Ends budget machine line result) :
    SameSetup machine result.2 := by
  cases hEnds with
  | outside | limit | cancelled | halt => exact ⟨rfl, rfl, rfl⟩
  | fault budget hAt hActive hGoes hExecute => exact sameSetup_step hExecute

private theorem sameSetup_runFrom (budget : Nat) (machine : Machine) (line : Int) :
    SameSetup machine (Machine.runFrom budget machine line).2 := by
  obtain ⟨_, _, _, _, -, hSteps, hEnds⟩ := exists_ends budget machine line
  exact hSteps.sameSetup.trans hEnds.sameSetup

/-! ### Instructions that fail -/

/-- An instruction that fails leaves the registers and the memory as they are. -/
theorem contents_of_execute_error {cause : ExecutionFault} {after : Machine}
    (hExecute : machine.execute line instruction = (.error cause, after)) :
    after.registers = machine.registers ∧ after.memory = machine.memory := by
  have hCombine : ∀ {register value operation},
      machine.combine line register value operation = (.error cause, after) →
        after.registers = machine.registers ∧ after.memory = machine.memory := by
    intro register value operation hCombined
    unfold combine at hCombined
    cases hCell : machine.cell? with
    | none =>
        rw [hCell] at hCombined
        cases hCombined
        exact ⟨rfl, rfl⟩
    | some cell =>
        rw [hCell] at hCombined
        cases hCombined
  unfold execute at hExecute
  split at hExecute
  · cases hExecute
  cases hRegister : machine.register? instruction.register with
  | none =>
      rw [hRegister] at hExecute
      cases hExecute
      exact ⟨rfl, rfl⟩
  | some value =>
      rw [hRegister] at hExecute
      cases hOpcode : instruction.opcode <;> simp only [executeOn, hOpcode] at hExecute
      case get =>
        rw [take_eq] at hExecute
        cases hTaken : (takeNumber machine.input).1 with
        | error cause =>
            rw [hTaken] at hExecute
            cases hExecute
            exact ⟨rfl, rfl⟩
        | ok taken =>
            rw [hTaken] at hExecute
            cases hExecute
      case put =>
        split at hExecute
        · cases hExecute
          exact ⟨rfl, rfl⟩
        · cases hExecute
      case load | add | sub => exact hCombine hExecute
      case halt | jump | undefined =>
        cases hExecute
        exact ⟨rfl, rfl⟩
      all_goals cases hExecute

/-- The machine just before an instruction that fails, and after it. -/
structure FailsAfter (before after : Machine) (line : Nat) : Prop where
  registers : after.registers = before.registers
  memory : after.memory = before.memory
  steps : after.steps = before.steps + 1
  count : ∀ other : Nat, after.count other = before.count other + if other = line then 1 else 0

/-- A run that ends with an instruction that fails comes to that instruction, counts it once and
leaves the registers and the memory as they were before it. -/
theorem exists_failsAfter {cause : ExecutionFault} (hTallied : machine.Tallied)
    (hFails : (Machine.runFrom budget machine line).1 =
      .error (.execution lastLine instruction cause)) :
    ∃ taken before number, Steps taken machine line before lastLine ∧ lastLine = (number : Nat) ∧
      before.instruction? lastLine = some instruction ∧
      FailsAfter before (Machine.runFrom budget machine line).2 number := by
  obtain ⟨taken, left, before, stop, -, hSteps, hEnds⟩ := exists_ends budget machine line
  generalize Machine.runFrom budget machine line = result at hFails hEnds
  cases hEnds with
  | outside left hAt => split at hFails <;> cases hFails
  | limit | cancelled | halt => cases hFails
  | @fault left _ after _ _ _ hAt hActive hGoes hExecute =>
      cases hFails
      obtain ⟨number, rfl, hInside, -⟩ := exists_line_of_instruction? hAt
      obtain ⟨hRegisters, hMemory⟩ := contents_of_execute_error hExecute
      have hAfter := execute_eq_refill (before.charge number instruction) number instruction
      rw [hExecute] at hAfter
      refine ⟨taken, before, number, hSteps, rfl, hAt, hRegisters, hMemory, ?_, ?_⟩
      · rw [show after = (before.charge number instruction).refill after from hAfter]
        rfl
      · intro other
        rw [show after = (before.charge number instruction).refill after from hAfter]
        exact count_charge (hTallied.steps_of hSteps).profiled hInside instruction other

/-! ### The report of the executed lines -/

/-- The order of the report: larger counts first, equal counts by line. -/
def Hotter (left right : Nat × Nat) : Prop :=
  right.2 < left.2 ∨ left.2 = right.2 ∧ left.1 < right.1

def executedLines (machine : Machine) : List (Nat × Nat) :=
  (machine.profile.getD #[]).toList.zipIdx.filterMap fun (count, line) =>
    if 0 < count then some (line, count) else none

private theorem mem_executedLines {line count : Nat} :
    (line, count) ∈ machine.executedLines ↔ count = machine.count line ∧ 0 < count := by
  have hCount : machine.count line = ((machine.profile.getD #[]).toList[line]?).getD 0 := by
    rw [Machine.count, if_neg (by omega)]
    cases machine.profile with
    | none => rfl
    | some counts => rw [Array.getElem?_toList]; rfl
  rw [hCount, executedLines, List.mem_filterMap]
  constructor
  · rintro ⟨⟨found, place⟩, hMem, hFound⟩
    rw [List.mem_zipIdx_iff_getElem?] at hMem
    obtain ⟨hPositive, hLine⟩ := Option.ite_none_right_eq_some.mp hFound
    cases hLine
    exact ⟨by rw [hMem]; rfl, hPositive⟩
  · rintro ⟨hSame, hPositive⟩
    cases hFound : (machine.profile.getD #[]).toList[line]? with
    | none =>
        rw [hFound] at hSame
        exact absurd hPositive (by rw [hSame]; exact Nat.lt_irrefl 0)
    | some found =>
        rw [hFound] at hSame
        obtain rfl : count = found := hSame
        exact ⟨(count, line), List.mem_zipIdx_iff_getElem?.mpr hFound, if_pos hPositive⟩

private theorem pairwise_executedLines (machine : Machine) :
    machine.executedLines.Pairwise fun left right => left.1 < right.1 := by
  have hLines : (machine.profile.getD #[]).toList.zipIdx.Pairwise
      fun left right => left.2 < right.2 := by
    rw [← List.pairwise_map, List.zipIdx_map_snd]
    exact List.pairwise_lt_range'
  rw [executedLines, List.pairwise_filterMap]
  refine hLines.imp fun {left right} hLess first hFirst second hSecond => ?_
  obtain ⟨-, hLeft⟩ := Option.ite_none_right_eq_some.mp hFirst
  obtain ⟨-, hRight⟩ := Option.ite_none_right_eq_some.mp hSecond
  cases hLeft
  cases hRight
  exact hLess

def notColder (left right : Nat × Nat) : Bool :=
  right.2 ≤ left.2

private theorem notColder_trans (first second third : Nat × Nat)
    (hFirst : notColder first second = true) (hSecond : notColder second third = true) :
    notColder first third = true := by
  simp only [notColder, decide_eq_true_eq] at *
  omega

private theorem notColder_total (left right : Nat × Nat) :
    (notColder left right || notColder right left) = true := by
  simp only [notColder, Bool.or_eq_true, decide_eq_true_eq]
  omega

private theorem hotLines_all (machine : Machine) :
    machine.hotLines (-1) = machine.executedLines.mergeSort notColder :=
  rfl

/-- Sorting by count keeps the order of the lines with the same count. -/
theorem filter_mergeSort (lines : List (Nat × Nat)) (count : Nat) :
    (lines.mergeSort notColder).filter (fun line => line.2 = count) =
      lines.filter fun line => line.2 = count := by
  have hEqual : (lines.filter fun line => line.2 = count).Pairwise
      fun left right => notColder left right = true := by
    rw [List.pairwise_filter]
    refine List.pairwise_of_forall fun left right hLeft hRight => ?_
    simp only [notColder, decide_eq_true_eq] at *
    omega
  have hSublist := (List.sublist_mergeSort notColder_trans notColder_total hEqual
    List.filter_sublist).filter fun line => line.2 = count
  rw [List.filter_filter, List.filter_congr fun line _ => Bool.and_self _] at hSublist
  exact (hSublist.eq_of_length ((List.mergeSort_perm lines notColder).filter _).length_eq.symm).symm

private theorem pairwise_hotLines (machine : Machine) :
    (machine.hotLines (-1)).Pairwise Hotter := by
  have hCounts := List.pairwise_mergeSort notColder_trans notColder_total machine.executedLines
  rw [hotLines_all, List.pairwise_iff_forall_sublist]
  intro left right hBoth
  have hNotColder := List.pairwise_iff_forall_sublist.mp hCounts hBoth
  simp only [notColder, decide_eq_true_eq] at hNotColder
  rcases Nat.lt_or_eq_of_le hNotColder with hLess | hSame
  · exact .inl hLess
  · have hFiltered := hBoth.filter fun line => decide (line.2 = right.2)
    rw [filter_mergeSort, List.filter_eq_self.mpr (by simp [hSame])] at hFiltered
    exact .inr ⟨hSame.symm, List.pairwise_iff_forall_sublist.mp (pairwise_executedLines machine)
      (hFiltered.trans List.filter_sublist)⟩

private theorem hotLines_eq (machine : Machine) (limit : Int) :
    machine.hotLines limit =
      if limit < 0 then machine.hotLines (-1) else (machine.hotLines (-1)).take limit.toNat :=
  rfl

end Machine

/-! ### Runs one after the other -/

/-- A call that runs a machine from line zero: to its end, under a context that is cancelled or
is not, or no further than some steps, when the context is cancelled on the way. -/
inductive RunCall where
  | whole (cancelled : Bool)
  | brokenOff (steps : Nat)

namespace RunCall

def Allowed (machine : Machine) : RunCall → Prop
  | whole _ => True
  | brokenOff steps => steps ≤ machine.limit - machine.steps

def outcome (machine : Machine) : RunCall → Except RunFault Unit × Machine
  | whole cancelled => { machine with cancelled := cancelled }.run
  | brokenOff steps => Machine.runFrom steps { machine with cancelled := false } 0

def perform (machine : Machine) (call : RunCall) : Machine :=
  (call.outcome machine).2

private theorem Allowed.exists_runFrom {machine : Machine} {call : RunCall}
    (hAllowed : call.Allowed machine) :
    ∃ budget cancelled, budget ≤ machine.limit - machine.steps ∧
      call.outcome machine = Machine.runFrom budget { machine with cancelled := cancelled } 0 := by
  cases call with
  | whole cancelled => exact ⟨_, cancelled, Nat.le_refl _, rfl⟩
  | brokenOff steps => exact ⟨steps, false, hAllowed, rfl⟩

end RunCall

namespace Machine

abbrev Reruns (start machine : Machine) : Prop :=
  Reached RunCall.Allowed RunCall.perform start machine

structure Accounted (start machine : Machine) : Prop where
  tallied : machine.Tallied
  code : machine.code = start.code
  limit : machine.limit = start.limit
  steps : machine.steps ≤ start.limit

variable {start machine : Machine} {call : RunCall}

private theorem Tallied.cancel (hTallied : machine.Tallied) (cancelled : Bool) :
    Tallied { machine with cancelled := cancelled } :=
  ⟨hTallied.profiled, hTallied.steps, hTallied.cost⟩

private theorem Accounted.perform (hAccounted : Accounted start machine)
    (hAllowed : call.Allowed machine) : Accounted start (call.perform machine) := by
  obtain ⟨budget, cancelled, hBudget, hOutcome⟩ := hAllowed.exists_runFrom
  rw [RunCall.perform, hOutcome]
  have hSetup := sameSetup_runFrom budget { machine with cancelled := cancelled } 0
  obtain ⟨⟨-, hTaken⟩, -⟩ := runFrom_grows budget { machine with cancelled := cancelled } 0
  have hSteps := hAccounted.steps
  have hLimit := hAccounted.limit
  exact ⟨(hAccounted.tallied.cancel cancelled).runFrom budget 0,
    hSetup.code.trans hAccounted.code, hSetup.limit.trans hLimit,
    Nat.le_trans hTaken (by change machine.steps + budget ≤ _; omega)⟩

private theorem Reruns.accounted (hReruns : Reruns start machine) (hStart : Accounted start start) :
    Accounted start machine := by
  induction hReruns with
  | start => exact hStart
  | call call _ hAllowed inductionHypothesis => exact inductionHypothesis.perform hAllowed

/-- A machine that has not run has counted nothing. -/
theorem accounted_of_create {code : List Instruction} {config : MachineConfig}
    (hProfile : config.profile = true) (hCreate : Machine.create code config = .ok start) :
    Accounted start start ∧ start.code = code.toArray ∧
      start.limit = if config.stepLimit = 0 then defaultStepLimit else config.stepLimit := by
  unfold Machine.create at hCreate
  split at hCreate
  · cases hCreate
  cases hCreate
  have hTally : ∀ machine : Machine,
      machine.profile = some (Array.replicate code.length 0) →
        ∀ weight, machine.tally weight = 0 := by
    intro machine hCounts weight
    refine Finset.sum_eq_zero fun line _ => ?_
    rw [count_eq hCounts, Array.getElem?_replicate]
    split <;> exact Nat.zero_mul _
  refine ⟨⟨⟨⟨_, rfl, ?_⟩, ?_, ?_⟩, rfl, rfl, Nat.zero_le _⟩, rfl, rfl⟩
  · rw [Array.size_replicate, List.size_toArray]
  · rw [hTally _ rfl]
  · rw [hTally _ rfl]
    rfl

/-- After any number of runs of a machine with a profile, the steps are the counts of all lines
together and within the limit, and the cost is what the lines cost as often as they are counted.
A further run that fails at an instruction has counted it once and has left the registers and
the memory as they were before it.  The report has the executed lines, the larger counts first
and equal counts by line, and of these the first so many. -/
theorem accounts_after_reruns {code : List Instruction} {config : MachineConfig}
    (hProfile : config.profile = true) (hCreate : Machine.create code config = .ok start)
    (hReruns : Reruns start machine) :
    (machine.steps = ∑ line ∈ Finset.range code.length, machine.count line ∧
      machine.steps ≤ if config.stepLimit = 0 then defaultStepLimit else config.stepLimit) ∧
    machine.cost.toNat = (∑ line ∈ Finset.range code.length, machine.count line *
      (code[line]?).elim 0 fun instruction => instruction.opcode.cost.toNat) % 2 ^ 64 ∧
    (∀ call : RunCall, call.Allowed machine → ∀ line instruction cause,
      (call.outcome machine).1 = .error (.execution line instruction cause) →
        ∃ (cancelled : Bool) (taken : Nat) (before : Machine) (number : Nat),
          Steps taken { machine with cancelled := cancelled } 0 before number ∧
            line = number ∧ code[number]? = some instruction ∧
            FailsAfter before (call.outcome machine).2 number) ∧
    (∀ line count : Nat, (line, count) ∈ machine.hotLines (-1) ↔
      count = machine.count line ∧ 0 < count) ∧
    (machine.hotLines (-1)).Pairwise Hotter ∧
    ∀ limit, machine.hotLines limit =
      if limit < 0 then machine.hotLines (-1) else (machine.hotLines (-1)).take limit.toNat := by
  obtain ⟨hStart, hStartCode, hStartLimit⟩ := accounted_of_create hProfile hCreate
  have hAccounted := hReruns.accounted hStart
  have hCode : machine.code = code.toArray := hAccounted.code.trans hStartCode
  have hSize : machine.code.size = code.length := by rw [hCode, List.size_toArray]
  refine ⟨⟨?_, hStartLimit ▸ hAccounted.steps⟩, ?_, ?_, ?_, pairwise_hotLines machine,
    hotLines_eq machine⟩
  · rw [hAccounted.tallied.steps, tally, hSize]
    simp only [Nat.mul_one]
  · rw [hAccounted.tallied.cost, tally, hSize]
    simp only [costAt, hCode, List.getElem?_toArray]
  · intro call hAllowed line instruction cause hFails
    obtain ⟨budget, cancelled, -, hOutcome⟩ := hAllowed.exists_runFrom
    rw [hOutcome] at hFails ⊢
    obtain ⟨taken, before, number, hSteps, rfl, hAt, hFailsAfter⟩ :=
      exists_failsAfter (hAccounted.tallied.cancel cancelled) hFails
    obtain ⟨found, hSame, -, hFound⟩ := exists_line_of_instruction? hAt
    obtain rfl : number = found := by omega
    refine ⟨cancelled, taken, before, number, hSteps, rfl, ?_, hFailsAfter⟩
    rw [← hFound, show before.code = machine.code from hSteps.sameSetup.code, hCode,
      List.getElem?_toArray]
  · intro line count
    rw [hotLines_all, List.mem_mergeSort, mem_executedLines]

def faulty : List Instruction :=
  [⟨.inc, 1, 0⟩, ⟨.put, 2, 0⟩]

theorem faulty_accounts : ∃ start, Machine.create faulty { twoRegisters 0 with profile := true } =
    .ok start ∧ ∃ machine, Reruns start machine ∧ machine.run.1 =
      .error (.execution 1 ⟨.put, 2, 0⟩ (.badRegister 2)) ∧
    machine.steps = ∑ line ∈ Finset.range 2, machine.count line ∧
    (0, 1) ∈ machine.hotLines (-1) ∧
    ∃ before number, (1 : Int) = (number : Nat) ∧ FailsAfter before machine.run.2 number := by
  have hOnce : ∀ start : Machine, Reruns start (RunCall.perform start (.whole false)) :=
    fun _ => .call (RunCall.whole false) .start trivial
  refine ⟨_, rfl, _, hOnce _, rfl, ?_⟩
  obtain ⟨⟨hSteps, -⟩, -, hFails, hHot, -⟩ :=
    @accounts_after_reruns _ _ faulty { twoRegisters 0 with profile := true } rfl rfl (hOnce _)
  obtain ⟨cancelled, taken, before, number, -, hLine, -, hFailsAfter⟩ :=
    hFails (.whole false) trivial 1 ⟨.put, 2, 0⟩ (.badRegister 2) rfl
  exact ⟨hSteps, (hHot 0 1).mpr ⟨rfl, Nat.one_pos⟩, before, number, hLine, hFailsAfter⟩

end Machine
end RegisterCompiler
