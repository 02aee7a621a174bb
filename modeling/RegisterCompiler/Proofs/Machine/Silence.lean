/-
Code that puts nothing.

The output of a run only grows, so a run that ends with the output it began with has put
nothing.  A machine follows such a run whatever becomes of the numbers that are put, beginning
with the snapshot of its own contents.
-/

import RegisterCompiler.Proofs.Machine.Moments

set_option autoImplicit false

namespace RegisterCompiler

/-! ### Output -/

theorem Snapshot.output_effect? {snapshot after : Snapshot} {instruction : Instruction}
    (hEffect : snapshot.effect? instruction = some after) : snapshot.output <+: after.output := by
  have hCell : ∀ {change : Nat → Snapshot},
      (snapshot.memory snapshot.pointer).map change = some after →
        (∀ cell, (change cell).output = snapshot.output) → snapshot.output <+: after.output := by
    intro change hAfter hSame
    obtain ⟨cell, -, rfl⟩ := Option.map_eq_some_iff.mp hAfter
    exact ⟨[], by rw [List.append_nil, hSame cell]⟩
  cases hOpcode : instruction.opcode <;> simp only [effect?, hOpcode] at hEffect
  case get =>
    cases hTaken : takeNumber snapshot.input with
    | mk result rest =>
        simp only [hTaken] at hEffect
        cases result with
        | error cause => contradiction
        | ok taken =>
            rw [← Option.some.inj hEffect]
            exact List.prefix_rfl
  case put =>
    rw [← Option.some.inj hEffect]
    exact List.prefix_append _ _
  case load => exact hCell hEffect fun _ => rfl
  case add => exact hCell hEffect fun _ => rfl
  case sub => exact hCell hEffect fun _ => rfl
  all_goals first
    | contradiction
    | (rw [← Option.some.inj hEffect]
       exact List.prefix_rfl)

theorem Snapshot.output_step? {snapshot after : Snapshot} {line next : Int}
    {instruction : Instruction} (hStep : snapshot.step? line instruction = some (next, after)) :
    snapshot.output <+: after.output := by
  simp only [step?] at hStep
  split at hStep
  · cases hStep
    exact List.prefix_rfl
  · cases hStep
    exact List.prefix_rfl
  · cases hStep
    exact List.prefix_rfl
  · obtain ⟨found, hFound, hPair⟩ := Option.map_eq_some_iff.mp hStep
    cases hPair
    exact output_effect? hFound

theorem Runs.output_grows {code : List Instruction} {steps : Nat} {first last : Int}
    {start finish : Snapshot} (hRuns : Runs code steps first start last finish) :
    start.output <+: finish.output := by
  induction hRuns with
  | refl => exact List.prefix_rfl
  | step _ hStep _ inductionHypothesis =>
      exact (Snapshot.output_step? hStep).trans inductionHypothesis

private theorem Snapshot.ne_put_of_step? {snapshot after : Snapshot} {line next : Int}
    {instruction : Instruction} (hStep : snapshot.step? line instruction = some (next, after))
    (hSilent : after.output = snapshot.output) : instruction.opcode ≠ .put := by
  intro hPut
  simp only [step?, effect?, hPut, Option.map_some, Option.some.injEq, Prod.mk.injEq] at hStep
  rw [← hStep.2] at hSilent
  exact absurd hSilent (by simp)

namespace Machine

/-! ### Sinks -/

def redirect (machine : Machine) (sink : Sink) : Machine :=
  { machine with sink := sink }

/-- A machine that holds what a snapshot says, whatever its sink is. -/
def Matches (machine : Machine) (snapshot : Snapshot) : Prop :=
  (machine.redirect .unbounded).Represents snapshot

variable {machine : Machine} {code : List Instruction}

private theorem combine_redirect (machine : Machine) (sink : Sink) (line register : Int)
    (value : Nat) (operation : Nat → Nat → Nat) :
    (machine.redirect sink).combine line register value operation =
      ((machine.combine line register value operation).1,
        (machine.combine line register value operation).2.redirect sink) := by
  unfold combine
  rw [show (machine.redirect sink).cell? = machine.cell? from rfl]
  cases machine.cell? with
  | none => rfl
  | some cell => rfl

private theorem executeOn_redirect (machine : Machine) (sink : Sink) {instruction : Instruction}
    (hSilent : instruction.opcode ≠ .put) (line : Int) (value : Nat) :
    (machine.redirect sink).executeOn line instruction value =
      ((machine.executeOn line instruction value).1,
        (machine.executeOn line instruction value).2.redirect sink) := by
  cases hOpcode : instruction.opcode <;> simp only [executeOn, hOpcode]
  case get =>
    rw [take_eq, take_eq, show (machine.redirect sink).input = machine.input from rfl]
    cases (takeNumber machine.input).1 with
    | error cause => rfl
    | ok taken => rfl
  case put => exact absurd hOpcode hSilent
  case load | add | sub => exact combine_redirect machine sink line _ value _
  all_goals rfl

/-- An instruction that puts nothing does the same whatever the sink is. -/
theorem execute_redirect (machine : Machine) (sink : Sink) {instruction : Instruction}
    (hSilent : instruction.opcode ≠ .put) (line : Int) :
    (machine.redirect sink).execute line instruction =
      ((machine.execute line instruction).1,
        (machine.execute line instruction).2.redirect sink) := by
  unfold execute
  by_cases hJump : instruction.opcode = .jump
  · rw [if_pos hJump, if_pos hJump]
  · rw [if_neg hJump, if_neg hJump,
      show (machine.redirect sink).register? instruction.register =
        machine.register? instruction.register from rfl]
    cases machine.register? instruction.register with
    | none => rfl
    | some value => exact executeOn_redirect machine sink hSilent line value

private theorem sink_execute (machine : Machine) {instruction : Instruction}
    (hSilent : instruction.opcode ≠ .put) (line : Int) :
    (machine.execute line instruction).2.sink = machine.sink :=
  congrArg (fun result => result.2.sink) (execute_redirect machine machine.sink hSilent line)

/-- A machine follows each step that puts nothing. -/
theorem Matches.execute {before after : Snapshot} (hMatches : machine.Matches before)
    {instruction : Instruction} {lines : Nat}
    (hWithin : instruction.Within machine.registers.size lines) {line next : Int}
    (hStep : before.step? line instruction = some (next, after))
    (hSilent : after.output = before.output) :
    ∃ later, machine.execute line instruction = (.ok next, later) ∧ later.Matches after ∧
      later.sink = machine.sink := by
  have hQuiet := Snapshot.ne_put_of_step? hStep hSilent
  rcases execute_of_step? hMatches hWithin hStep with ⟨moved, hMoved, hRepresents, -⟩
  rw [execute_redirect machine .unbounded hQuiet] at hMoved
  rcases Prod.mk.inj hMoved with ⟨hNext, rfl⟩
  exact ⟨_, Prod.ext hNext rfl, hRepresents, sink_execute machine hQuiet line⟩

/-- A machine that has the lines of some code, except where that says HALT, and all registers
that the code uses. -/
structure Includes (machine : Machine) (code : List Instruction) : Prop where
  loaded : ∀ line instruction, instructionAt code line = some instruction →
    instruction.opcode ≠ .halt → machine.instruction? line = some instruction
  within : ∀ instruction ∈ code, ∃ lines, instruction.Within machine.registers.size lines

theorem Carries.includes (hCarries : machine.Carries code) : machine.Includes code where
  loaded := fun line _ hAt _ => (hCarries.instruction? line).trans hAt
  within := hCarries.within

private theorem Includes.sameSetup {after : Machine} (hIncludes : machine.Includes code)
    (hSame : SameSetup machine after) : after.Includes code where
  loaded := by
    intro line instruction hAt hGoes
    have hLoaded := hIncludes.loaded line instruction hAt hGoes
    unfold instruction? at hLoaded ⊢
    rw [hSame.code]
    exact hLoaded
  within := by
    rw [hSame.size]
    exact hIncludes.within

/-- A machine follows each run that puts nothing. -/
theorem steps_of_runs {count : Nat} {line last : Int} {before after : Snapshot}
    (hRuns : Runs code count line before last after) (hSilent : after.output = before.output)
    (hMatches : machine.Matches before) (hIncludes : machine.Includes code) :
    ∃ later, Steps count machine line later last ∧ later.Matches after ∧
      later.sink = machine.sink := by
  induction hRuns generalizing machine with
  | refl line snapshot => exact ⟨machine, .refl machine line, hMatches, rfl⟩
  | @step count line next last before middle after instruction hAt hStep hRest
      inductionHypothesis =>
      have hMiddle : middle.output = before.output := by
        have hFirst := Snapshot.output_step? hStep
        have hLater := hRest.output_grows
        rw [hSilent] at hLater
        exact hLater.eq_of_length (Nat.le_antisymm hLater.length_le hFirst.length_le)
      rcases hIncludes.within instruction (mem_of_instructionAt hAt) with ⟨lines, hWithin⟩
      have hGoes := ne_halt_of_step? hStep
      have hCharged : (machine.charge line instruction).Matches before :=
        Represents.charge hMatches line instruction
      rcases hCharged.execute hWithin hStep hMiddle with ⟨moved, hExecute, hMoved, hSink⟩
      have hSetup := sameSetup_step hExecute
      rcases inductionHypothesis (hSilent.trans hMiddle.symm) hMoved (hIncludes.sameSetup hSetup)
        with ⟨later, hSteps, hLater, hSame⟩
      have hActive : machine.stopsCancelled = false := by
        have hGoesOn : machine.cancelled = false := hMatches.cancelled
        simp [stopsCancelled, hGoesOn]
      exact ⟨later, .step (hIncludes.loaded line instruction hAt hGoes) hActive hGoes hExecute
        hSteps, hLater, hSame.trans hSink⟩

/-! ### Snapshots of machines -/

def snapshot (machine : Machine) : Snapshot where
  registers := fun register => (machine.register? register).getD 0
  memory := fun address => machine.memory[address]?
  input := machine.input
  output := machine.output.toList

variable {snapshot : Snapshot}

theorem matches_snapshot (hNonempty : 0 < machine.registers.size)
    (hActive : machine.cancelled = false) : machine.Matches machine.snapshot where
  registers := by
    intro register hLow hHigh
    change register < machine.registers.size at hHigh
    have hNat : register.toNat < machine.registers.size := by omega
    simp only [redirect, Machine.snapshot, register?, if_neg (Int.not_lt.mpr hLow),
      Array.getElem?_eq_getElem hNat, Option.getD_some]
  nonempty := hNonempty
  memory := fun _ => rfl
  input := rfl
  output := rfl
  sink := rfl
  cancelled := hActive

theorem Matches.register? (hMatches : machine.Matches snapshot) {register : Int}
    (hLow : 0 ≤ register) (hHigh : register < machine.registers.size) :
    machine.register? register = some (snapshot.registers register) :=
  Represents.register? hMatches hLow hHigh

theorem Matches.memory? (hMatches : machine.Matches snapshot) (address : Nat) :
    machine.memory[address]? = snapshot.memory address :=
  Represents.memory hMatches address

theorem Matches.input (hMatches : machine.Matches snapshot) : machine.input = snapshot.input :=
  (show (machine.redirect .unbounded).Represents snapshot from hMatches).input

theorem Matches.output (hMatches : machine.Matches snapshot) :
    machine.output.toList = snapshot.output :=
  (show (machine.redirect .unbounded).Represents snapshot from hMatches).output

theorem Matches.active (hMatches : machine.Matches snapshot) : machine.cancelled = false :=
  (show (machine.redirect .unbounded).Represents snapshot from hMatches).cancelled

end Machine

end RegisterCompiler
