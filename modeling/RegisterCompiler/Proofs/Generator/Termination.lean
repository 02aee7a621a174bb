/-
Code that stops.

The code of a program is followed on memory that is filled with some number wherever the
machine has not written, so that no read can fail.  Without WHILE the run of the program on
such cells comes to an end or blocks, and so does the code, after a number of steps that
depends on the input alone.  A machine that gets so far stops there; one that reads a cell
without a number or cannot write has stopped before.
-/

import RegisterCompiler.Proofs.Generator.Closure
import RegisterCompiler.Proofs.Totality

set_option autoImplicit false

namespace RegisterCompiler

def Snapshot.filled (value : Nat) (input : Option Feed) : Snapshot where
  registers := fun _ => 0
  memory := fun _ => some value
  input := input
  output := []

namespace Machine

theorem filled_create {code : List Instruction} {config : MachineConfig} {machine : Machine}
    (hCreate : Machine.create code config = .ok machine) (value : Nat) :
    Filled value machine (.filled value (config.input.map Feed.ofBytes)) := by
  unfold Machine.create at hCreate
  split at hCreate
  · contradiction
  · rename_i hSome
    rw [← Except.ok.inj hCreate]
    refine ⟨fun register hLow hHigh => ?_, ?_, fun address => ?_, rfl⟩
    · rw [Array.size_replicate] at hHigh
      rw [Array.getElem?_replicate, if_pos (by omega)]
      rfl
    · rw [Array.size_replicate]
      omega
    · simp [Snapshot.filled]

end Machine

/-- A run comes to a line where no step is possible. -/
def Sticks (code : List Instruction) (steps : Nat) (start : Snapshot) : Prop :=
  ∃ line stop, Runs code steps 0 start line stop ∧
    ∀ instruction, instructionAt code line = some instruction →
      stop.step? line instruction = none

private theorem Sticks.le {code : List Instruction} {steps count : Nat} {start finish : Snapshot}
    {last : Int} (hSticks : Sticks code steps start)
    (hRuns : Runs code count 0 start last finish) : count ≤ steps := by
  obtain ⟨line, stop, hStop, hStuck⟩ := hSticks
  by_contra hMore
  obtain ⟨more, rfl⟩ : ∃ more, count = steps + (more + 1) := ⟨count - steps - 1, by omega⟩
  cases hStop.cut hRuns with
  | step hAt hStep _ =>
      rw [hStuck _ hAt] at hStep
      contradiction

/-- On closed code a machine does not run out of steps behind the line where it sticks. -/
theorem Machine.Houses.ne_stepLimit {machine : Machine} {code : List Instruction}
    (hHouses : machine.Houses code) {value steps : Nat} {start : Snapshot}
    (hFilled : Filled value machine start) (hSticks : Sticks code steps start) {budget : Nat}
    (hBudget : steps < budget) (limit : Nat) :
    (runFrom budget machine 0).1 ≠ .error (.stepLimit limit) := by
  intro hRun
  obtain ⟨count, last, line, hSteps, -, hCount⟩ := steps_of_runFrom hRun
  obtain ⟨finish, hRuns, -⟩ := hHouses.runs hSteps hFilled
  have hMost := hSticks.le hRuns
  have hAll := hCount limit rfl
  omega

namespace Context

variable {options : GeneratorOptions} {program : Program} {opened compiled after : Context}
  {code : List Instruction}

/-- On filled memory the code of a program without WHILE sticks somewhere. -/
theorem Generates.sticks (hGenerates : Generates options program opened compiled after)
    (hDecode : after.listing.decode = .ok code)
    (hCounted : Command.anyWhile program.body = false) (value : Nat) (input : Option Feed) :
    ∃ steps, Sticks code steps (.filled value input) := by
  have hShows : opened.Shows ((SourceState.filled value input).picture [] fun _ => none)
      (.filled value input) :=
    hGenerates.opening.shows (fun _ _ _ hValue => hValue) (fun _ _ hValue => hValue) rfl rfl
  have hFollows := hGenerates.follows hDecode 0 (SourceState.filled value input) hShows
  have hTotal := Command.executeAll_total (Placement.bases after.placements.toList) 0 []
    program.body (SourceState.total_filled value input)
  have hSettled := Command.executeAll_settled (Placement.bases after.placements.toList) 0 []
    hCounted (SourceState.filled value input)
  cases hOutcome : Command.executeAll (Placement.bases after.placements.toList) 0 [] program.body
      (SourceState.filled value input) with
  | finished state =>
      rw [hOutcome] at hFollows
      obtain ⟨steps, finish, hPasses, -⟩ := hFollows
      refine ⟨steps, _, finish, hPasses.runs, fun instruction hAt => ?_⟩
      rw [hGenerates.stop_at hDecode] at hAt
      rw [← Option.some.inj hAt]
      rfl
  | blocked cause state =>
      rw [hOutcome] at hFollows
      obtain ⟨steps, line, stop, hPasses, hStarves⟩ := hFollows
      refine ⟨steps, line, stop, hPasses.runs, fun instruction hAt => ?_⟩
      obtain ⟨register, hGet⟩ := hStarves.instruction
      rw [hGet] at hAt
      rw [← Option.some.inj hAt]
      simp [Snapshot.step?, Snapshot.effect?, Instruction.unary, hStarves.input]
  | exhausted state => exact absurd hOutcome (hSettled state)
  | uninitialized =>
      rw [hOutcome] at hTotal
      exact hTotal.elim

/-- The code of a program without WHILE stops on every input: from some number of steps on,
no machine with enough registers runs out of steps, whatever becomes of its output. -/
theorem generate_stops_without_while {context : Context}
    (hCreate : Context.create options = .ok context)
    (hGenerate : (context.generate program).1 = .ok ())
    (hCounted : Command.anyWhile program.body = false)
    (hDecode : (context.generate program).2.listing.decode = .ok code)
    (input : Option Text.Bytes) :
    ∃ enough, ∀ config : MachineConfig, config.input = input →
      options.registers ≤ config.registers → enough ≤ config.stepLimit →
        ∃ machine, Machine.create code config = .ok machine ∧
          ∀ limit, machine.run.1 ≠ .error (.stepLimit limit) := by
  obtain ⟨hLeast, -, -⟩ := eq_empty_of_create hCreate
  have hResult : context.generate program = (.ok (), (context.generate program).2) :=
    Prod.ext hGenerate rfl
  obtain ⟨opened, compiled, hGenerates⟩ := generates_of_generate hCreate hResult
  obtain ⟨steps, hSticks⟩ := hGenerates.sticks hDecode hCounted 0 (input.map Feed.ofBytes)
  refine ⟨steps + 1, fun config hInput hEnough hLimit => ?_⟩
  obtain ⟨machine, hMachine, hHouses⟩ := (hGenerates.closedCode hDecode).create
    (Int.le_trans (by decide) hLeast) hEnough
  refine ⟨machine, hMachine, fun limit => ?_⟩
  have hFilled := Machine.filled_create hMachine 0
  rw [hInput] at hFilled
  refine hHouses.ne_stepLimit hFilled hSticks ?_ limit
  rw [Machine.budget_of_create hMachine (by omega)]
  exact hLimit

def product : Program :=
  let factor : Reference := ⟨default, "f", none⟩
  let result : Reference := ⟨default, "p", none⟩
  ⟨default, [⟨default, "f", none⟩, ⟨default, "p", none⟩],
    [ .forLoop default "i" (.number default 1) (.number default 3) .up
        [ .read default factor,
          .assign default result
            (.operation default (.reference result) .mul (.reference factor)) ] ]⟩

theorem product_stops_without_while :
    ((empty .standard).generate product).1 = .ok () ∧
    ∃ code, ((empty .standard).generate product).2.listing.decode = .ok code ∧
      ∃ enough, ∀ config : MachineConfig, config.input = none →
        8 ≤ config.registers → enough ≤ config.stepLimit →
          ∃ machine, Machine.create code config = .ok machine ∧
            ∀ limit, machine.run.1 ≠ .error (.stepLimit limit) := by
  have hCreate : create .standard = .ok (empty .standard) := rfl
  have hGenerate : ((empty .standard).generate product).1 = .ok () := by decide +kernel
  have hDecodes :
      ((empty .standard).generate product).2.listing.decode.toOption.isSome = true := by
    decide +kernel
  obtain ⟨code, hDecode⟩ := exists_of_isSome_toOption hDecodes
  have hCounted : Command.anyWhile product.body = false := rfl
  exact ⟨hGenerate, code, hDecode,
    generate_stops_without_while hCreate hGenerate hCounted hDecode none⟩

end Context

end RegisterCompiler
