/-
Machines that come to the code of a command.

While code is generated, something is known about the pointer and the registers.  Commands
are compiled in the order of the text, but a machine may come to the first line of a command
from the line before it, through a branch, around a loop or out of one.  Whichever way it
comes, all that was known when the line was added is right.

On memory filled with any number the code follows the program, and every state of such a run
is safe.  A machine is such a run for every filling at once, so that a cell which agrees with
a register under two fillings was written.
-/

import RegisterCompiler.Proofs.Generator.Termination
import RegisterCompiler.Proofs.Generator.Visits

set_option autoImplicit false

namespace RegisterCompiler

/-! ### Records and machines -/

/-- What was known before a line was added is right about a machine: the pointer register has
the number it is known to have; a name that is up to date and cached in a register has the
number of that register in its memory cell, which was written; and every other name is cached
in a register. -/
structure Emission.Agrees (emission : Emission) (machine : Machine) : Prop where
  pointer : ∀ place, emission.pointer = some place → machine.register? 0 = some place
  cached : ∀ name entry handle value register,
    emission.store.symbols.lookup? name = some entry → entry.fresh = true →
    entry.binding = .value handle → emission.store.arena.get? handle = some value →
    value.register = some register →
    ∃ address number, value.chunk = some address ∧
      machine.memory[address.toNat]? = some number ∧ machine.register? register = some number
  stale : ∀ name entry, emission.store.symbols.lookup? name = some entry → entry.fresh = false →
    ∃ handle value register, entry.binding = .value handle ∧
      emission.store.arena.get? handle = some value ∧ value.register = some register

namespace Machine

theorem Filled.register?_eq {filler : Nat} {machine : Machine} {snapshot : Snapshot}
    (hFilled : Filled filler machine snapshot) {register : Int} (hLow : 0 ≤ register)
    (hHigh : register < machine.registers.size) :
    machine.register? register = some (snapshot.registers register) := by
  rw [Machine.register?, if_neg (Int.not_lt.mpr hLow)]
  exact hFilled.registers register hLow hHigh

theorem Filled.written {filler number address : Nat} {machine : Machine} {snapshot : Snapshot}
    (hFilled : Filled filler machine snapshot) (hCell : snapshot.memory address = some number)
    (hOther : number ≠ filler) : machine.memory[address]? = some number := by
  rw [hFilled.memory, Option.some.injEq] at hCell
  cases hFound : machine.memory[address]? with
  | none =>
      rw [hFound] at hCell
      exact absurd hCell.symm hOther
  | some found =>
      rw [hFound] at hCell
      rw [← hCell]
      rfl

theorem size_of_create {code : List Instruction} {config : MachineConfig} {machine : Machine}
    (hCreate : Machine.create code config = .ok machine) :
    machine.registers.size = config.registers.toNat := by
  unfold Machine.create at hCreate
  split at hCreate
  · contradiction
  · rw [← Except.ok.inj hCreate]
    exact Array.size_replicate

end Machine

/-- A record that fits a machine under every filling is right about the machine. -/
theorem Emission.agrees_of_fits {emission : Emission} {machine : Machine}
    (hSize : emission.store.registers.size ≤ machine.registers.size)
    (hFits : ∀ filler, ∃ snapshot, Machine.Filled filler machine snapshot ∧
      emission.Fits snapshot) : emission.Agrees machine := by
  obtain ⟨snapshot, hFilled, hFit⟩ := hFits 0
  have hSound := hFit.sound
  constructor
  · intro place hPlace
    have hZero := hFilled.register?_eq (Int.le_refl 0) (Int.natCast_pos.mpr hFilled.nonempty)
    rw [hZero, ← hFit.pointer place hPlace]
    rfl
  · intro name entry handle value register hEntry hFresh hBinding hValue hRegister
    have hOccupant := (hSound.occupants register handle).mpr ⟨value, hValue, hRegister⟩
    obtain ⟨hLow, hHigh⟩ := hSound.allocatable_of_occupant? hOccupant
    have hRead := hFilled.register?_eq (Int.le_of_lt hLow) (by omega)
    have hDeclared : emission.store.setting.declared name = some (entry.kind, .value handle) := by
      simp only [Store.setting, hEntry, Option.map_some, hBinding]
    obtain ⟨address, hCell, -⟩ := hSound.cell?_of_declared hDeclared
    have hChunk : value.chunk = some address := by
      have hFound := (Setting.cell?_eq_some_iff.mp hCell).2
      simpa only [Store.setting, hValue, Option.bind_some] using hFound
    have hUpToDate : emission.store.symbols.isFresh name = true := by
      simp only [SymbolTable.isFresh, hEntry, Option.map_some, Option.getD_some, hFresh]
    refine ⟨address, _, hChunk, ?_, hRead⟩
    -- Another filling tells a written cell from one that happens to agree.
    obtain ⟨other, hOther, hOtherFit⟩ := hFits (snapshot.registers register + 1)
    have hMirror := hOtherFit.mirror register handle name _ address hOccupant hCell hUpToDate
    have hSame : other.registers register = snapshot.registers register := by
      have hReadToo := hOther.register?_eq (Int.le_of_lt hLow) (by omega)
      exact Option.some.inj (hReadToo.symm.trans hRead)
    rw [hSame] at hMirror
    exact hOther.written hMirror (Nat.ne_of_lt (Nat.lt_succ_self _))
  · intro name entry hEntry hStale
    obtain ⟨handle, register, hBinding, hOccupant⟩ := hSound.stale name entry hEntry hStale
    obtain ⟨value, hValue, hRegister⟩ := (hSound.occupants register handle).mp hOccupant
    exact ⟨handle, value, register, hBinding, hValue, hRegister⟩

namespace Context

variable {options : GeneratorOptions} {program : Program} {opened compiled after : Context}
  {code : List Instruction}

namespace Generates

variable (hGenerates : Generates options program opened compiled after)
  (hDecode : after.listing.decode = .ok code)

include hGenerates hDecode

private theorem safe {value count : Nat} {input : Option Feed} {line : Int} {snapshot : Snapshot}
    (hRuns : Runs code count 0 (.filled value input) line snapshot)
    (hLine : line ≠ compiled.listing.size) :
    Blueprint.Safe ⟨code, after.emissions⟩ line snapshot := by
  have hShows : opened.Shows ((SourceState.filled value input).picture [] fun _ => none)
      (.filled value input) :=
    hGenerates.opening.shows (fun _ _ _ hValue => hValue) (fun _ _ hValue => hValue) rfl rfl
  -- With a bound above the number of steps, a run that exhausts it is long enough.
  have hFollows := hGenerates.follows hDecode (count + 1) (SourceState.filled value input) hShows
  have hTotal := Command.executeAll_total (Placement.bases after.placements.toList) (count + 1) []
    program.body (SourceState.total_filled value input)
  cases hOutcome : Command.executeAll (Placement.bases after.placements.toList) (count + 1) []
      program.body (SourceState.filled value input) with
  | finished state =>
      rw [hOutcome] at hFollows
      obtain ⟨steps, finish, hPasses, -⟩ := hFollows
      by_cases hEarly : count < steps
      · exact hPasses.safe count line snapshot hEarly hRuns
      · obtain ⟨more, rfl⟩ := Nat.exists_eq_add_of_le (Nat.le_of_not_lt hEarly)
        cases hPasses.runs.cut hRuns with
        | refl => exact absurd rfl hLine
        | step hAt hStep _ =>
            rw [hGenerates.stop_at hDecode] at hAt
            cases hAt
            cases hStep
  | blocked cause state =>
      rw [hOutcome] at hFollows
      obtain ⟨steps, place, stop, hPasses, hStarves⟩ := hFollows
      by_cases hEarly : count < steps
      · exact hPasses.safe count line snapshot hEarly hRuns
      · obtain ⟨more, rfl⟩ := Nat.exists_eq_add_of_le (Nat.le_of_not_lt hEarly)
        cases hPasses.runs.cut hRuns with
        | refl => exact hStarves.safe
        | step hAt hStep _ =>
            obtain ⟨register, hGet⟩ := hStarves.instruction
            rw [hGet] at hAt
            cases hAt
            simp [Snapshot.step?, Snapshot.effect?, Instruction.unary, hStarves.input] at hStep
  | exhausted state =>
      rw [hOutcome] at hFollows
      obtain ⟨steps, place, stop, hLong, hPasses, -⟩ := hFollows
      exact hPasses.safe count line snapshot hLong hRuns
  | uninitialized =>
      rw [hOutcome] at hTotal
      exact hTotal.elim

/-- All that was known before a line of a command was added is right about every machine that
comes to the line. -/
theorem agrees (hLeast : GeneratorOptions.leastRegisters ≤ options.registers)
    {config : MachineConfig} {machine last : Machine}
    (hMachine : Machine.create code config = .ok machine)
    (hEnough : options.registers ≤ config.registers) {emission : Emission}
    (hEmission : compiled.emissions emission) {count : Nat}
    (hSteps : Machine.Steps count machine 0 last emission.line) : emission.Agrees last := by
  obtain ⟨made, hMade, hHouses⟩ := (hGenerates.closedCode hDecode).create
    (Int.le_trans (by decide) hLeast) hEnough
  obtain rfl : machine = made := Except.ok.inj (hMachine.symm.trans hMade)
  have hLine : emission.line < compiled.listing.size :=
    hGenerates.tidy.toSound.recorded emission hEmission
  have hSize : (emission.store.registers.size : Int) = options.registers := by
    rcases hGenerates.compiles.extended.grows.later emission hEmission with hNone | ⟨-, hSize⟩
    · rw [hGenerates.opening.blank] at hNone
      exact hNone.elim
    · rw [hSize, hGenerates.options]
  apply Emission.agrees_of_fits
  · have hGiven := Machine.size_of_create hMachine
    have hKept := hSteps.sameSetup.size
    omega
  · intro filler
    obtain ⟨snapshot, hRuns, hFilled⟩ := hHouses.runs hSteps (Machine.filled_create hMachine filler)
    refine ⟨snapshot, hFilled, ?_⟩
    apply hGenerates.safe hDecode hRuns (by omega) emission _ rfl
    rw [hGenerates.result]
    exact .inl hEmission

end Generates

/-- A command of a program that was generated, at any depth, that added code: one state is on
record for its first line, that in which the line was added, and what was known in it is right
about every machine that comes to the line, whichever way it comes. -/
theorem generate_agrees_at_commands {context : Context}
    (hCreate : Context.create options = .ok context)
    (hGenerate : context.generate program = (.ok (), after))
    (hDecode : after.listing.decode = .ok code) {names : List String} {command : Command}
    {start next : Context} (hVisits : Generating.VisitsIn program context names command start)
    (hCompile : (Generating.compileCommand command).run.run start = (.ok (), next))
    (hCode : start.listing.size < next.listing.size) :
    ∃ emission, after.emissions emission ∧ emission.line = start.listing.size ∧
      (∀ other, after.emissions other → other.line = start.listing.size → other = emission) ∧
      ∀ (config : MachineConfig) machine, Machine.create code config = .ok machine →
        options.registers ≤ config.registers →
        ∀ count last, Machine.Steps count machine 0 last start.listing.size →
          emission.Agrees last := by
  obtain ⟨hLeast, hLayout, rfl⟩ := eq_empty_of_create hCreate
  obtain ⟨opened, compiled, hDeclare, hRun, rfl⟩ := exists_of_generate hGenerate
  have hGenerates := Generates.of_runs hLeast hLayout hDeclare hRun
  obtain ⟨openedToo, hDeclareToo, hVisits⟩ := hVisits
  rw [hDeclare] at hDeclareToo
  cases hDeclareToo
  have hKept := hVisits.logs hCompile hRun
  have hNone : opened.Recorded := by
    rw [hGenerates.opening.blank]
    exact ⟨fun _ hNone => hNone.elim, fun _ _ hNone => hNone.elim⟩
  have hRecorded := (Generating.logs_of_run hRun).recorded hNone
  obtain ⟨emission, hFirst, hLine⟩ := (Generating.logs_of_run hCompile).first hCode
  have hEmission := hKept.emissions emission hFirst
  refine ⟨emission, .inl hEmission, hLine, ?_, ?_⟩
  · rintro other (hOther | ⟨-, rfl⟩) hSame
    · exact hRecorded.unique other emission hOther hEmission (hSame.trans hLine.symm)
    · have hLess := Nat.lt_of_lt_of_le hCode hKept.size
      exact absurd hSame.symm (Nat.ne_of_lt hLess)
  · intro config machine hMachine hEnough count last hSteps
    rw [← hLine] at hSteps
    exact hGenerates.agrees hDecode hLeast hMachine hEnough hEmission hSteps

def multiply : Command :=
  .assign default ⟨default, "p", none⟩ (.operation default
    (.reference ⟨default, "p", none⟩) .mul (.reference ⟨default, "f", none⟩))

theorem product_agrees_at_commands :
    ∃ (after : Context) (code : List Instruction) (start next : Context),
      (empty .standard).generate product = (.ok (), after) ∧
      after.listing.decode = .ok code ∧
      Generating.VisitsIn product (empty .standard) ["i"] multiply start ∧
      (Generating.compileCommand multiply).run.run start = (.ok (), next) ∧
      start.listing.size < next.listing.size ∧
      ∃ emission, after.emissions emission ∧ emission.line = start.listing.size ∧
        ∀ (config : MachineConfig) machine, Machine.create code config = .ok machine →
          8 ≤ config.registers →
          ∀ count last, Machine.Steps count machine 0 last start.listing.size →
            emission.Agrees last := by
  have hCreate : create .standard = .ok (empty .standard) := rfl
  obtain ⟨after, hGenerate, code, hDecode⟩ : ∃ after, (empty .standard).generate product =
      (.ok (), after) ∧ ∃ code, after.listing.decode = .ok code := by
    refine ⟨_, Generating.run_eq_ok_of_isSome ?_, exists_of_isSome_toOption ?_⟩
    all_goals decide +kernel
  -- Inside the loop a number is read before the product is formed.
  obtain ⟨start, hVisits, next, hCompile, hCode⟩ : ∃ start,
      Generating.VisitsIn product (empty .standard) ["i"] multiply start ∧
      ∃ next, (Generating.compileCommand multiply).run.run start = (.ok (), next) ∧
        start.listing.size < next.listing.size := by
    refine ⟨_, ⟨_, Generating.run_eq_ok_of_isSome ?_, .inside_of_isSome List.mem_cons_self ?_
      (.later_of_isSome ?_ ?_ .here) rfl⟩, _, Generating.run_eq_ok_of_isSome ?_, ?_⟩
    all_goals decide +kernel
  obtain ⟨emission, hEmission, hLine, -, hAgrees⟩ :=
    generate_agrees_at_commands hCreate hGenerate hDecode hVisits hCompile hCode
  exact ⟨after, code, start, next, hGenerate, hDecode, hVisits, hCompile, hCode, emission,
    hEmission, hLine, hAgrees⟩

end Context

end RegisterCompiler
