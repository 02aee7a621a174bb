/-
Built programs behave as their text says.

A text that is built is read, checked, simplified if that is asked for and compiled.  A
machine that runs the image starts with nothing written, as the program does, and its code
follows the program from there: it halts with the output the program ends with, stops at
the GET where the program blocks, or runs out of steps under every limit while the program
goes on forever.
-/

import RegisterCompiler.Proofs.Generator.Closure
import RegisterCompiler.Proofs.Machine.Silence

set_option autoImplicit false

namespace RegisterCompiler

/-! ### Machines -/

def Snapshot.initial (input : Option Feed) : Snapshot where
  registers := fun _ => 0
  memory := fun _ => none
  input := input
  output := []

namespace Machine

private theorem represents_create {code : List Instruction} {config : MachineConfig}
    {machine : Machine} (hCreate : Machine.create code config = .ok machine)
    (hSink : config.sink = .unbounded) (hActive : config.cancelled = false) :
    machine.Represents (.initial (config.input.map Feed.ofBytes)) := by
  unfold Machine.create at hCreate
  split at hCreate
  · contradiction
  · rename_i hSome
    rw [← Except.ok.inj hCreate]
    refine ⟨fun register hLow hHigh => ?_, ?_, fun address => ?_, rfl, rfl, hSink, hActive⟩
    · rw [Array.size_replicate] at hHigh
      rw [Array.getElem?_replicate, if_pos (by omega)]
      rfl
    · rw [Array.size_replicate]
      omega
    · simp [Snapshot.initial]

private theorem Houses.carries {machine : Machine} {code : List Instruction}
    (hHouses : machine.Houses code) : machine.Carries code :=
  ⟨hHouses.loaded, fun instruction hInstruction =>
    ⟨_, hHouses.closed.within instruction hInstruction⟩⟩

variable {machine : Machine} {code : List Instruction} {start stop : Snapshot}
  {instruction : Instruction} {steps : Nat} {line : Int}

/-- A run that comes to HALT ends there under every larger limit. -/
theorem runFrom_of_runs_halt (hRepresents : machine.Represents start)
    (hCarries : machine.Carries code) (hRuns : Runs code steps 0 start line stop)
    (hAt : instructionAt code line = some instruction) (hHalt : instruction.opcode = .halt)
    {budget : Nat} (hBudget : steps < budget) :
    (runFrom budget machine 0).1 = .ok () ∧
      (runFrom budget machine 0).2.output.toList = stop.output := by
  obtain ⟨later, hLater, hSetup, hRun⟩ := runFrom_of_runs hRuns hRepresents hCarries
  obtain ⟨more, rfl⟩ : ∃ more, budget = steps + (more + 1) := ⟨budget - steps - 1, by omega⟩
  rw [hRun]
  exact runFrom_halt hLater (hCarries.sameSetup hSetup) hAt hHalt more

/-- A run that comes to a GET without a number stops there under every larger limit. -/
theorem runFrom_of_runs_get (hRepresents : machine.Represents start)
    (hCarries : machine.Carries code) (hRuns : Runs code steps 0 start line stop)
    (hAt : instructionAt code line = some instruction) (hGet : instruction.opcode = .get)
    {cause : ExecutionFault} {rest : Option Feed}
    (hTaken : takeNumber stop.input = (.error cause, rest)) {budget : Nat}
    (hBudget : steps < budget) :
    (runFrom budget machine 0).1 = .error (.execution line instruction cause) ∧
      (runFrom budget machine 0).2.output.toList = stop.output := by
  obtain ⟨later, hLater, hSetup, hRun⟩ := runFrom_of_runs hRuns hRepresents hCarries
  obtain ⟨more, rfl⟩ : ∃ more, budget = steps + (more + 1) := ⟨budget - steps - 1, by omega⟩
  rw [hRun]
  exact runFrom_get hLater (hCarries.sameSetup hSetup) hAt hGet hTaken more

/-- A run that is longer than the limit is cut off there, with a part of its output. -/
theorem runFrom_of_runs_longer (hRepresents : machine.Represents start)
    (hCarries : machine.Carries code) (hRuns : Runs code steps 0 start line stop) {budget : Nat}
    (hBudget : budget < steps) :
    (runFrom budget machine 0).1 = .error (.stepLimit machine.limit) ∧
      (runFrom budget machine 0).2.output.toList <+: stop.output := by
  obtain ⟨middle, between, hShort⟩ := hRuns.stop (Nat.le_of_lt hBudget)
  obtain ⟨more, rfl⟩ : ∃ more, steps = budget + (more + 1) := ⟨steps - budget - 1, by omega⟩
  have hRest := hShort.cut hRuns
  obtain ⟨later, hLater, hSetup, hRun⟩ := runFrom_of_runs hShort hRepresents hCarries
  have hCut := hRun 0
  rw [Nat.add_zero] at hCut
  cases hRest with
  | step hAt hStep hLast =>
      obtain ⟨hFault, hOutput⟩ := runFrom_zero hLater (hCarries.sameSetup hSetup) hAt
      rw [hCut, hFault, hOutput, hSetup.limit]
      exact ⟨rfl, (Snapshot.output_step? hStep).trans hLast.output_grows⟩

/-- The output under a limit has the output of every run within the limit. -/
theorem output_of_runs_shorter (hRepresents : machine.Represents start)
    (hCarries : machine.Carries code) (hRuns : Runs code steps 0 start line stop) {budget : Nat}
    (hBudget : steps ≤ budget) {longer : Nat} {last : Int} {finish : Snapshot}
    (hLonger : Runs code longer 0 start last finish) (hCut : budget < longer) :
    stop.output <+: (runFrom budget machine 0).2.output.toList := by
  obtain ⟨middle, between, hShort⟩ := hLonger.stop (Nat.le_of_lt hCut)
  obtain ⟨later, hLater, hSetup, hRun⟩ := runFrom_of_runs hShort hRepresents hCarries
  have hEnd := hRun 0
  rw [Nat.add_zero] at hEnd
  obtain ⟨more, rfl⟩ := Nat.exists_eq_add_of_le hBudget
  obtain ⟨rest, rfl⟩ : ∃ rest, longer = steps + more + (rest + 1) :=
    ⟨longer - (steps + more) - 1, by omega⟩
  cases hShort.cut hLonger with
  | step hAt _ _ =>
      rw [hEnd, (runFrom_zero hLater (hCarries.sameSetup hSetup) hAt).2]
      exact (hRuns.cut hShort).output_grows

end Machine

/-! ### Images -/

namespace Image

/-- A machine for an image: it has its registers, an output that is never closed, and is not
cancelled. -/
structure Suits (image : Image) (config : MachineConfig) : Prop where
  registers : config.registers = 0 ∨ image.registers ≤ config.registers
  sink : config.sink = .unbounded
  active : config.cancelled = false

def result (image : Image) (config : MachineConfig) (limit : Nat) :
    Except StartFault (Except RunFault Unit × List Nat) :=
  (image.machine { config with stepLimit := limit }).map fun machine =>
    (machine.run.1, machine.run.2.output.toList)

/-- A machine that suits an image can be made, and starts with nothing written. -/
theorem Suits.machine {image : Image} {config : MachineConfig} (hSuits : image.Suits config)
    (hClosed : ClosedCode image.registers image.instructions) (hSome : 1 ≤ image.registers)
    (limit : Nat) :
    ∃ machine : Machine,
      image.result config limit = .ok (machine.run.1, machine.run.2.output.toList) ∧
      machine.Represents (.initial (config.input.map Feed.ofBytes)) ∧
      machine.Carries image.instructions ∧
      (limit ≠ 0 → machine.limit - machine.steps = limit) := by
  let registers := if config.registers = 0 then image.registers else config.registers
  have hEnough : image.registers ≤ registers := by
    unfold registers
    split
    · exact Int.le_refl _
    · rename_i hGiven
      exact hSuits.registers.resolve_left hGiven
  let started : MachineConfig := { config with registers := registers, stepLimit := limit }
  have hMore : image.registers ≤ started.registers := hEnough
  obtain ⟨machine, hCreate, hHouses⟩ := hClosed.create hSome hMore
  refine ⟨machine, ?_, ?_, hHouses.carries, ?_⟩
  · have hMachine : image.machine { config with stepLimit := limit } = .ok machine := by
      unfold Image.machine
      dsimp only
      rw [if_neg (Int.not_lt.mpr hEnough), hCreate]
      rfl
    rw [result, hMachine]
    rfl
  · have hStarted := Machine.represents_create hCreate hSuits.sink hSuits.active
    exact hStarted
  · exact Machine.budget_of_create hCreate

end Image

/-! ### Builds -/

theorem exists_of_check {text : Text.Bytes} {checked : CheckedProgram}
    (hCheck : check text = .ok checked) :
    parse text = .ok checked.program ∧ (analyze checked.program).complaints = [] := by
  unfold check at hCheck
  cases hParse : parse text with
  | error failure =>
      rw [hParse] at hCheck
      contradiction
  | ok program =>
      simp only [hParse] at hCheck
      split at hCheck
      · rename_i hNone
        rw [← Except.ok.inj hCheck]
        exact ⟨rfl, List.isEmpty_iff.mp hNone⟩
      · contradiction

private theorem exists_of_generateCode {options : GeneratorOptions} {program : Program}
    {generated : GeneratedCode} (hGenerate : generateCode options program = .ok generated) :
    ∃ context after, Context.create options = .ok context ∧
      context.generate program = (.ok (), after) ∧ generated.listing = after.listing ∧
      generated.placements = after.placements.toList := by
  unfold generateCode at hGenerate
  cases hCreate : Context.create options with
  | error refusal =>
      rw [hCreate] at hGenerate
      contradiction
  | ok context =>
      simp only [hCreate] at hGenerate
      cases hRun : context.generate program with
      | mk result after =>
          simp only [hRun] at hGenerate
          cases result with
          | error fault => contradiction
          | ok =>
              rw [← Except.ok.inj hGenerate]
              exact ⟨context, after, rfl, hRun, rfl, rfl⟩

/-- What a finished build was made from. -/
theorem exists_of_build {options : BuildOptions} {id : String} {cancelled : Bool}
    {text : Text.Bytes} {built : Build} (hBuild : build options id cancelled text = .ok built) :
    ∃ program context after code, parse text = .ok program ∧
      (analyze program).complaints = [] ∧ Context.create options.generator = .ok context ∧
      context.generate (options.prepare program) = (.ok (), after) ∧
      after.listing.decode = .ok code ∧ built.image.code = some code ∧
      built.image.registers = options.generator.registers ∧
      built.placements = some after.placements.toList := by
  obtain ⟨-, checked, generated, code, hCheck, hCode, hDecode, rfl⟩ :=
    exists_of_build_eq_ok hBuild
  obtain ⟨hParse, hLegal⟩ := exists_of_check hCheck
  obtain ⟨context, after, hCreate, hRun, hListing, hPlacements⟩ := exists_of_generateCode hCode
  exact ⟨_, context, after, code, hParse, hLegal, hCreate, hRun, hListing ▸ hDecode, rfl, rfl,
    congrArg some hPlacements⟩

def Build.bases (built : Build) : Bases :=
  Placement.bases (built.placements.getD [])

section

variable {options : BuildOptions} {id : String} {cancelled : Bool} {text : Text.Bytes}
  {built : Build} (hBuild : build options id cancelled text = .ok built)

include hBuild

/-- The code of a build follows the program its text spells, from the start. -/
theorem follows_of_build {program : Program} (hParse : parse text = .ok program)
    {input : Option Feed} (hInitialized : program.Initialized built.bases input) :
    ∃ emissions last, instructionAt built.image.instructions last = some .stop ∧
      ∀ bound, Follows ⟨built.image.instructions, emissions⟩ bound 0 (.initial input) last
        (fun state finish => finish.output = state.output)
        (program.execute built.bases input bound) := by
  obtain ⟨found, context, after, code, hFound, -, hCreate, hGenerate, hDecode, hCode, -,
    hPlacements⟩ := exists_of_build hBuild
  obtain rfl : found = program := Except.ok.inj (hFound.symm.trans hParse)
  obtain ⟨opened, compiled, hGenerates⟩ := Context.generates_of_generate hCreate hGenerate
  have hBases : built.bases = Placement.bases after.placements.toList := by
    rw [Build.bases, hPlacements]
    rfl
  have hSame : ∀ bound, (options.prepare found).execute built.bases input bound =
      found.execute built.bases input bound := by
    intro bound
    unfold BuildOptions.prepare
    split
    · exact Program.execute_simplify (hInitialized bound)
    · rfl
  have hShows : opened.Shows ((SourceState.initial input).picture [] fun _ => none)
      (.initial input) :=
    hGenerates.opening.shows (fun _ _ _ hNone => absurd hNone nofun)
      (fun _ _ hNone => absurd hNone nofun) rfl rfl
  have hInstructions : built.image.instructions = code := by
    rw [Image.instructions, hCode]
    rfl
  rw [hInstructions]
  refine ⟨after.emissions, compiled.listing.size, hGenerates.stop_at hDecode, fun bound => ?_⟩
  rw [← hSame bound, hBases]
  exact hGenerates.follows hDecode bound _ hShows

private theorem closedCode_of_build :
    ClosedCode built.image.registers built.image.instructions ∧ 1 ≤ built.image.registers := by
  obtain ⟨found, context, after, code, -, -, hCreate, hGenerate, hDecode, hCode, hRegisters, -⟩ :=
    exists_of_build hBuild
  obtain ⟨opened, compiled, hGenerates⟩ := Context.generates_of_generate hCreate hGenerate
  rw [Image.instructions, hCode, hRegisters]
  exact ⟨hGenerates.closedCode hDecode,
    Int.le_trans (by decide) (Context.eq_empty_of_create hCreate).1⟩

variable {program : Program} (hParse : parse text = .ok program) {config : MachineConfig}
  (hSuits : built.image.Suits config)
  (hInitialized : program.Initialized built.bases (config.input.map Feed.ofBytes))

include hParse hSuits hInitialized

private theorem result_of_ends {state : SourceState}
    (hEnds : program.Ends built.bases (config.input.map Feed.ofBytes) state) :
    ∃ enough, ∀ limit, enough ≤ limit →
      built.image.result config limit = .ok (.ok (), state.output) := by
  obtain ⟨hClosed, hSome⟩ := closedCode_of_build hBuild
  obtain ⟨emissions, last, hStop, hFollows⟩ := follows_of_build hBuild hParse hInitialized
  obtain ⟨bound, hOutcome⟩ := hEnds
  have hReaches := hFollows bound
  rw [hOutcome] at hReaches
  obtain ⟨steps, finish, hPasses, hOutput⟩ := hReaches
  refine ⟨steps + 1, fun limit hLimit => ?_⟩
  obtain ⟨machine, hResult, hStarted, hCarries, hBudget⟩ := hSuits.machine hClosed hSome limit
  have hMore : steps < machine.limit - machine.steps := by
    rw [hBudget (by omega)]
    exact hLimit
  obtain ⟨hHalts, hWritten⟩ :=
    Machine.runFrom_of_runs_halt hStarted hCarries hPasses.runs hStop rfl hMore
  rw [hResult, Machine.run, hHalts, hWritten, hOutput]

/-- Where the program blocks, the machine stops at a GET. -/
theorem result_of_blocks {cause : ExecutionFault} {state : SourceState}
    (hBlocks : program.Blocks built.bases (config.input.map Feed.ofBytes) cause state) :
    ∃ line instruction, instruction.opcode = .get ∧ ∃ enough, ∀ limit, enough ≤ limit →
      built.image.result config limit =
        .ok (.error (.execution line instruction cause), state.output) := by
  obtain ⟨hClosed, hSome⟩ := closedCode_of_build hBuild
  obtain ⟨emissions, last, -, hFollows⟩ := follows_of_build hBuild hParse hInitialized
  obtain ⟨bound, hOutcome⟩ := hBlocks
  have hReaches := hFollows bound
  rw [hOutcome] at hReaches
  obtain ⟨steps, line, stop, hPasses, hStarves⟩ := hReaches
  obtain ⟨register, hGet⟩ := hStarves.instruction
  refine ⟨line, .unary .get register, rfl, steps + 1, fun limit hLimit => ?_⟩
  obtain ⟨machine, hResult, hStarted, hCarries, hBudget⟩ := hSuits.machine hClosed hSome limit
  have hMore : steps < machine.limit - machine.steps := by
    rw [hBudget (by omega)]
    exact hLimit
  obtain ⟨hFault, hWritten⟩ :=
    Machine.runFrom_of_runs_get hStarted hCarries hPasses.runs hGet rfl hStarves.input hMore
  rw [hResult, Machine.run, hFault, hWritten, hStarves.output]

/-- While the program goes on, so does the machine, with the same output. -/
theorem result_of_diverges
    (hDiverges : program.Diverges built.bases (config.input.map Feed.ofBytes)) :
    (∀ limit, ∃ count output,
      built.image.result config limit = .ok (.error (.stepLimit count), output) ∧
      ∃ bound state,
        program.execute built.bases (config.input.map Feed.ofBytes) bound = .exhausted state ∧
        output <+: state.output) ∧
    ∀ bound state,
      program.execute built.bases (config.input.map Feed.ofBytes) bound = .exhausted state →
      ∃ enough, ∀ limit, enough ≤ limit → ∃ count output,
        built.image.result config limit = .ok (.error (.stepLimit count), output) ∧
        state.output <+: output := by
  obtain ⟨hClosed, hSome⟩ := closedCode_of_build hBuild
  obtain ⟨emissions, last, -, hFollows⟩ := follows_of_build hBuild hParse hInitialized
  have hReaches : ∀ bound state,
      program.execute built.bases (config.input.map Feed.ofBytes) bound = .exhausted state →
      ∃ steps line stop, bound ≤ steps ∧
        Runs built.image.instructions steps 0 (.initial (config.input.map Feed.ofBytes)) line
          stop ∧ stop.output = state.output := by
    intro bound state hOutcome
    have hFollowed := hFollows bound
    rw [hOutcome] at hFollowed
    obtain ⟨steps, line, stop, hLeast, hPasses, hOutput⟩ := hFollowed
    exact ⟨steps, line, stop, hLeast, hPasses.runs, hOutput⟩
  constructor
  · intro limit
    obtain ⟨machine, hResult, hStarted, hCarries, -⟩ := hSuits.machine hClosed hSome limit
    obtain ⟨state, hOutcome⟩ := hDiverges (machine.limit - machine.steps + 1)
    obtain ⟨steps, line, stop, hMore, hRuns, hOutput⟩ := hReaches _ state hOutcome
    obtain ⟨hFault, hWritten⟩ := Machine.runFrom_of_runs_longer hStarted hCarries hRuns hMore
    rw [hOutput] at hWritten
    refine ⟨machine.limit, _, ?_, _, state, hOutcome, hWritten⟩
    rw [hResult, Machine.run, hFault]
  · intro bound state hOutcome
    obtain ⟨steps, line, stop, -, hRuns, hOutput⟩ := hReaches bound state hOutcome
    refine ⟨steps + 1, fun limit hLimit => ?_⟩
    obtain ⟨machine, hResult, hStarted, hCarries, hBudget⟩ := hSuits.machine hClosed hSome limit
    have hEnough : steps ≤ machine.limit - machine.steps := by
      rw [hBudget (by omega)]
      omega
    obtain ⟨later, hLater⟩ := hDiverges (machine.limit - machine.steps + 1)
    obtain ⟨longer, _, _, hMore, hLonger, -⟩ := hReaches _ later hLater
    have hWritten :=
      Machine.output_of_runs_shorter hStarted hCarries hRuns hEnough hLonger hMore
    rw [hOutput] at hWritten
    refine ⟨machine.limit, _, ?_, hWritten⟩
    rw [hResult, Machine.run, (Machine.runFrom_of_runs_longer hStarted hCarries hLonger hMore).1]

end

/-- A built program behaves as its text says.  If the program never reads a cell before it is
written, every machine that suits the image halts with the output the program ends with, stops
at the GET where the program blocks with the output written so far, and runs out of steps
under every limit if the program goes on forever; then the outputs of longer and longer runs
are those of the program. -/
theorem build_preserves_behaviour {options : BuildOptions} {id : String} {cancelled : Bool}
    {text : Text.Bytes} {built : Build} (hBuild : build options id cancelled text = .ok built)
    {program : Program} (hParse : parse text = .ok program) {config : MachineConfig}
    (hSuits : built.image.Suits config)
    (hInitialized : program.Initialized built.bases (config.input.map Feed.ofBytes)) :
    (∀ state, program.Ends built.bases (config.input.map Feed.ofBytes) state →
      ∃ enough, ∀ limit, enough ≤ limit →
        built.image.result config limit = .ok (.ok (), state.output)) ∧
    (∀ cause state, program.Blocks built.bases (config.input.map Feed.ofBytes) cause state →
      ∃ line instruction, instruction.opcode = .get ∧ ∃ enough, ∀ limit, enough ≤ limit →
        built.image.result config limit =
          .ok (.error (.execution line instruction cause), state.output)) ∧
    (program.Diverges built.bases (config.input.map Feed.ofBytes) →
      (∀ limit, ∃ count output,
        built.image.result config limit = .ok (.error (.stepLimit count), output) ∧
        ∃ bound state,
          program.execute built.bases (config.input.map Feed.ofBytes) bound = .exhausted state ∧
          output <+: state.output) ∧
      ∀ bound state,
        program.execute built.bases (config.input.map Feed.ofBytes) bound = .exhausted state →
        ∃ enough, ∀ limit, enough ≤ limit → ∃ count output,
          built.image.result config limit = .ok (.error (.stepLimit count), output) ∧
          state.output <+: output) :=
  ⟨fun _ => result_of_ends hBuild hParse hSuits hInitialized,
    fun _ _ => result_of_blocks hBuild hParse hSuits hInitialized,
    result_of_diverges hBuild hParse hSuits hInitialized⟩

def successorText : Text.Bytes :=
  Text.encode "VAR n BEGIN READ n; n := n + 1; WRITE n; END"

def sevenConfig : MachineConfig where
  registers := 8
  stepLimit := 0
  input := some (Text.encode "7")
  sink := .unbounded
  profile := false
  cancelled := false

theorem successor_build_preserves_behaviour :
    ∃ built, build .standard "successor" false successorText = .ok built ∧
      ∃ enough, ∀ limit, enough ≤ limit →
        built.image.result sevenConfig limit = .ok (.ok (), [8]) := by
  have hBuilds :
      (build .standard "successor" false successorText).toOption.isSome = true := by
    decide +kernel
  obtain ⟨built, hBuild⟩ := exists_of_isSome_toOption hBuilds
  have hReads : ∃ program state, parse successorText = .ok program ∧ state.output = [8] ∧
      ∀ bases bound, program.execute bases (sevenConfig.input.map Feed.ofBytes) bound =
        .finished state :=
    ⟨_, _, rfl, rfl, fun _ _ => rfl⟩
  obtain ⟨program, state, hParse, hOutput, hExecute⟩ := hReads
  have hInitialized :
      program.Initialized built.bases (sevenConfig.input.map Feed.ofBytes) := by
    intro bound
    rw [hExecute]
    exact Outcome.noConfusion
  have hSuits : built.image.Suits sevenConfig := by
    obtain ⟨_, _, _, _, -, -, -, -, -, -, hRegisters, -⟩ := exists_of_build hBuild
    refine ⟨.inr ?_, rfl, rfl⟩
    rw [hRegisters]
    exact Int.le_refl 8
  have hBehaviour := build_preserves_behaviour hBuild hParse hSuits hInitialized
  have hEnds := hBehaviour.1 state ⟨0, hExecute _ 0⟩
  rw [hOutput] at hEnds
  exact ⟨built, hBuild, hEnds⟩

end RegisterCompiler
