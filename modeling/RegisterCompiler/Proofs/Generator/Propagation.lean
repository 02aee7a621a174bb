/-
Numbers that are propagated.

Outside all constructs code generation may know the number of a scalar, and takes it for the
scalar.  Commands are compiled in the order of the text, while a machine branches and goes
around loops, so what is known has to be right whichever branches a machine took and however
often it went around the loops in between.

The code in front of a command outside all constructs follows the commands in front of it from
every machine.  Cut off at the command, it offers no way out but to the line of the command; so a
machine that comes to code behind the line comes to the line first, and then shows the state in
which those commands end.  It does not come to the line again if the command adds code there.  If
it adds none, a loop behind may begin at the same line, and the machine comes back to that loop.
-/

import RegisterCompiler.Proofs.Generator.Headway
import RegisterCompiler.Proofs.Generator.Readings

set_option autoImplicit false

namespace RegisterCompiler

/-! ### Coming to a line -/

theorem Machine.Steps.stop {machine last : Machine} {first place : Int} {count fewer : Nat}
    (hSteps : Steps count machine first last place) (hFewer : fewer ≤ count) :
    ∃ middle other, Steps fewer machine first middle other := by
  induction hSteps generalizing fewer with
  | refl machine line =>
      obtain rfl : fewer = 0 := Nat.le_zero.mp hFewer
      exact ⟨machine, line, .refl _ _⟩
  | @step _ machine _ _ line _ _ _ hAt hActive hGoes hExecute _ inductionHypothesis =>
      cases fewer with
      | zero => exact ⟨machine, line, .refl _ _⟩
      | succ fewer =>
          obtain ⟨middle, other, hRest⟩ := inductionHypothesis (Nat.le_of_succ_le_succ hFewer)
          exact ⟨middle, other, .step hAt hActive hGoes hExecute hRest⟩

section Arrivals

variable {code : List Instruction} {line steps count : Nat} {first other place : Int}
  {start between snapshot : Snapshot}

private theorem Runs.lt_of_take (hShort : Runs (code.take line) steps first start other between)
    (hRuns : Runs code count first start place snapshot) (hLess : count < steps) :
    place < line := by
  obtain ⟨middle, here, hStop⟩ := hShort.stop (Nat.le_of_lt hLess)
  obtain ⟨more, rfl⟩ := Nat.exists_eq_add_of_lt hLess
  obtain ⟨rfl, rfl⟩ := (hStop.mono fun _ _ hAt => (instructionAt_take.mp hAt).2).unique hRuns
  have hRest : Runs (code.take line) (more + 1) middle here other between := hStop.cut hShort
  cases hRest with
  | step hAt _ _ => exact (instructionAt_take.mp hAt).1

private theorem Runs.le_of_take (hShort : Runs (code.take line) steps first start other between)
    (hRuns : Runs code count first start place snapshot) (hThere : line ≤ place) :
    steps ≤ count :=
  Nat.le_of_not_lt fun hLess => absurd (hShort.lt_of_take hRuns hLess) (Int.not_lt.mpr hThere)

/-- A run that is at a line or behind it came to the line with the state in which the commands
end whose code stands in front of the line. -/
theorem Follows.exists_arrival {post : SourceState → Snapshot → Prop} {outcome : Outcome}
    (hFollows : Follows ⟨code.take line, fun _ => False⟩ (count + 1) first start line post outcome)
    (hTotal : outcome.Total) (hRuns : Runs code count first start place snapshot)
    (hThere : line ≤ place) : ∃ state steps finish, steps ≤ count ∧
      Runs (code.take line) steps first start line finish ∧ post state finish := by
  cases outcome with
  | finished state =>
      obtain ⟨steps, finish, hPasses, hPost⟩ := hFollows
      exact ⟨state, steps, finish, hPasses.runs.le_of_take hRuns hThere, hPasses.runs, hPost⟩
  | blocked cause state =>
      obtain ⟨steps, stuck, stop, hPasses, hStarves⟩ := hFollows
      obtain ⟨register, hGet⟩ := hStarves.instruction
      obtain ⟨hBefore, hGet⟩ := instructionAt_take.mp hGet
      -- a machine that waits in front of the line never comes to it
      obtain ⟨more, rfl⟩ := Nat.exists_eq_add_of_le (hPasses.runs.le_of_take hRuns hThere)
      have hWhole := hPasses.runs.mono fun _ _ hAt => (instructionAt_take.mp hAt).2
      cases hWhole.cut hRuns with
      | refl => omega
      | step hAt hStep _ =>
          rw [hGet] at hAt
          cases hAt
          simp [Snapshot.step?, Snapshot.effect?, Instruction.unary, hStarves.input] at hStep
  | exhausted state =>
      obtain ⟨steps, stuck, stop, hLong, hPasses, -⟩ := hFollows
      have hShort := hPasses.runs.le_of_take hRuns hThere
      omega
  | uninitialized => exact hTotal.elim

end Arrivals

/-! ### Commands in front -/

namespace Generating

variable {context start after : Context} {bases : Bases} {names : List String}
  {commands : List Command} {command : Command}

/-- A command that is visited stands no further outside than the list it is in.  One that stands
in the list itself is compiled behind the commands in front of it, and the others behind it. -/
theorem Visits.compiles (hVisits : Visits commands context names command start)
    (hPrepared : context.Prepared bases)
    (hRun : (compileCommands commands).run.run context = (.ok (), after)) :
    context.depth ≤ start.depth ∧ start.Prepared bases ∧ (start.depth = context.depth →
      ∃ before rest : List Command,
        Context.Compiles context start (fun bound scope =>
          Command.executeAll bases bound scope before) ∧
        (compileCommands (command :: rest)).run.run start = (.ok (), after)) := by
  induction hVisits generalizing after with
  | here =>
      refine ⟨Nat.le_refl _, hPrepared, fun _ => ⟨[], _, ?_, hRun⟩⟩
      exact (Context.compiles_idle hPrepared.toSound).imp fun _ _ _ => by
        simp only [Command.executeAll]; rfl
  | @later first _ _ _ _ _ _ _ hCompile hSettle _ inductionHypothesis =>
      obtain ⟨_, _, hCompileToo, hSettleToo, hBehind⟩ := exists_of_compileCommands_cons hRun
      rw [hCompile] at hCompileToo
      cases hCompileToo
      rw [hSettle] at hSettleToo
      cases hSettleToo
      obtain ⟨hSettled, hFirst⟩ := Context.settles_of_runs hPrepared hCompile hSettle
      obtain ⟨hDepth, hStart, hList⟩ := inductionHypothesis hSettled hBehind
      rw [hFirst.depth] at hDepth hList
      refine ⟨hDepth, hStart, fun hOutside => ?_⟩
      obtain ⟨before, rest, hBefore, hRest⟩ := hList hOutside
      exact ⟨first :: before, rest, (hFirst.trans hBefore).imp fun _ _ _ => by
        simp only [Command.executeAll]; rfl, hRest⟩
  | inside hBody hLead _ inductionHypothesis =>
      obtain ⟨_, settled, hFirst, -⟩ := exists_of_compileCommands_cons hRun
      obtain ⟨_, _, bodied, hLeadToo, hBodied, -⟩ := exists_of_compileCommand hFirst hBody
      rw [hLead] at hLeadToo
      cases hLeadToo
      have hEntrance := Context.entrance_of_lead hPrepared hBody hLead
      obtain ⟨hDepth, hStart, -⟩ := inductionHypothesis hEntrance.prepared hBodied
      rw [hEntrance.depth] at hDepth
      exact ⟨Nat.le_of_succ_le hDepth, hStart, fun hOutside => by omega⟩

end Generating

/-! ### What is known -/

namespace Context

variable {context point : Context} {machine : Machine} {name : String} {entry : SymbolEntry}
  {handle : Handle} {value : Nat}

/-- What a name that a picture speaks of reads on a machine that shows the picture, provided the
picture does not speak of what the memory is filled with. -/
theorem reading?_of_filled (hSound : context.Sound) {pointer : Option Nat} {picture : Picture}
    {snapshot : Snapshot} (hCoherent : Coherent context.store pointer picture snapshot)
    {filler : Nat} (hFilled : Machine.Filled filler machine snapshot)
    (hEnough : context.options.registers ≤ machine.registers.size) {kind : SymbolKind}
    {address : Address} (hCell : context.setting.cell? name = some (kind, handle, address))
    (hValue : picture.scalar name = some value) (hOther : value ≠ filler) :
    context.store.reading? machine name = some value := by
  have hLinked := hSound.store.toLinked
  cases hFresh : context.store.symbols.isFresh name with
  | true =>
      rw [Store.reading?_of_isFresh hCell hFresh]
      apply hFilled.written _ hOther
      exact hCoherent.memory name kind handle address value hCell hFresh hValue
  | false =>
      obtain ⟨register, hOccupant⟩ := hSound.store.occupant_of_stale hCell hFresh
      obtain ⟨hLow, hHigh⟩ := hLinked.allocatable_of_occupant? hOccupant
      rw [hSound.size] at hHigh
      have hName := (hLinked.cells name kind handle (Setting.cell?_eq_some_iff.mp hCell).1).1
      rw [Store.reading?_of_occupant hLinked hCell hFresh hOccupant,
        hFilled.register?_eq (Int.le_of_lt hLow) (Int.lt_of_lt_of_le hHigh hEnough),
        hCoherent.cache register handle name value hOccupant hName hValue]

/-- Numbers are known outside all constructs only. -/
theorem depth_eq_zero_of_known?
    (hKnown : ((Generating.known? entry handle).run.run point).1 = .ok (some value)) :
    point.depth = 0 := by
  have hGet : ∀ next : Context → Generating (Option Nat),
      (MonadState.get >>= next).run.run point = (next point).run.run point := fun _ => rfl
  rw [Generating.known?, hGet] at hKnown
  split at hKnown
  · rename_i hAllowed
    simp only [Bool.and_eq_true, beq_iff_eq] at hAllowed
    exact hAllowed.1.2
  · cases hKnown

/-- A name whose number is known has a cell, and a number that is known is right wherever all
that is known is. -/
theorem exists_of_known? (hSound : point.Sound)
    (hEntry : point.store.symbols.lookup? name = some entry)
    (hBinding : entry.binding = .value handle)
    (hKnown : ((Generating.known? entry handle).run.run point).1 = .ok (some value)) :
    (∃ address, point.setting.cell? name = some (.scalar, handle, address)) ∧
      ∀ scalar, point.Knows scalar → scalar name = some value := by
  have hDeclared := declared_of_lookup? hEntry
  rw [hBinding] at hDeclared
  have hName := (hSound.store.cells name entry.kind handle hDeclared).1
  obtain ⟨-, hFound⟩ := (known?_ensures entry (Option.isSome_of_eq_some hName)).of_run
    (Prod.ext hKnown rfl)
  obtain ⟨hOutside, hKind, known, hNumber, rfl⟩ := hFound value rfl
  rw [hKind] at hDeclared
  obtain ⟨address, hCell, -⟩ := hSound.store.toLinked.cell?_of_declared hDeclared
  exact ⟨⟨address, hCell⟩, fun scalar hKnows =>
    hKnows hOutside name handle known hDeclared hNumber⟩

/-- What may become of lines depends on so much of the code only as there are lines. -/
theorem filledBy_take {code : List Instruction} {emissions : Emission → Prop}
    (hFilled : point.draft.FilledBy ⟨code, emissions⟩) :
    point.draft.FilledBy ⟨code.take point.listing.size, fun _ => False⟩ where
  listing := by
    intro index line hLine
    have hBound : index < point.listing.size := (Array.getElem?_eq_some_iff.mp hLine).1
    change line.FilledBy (code.take point.listing.size)[index]?
    rw [List.getElem?_take_of_lt hBound]
    exact hFilled.listing index line hLine
  recorded := fun _ hNone => hNone.elim

namespace Generates

variable {options : GeneratorOptions} {program : Program} {opened compiled after start : Context}
  {code : List Instruction} {names : List String} {command : Command}

theorem filledBy_compiled (hGenerates : Generates options program opened compiled after)
    (hDecode : after.listing.decode = .ok code) :
    compiled.draft.FilledBy ⟨code, after.emissions⟩ := by
  have hFilled := hGenerates.filledBy hDecode
  rw [hGenerates.result] at hFilled ⊢
  refine (grows_add hGenerates.tidy.toSound ?_).filledBy hFilled
  intro instruction hInstruction
  rw [List.mem_singleton.mp hInstruction]
  exact Instruction.ready_stop _ _

section Lookups

variable (hGenerates : Generates options program opened compiled after)
  (hRun : (Generating.compileCommands program.body).run.run opened = (.ok (), compiled))
  (hVisits : Generating.Visits program.body opened names command start)
  (hLooksUp : Generating.LooksUp command start point) (hOutside : point.depth = 0)

include hGenerates hRun hVisits hLooksUp hOutside

/-- What is looked up outside all constructs is looked up by a command of the program itself, at
the line behind the code of the commands in front of it. -/
theorem compiles_in_front : start.Prepared (Placement.bases opened.placements.toList) ∧
    point.listing = start.listing ∧ Turns start point Eq ∧
    ∃ before rest : List Command,
      Compiles opened start (fun bound scope => Command.executeAll
        (Placement.bases opened.placements.toList) bound scope before) ∧
      (Generating.compileCommands (command :: rest)).run.run start = (.ok (), compiled) := by
  have hOpenedDepth : opened.depth = 0 := by
    rw [hGenerates.opening.blank]
    rfl
  obtain ⟨-, hStart, hList⟩ := hVisits.compiles hGenerates.opening.prepared hRun
  obtain ⟨hStartDepth, hListing, hTurns⟩ := turns_of_looksUp hStart hLooksUp hOutside
  exact ⟨hStart, hListing, hTurns, hList (hStartDepth.trans hOpenedDepth.symm)⟩

/-- From filled memory, a run that is at the line of the look-ups or behind it came to that line
with what is shown at them and with the numbers that are known at them. -/
theorem exists_arrival {code : List Instruction} (hDecode : after.listing.decode = .ok code)
    {count filler : Nat} {input : Option Feed} {place : Int} {snapshot : Snapshot}
    (hRuns : Runs code count 0 (.filled filler input) place snapshot)
    (hThere : point.listing.size ≤ place) : point.Sound ∧ point.options = options ∧
      ∃ (state : SourceState) (steps : Nat) (finish : Snapshot), steps ≤ count ∧
        Runs (code.take point.listing.size) steps 0 (.filled filler input) point.listing.size
          finish ∧
        point.Knows (state.valuation []).scalar ∧
        point.Shows (state.picture [] fun _ => none) finish := by
  have hOpening := hGenerates.opening
  obtain ⟨hStart, hListing, hTurns, before, rest, hBefore, hRest⟩ :=
    hGenerates.compiles_in_front hRun hVisits hLooksUp hOutside
  obtain ⟨hBehind, -⟩ := (compileCommands_ensures (Generating.named_of_compileCommands hRest) _
    hStart).of_run hRest
  have hStartFilled := filledBy_take (hBehind.extended.grows.filledBy
    (hGenerates.filledBy_compiled hDecode))
  have hPointFilled : point.draft.FilledBy ⟨code.take start.listing.size, fun _ => False⟩ := by
    refine ⟨?_, fun _ hNone => hNone.elim⟩
    rw [show point.draft.listing = start.listing from hListing]
    exact hStartFilled.listing
  have hShows : opened.Shows ((SourceState.filled filler input).picture [] fun _ => none)
      (.filled filler input) :=
    hOpening.shows (fun _ _ _ hValue => hValue) (fun _ _ hValue => hValue) rfl rfl
  have hFollows := hBefore.follows [] (fun _ hNone => absurd hNone (by simp)) _ hStartFilled
    (count + 1) _ _ _ (hOpening.knows _) hShows
  rw [hGenerates.size_opened] at hFollows
  rw [hListing] at hThere ⊢
  refine ⟨hTurns.sound, ?_, ?_⟩
  · rw [hTurns.quiet.options, hBefore.extended.options, hGenerates.options]
  -- behind the look-ups the machine shows the same
  refine (hFollows.append ?_).exists_arrival (Command.executeAll_total _ _ _ _
    (SourceState.total_filled filler input)) hRuns hThere
  rintro state arrival ⟨hKnows, hArrival⟩
  obtain ⟨steps, finish, hPasses, hFinish⟩ :=
    hTurns.reaches _ _ rfl _ hPointFilled arrival hArrival
  rw [hListing] at hPasses
  exact ⟨steps, finish, hPasses, hKnows.congr hTurns.toWorks, hFinish⟩

end Lookups

/-- A run of a machine that is behind the look-ups of a command came to their line first, and
then a name whose number is known at them reads this number; it does so whenever the machine comes
to the line, if it is the first line of some code in front of the bodies of the command. -/
theorem reads_known (hGenerates : Generates options program opened compiled after)
    (hDecode : after.listing.decode = .ok code)
    (hLeast : GeneratorOptions.leastRegisters ≤ options.registers)
    (hRun : (Generating.compileCommands program.body).run.run opened = (.ok (), compiled))
    (hVisits : Generating.Visits program.body opened names command start)
    (hLooksUp : Generating.LooksUp command start point)
    (hEntry : point.store.symbols.lookup? name = some entry)
    (hBinding : entry.binding = .value handle)
    (hKnown : ((Generating.known? entry handle).run.run point).1 = .ok (some value))
    {config : MachineConfig} (hMachine : Machine.create code config = .ok machine)
    (hEnough : options.registers ≤ config.registers) {count : Nat} {last : Machine} {place : Int}
    (hSteps : Machine.Steps count machine 0 last place) (hThere : point.listing.size ≤ place) :
    (∃ steps middle, steps ≤ count ∧ Machine.Steps steps machine 0 middle point.listing.size ∧
      point.store.reading? middle name = some value ∧
      ∀ fewer early other, fewer < steps → Machine.Steps fewer machine 0 early other →
        other < point.listing.size) ∧
    (place = point.listing.size →
      start.listing.size < (command.front.run.run start).2.listing.size →
      point.store.reading? last name = some value) := by
  have hOutside := depth_eq_zero_of_known? hKnown
  obtain ⟨made, hMade, hHouses⟩ := (hGenerates.closedCode hDecode).create
    (Int.le_trans (by decide) hLeast) hEnough
  obtain rfl : machine = made := Except.ok.inj (hMachine.symm.trans hMade)
  -- the memory is filled with another number, so that what reads the known one was written
  have hBegin := Machine.filled_create hMachine (value + 1)
  obtain ⟨snapshot, hRuns, hFilled⟩ := hHouses.runs hSteps hBegin
  obtain ⟨hSound, hOptions, state, steps, finish, hCount, hArrives, hKnows, hShows⟩ :=
    hGenerates.exists_arrival hRun hVisits hLooksUp hOutside hDecode hRuns hThere
  have hWhole := hArrives.mono fun _ _ hAt => (instructionAt_take.mp hAt).2
  have hReads : ∀ {moment : Nat} {there : Machine} {line : Int},
      Machine.Steps moment machine 0 there line → Machine.Filled (value + 1) there finish →
      point.store.reading? there name = some value := by
    intro moment there line hMoment hFilled
    obtain ⟨⟨address, hCell⟩, hRight⟩ := exists_of_known? hSound hEntry hBinding hKnown
    apply reading?_of_filled hSound hShows hFilled _ hCell (hRight _ hKnows)
      (Nat.ne_of_lt (Nat.lt_succ_self value))
    have hGiven := Machine.size_of_create hMachine
    have hKept := hMoment.sameSetup.size
    rw [hOptions]
    omega
  constructor
  · obtain ⟨middle, other, hMiddle⟩ := hSteps.stop hCount
    obtain ⟨there, hRunsThere, hFilledThere⟩ := hHouses.runs hMiddle hBegin
    obtain ⟨rfl, rfl⟩ := hWhole.unique hRunsThere
    refine ⟨steps, middle, hCount, hMiddle, hReads hMiddle hFilledThere, ?_⟩
    intro fewer early other hFewer hEarly
    obtain ⟨before, hRunsBefore, -⟩ := hHouses.runs hEarly hBegin
    exact hArrives.lt_of_take hRunsBefore hFewer
  · rintro rfl hCode
    obtain ⟨more, rfl⟩ := Nat.exists_eq_add_of_le hCount
    obtain ⟨-, hListing, -, before, rest, -, hRest⟩ :=
      hGenerates.compiles_in_front hRun hVisits hLooksUp hOutside
    have hAgain := hWhole.cut hRuns
    rw [hListing] at hAgain
    obtain rfl := (hGenerates.leadsOn hDecode hRest hCode).eq_of_runs hAgain
    exact hReads hSteps hFilled

end Generates

/-- Whenever code generation knows the number of a scalar where it looks up the operands of a
command, the scalar has this number in every run of the code.  A run that is at the line of the
look-ups or behind it came to that line before it came to anything behind, and then the scalar read
the number; and it reads the number at every moment at which a machine comes to the first line of
code that the command adds in front of its bodies. -/
theorem generate_reads_known {options : GeneratorOptions} {context after : Context}
    (hCreate : Context.create options = .ok context) {program : Program}
    (hGenerate : context.generate program = (.ok (), after)) {code : List Instruction}
    (hDecode : after.listing.decode = .ok code) {names : List String} {command : Command}
    {start : Context} (hVisits : Generating.VisitsIn program context names command start)
    (hLooksUp : Generating.LooksUp command start point)
    (hEntry : point.store.symbols.lookup? name = some entry)
    (hBinding : entry.binding = .value handle)
    (hKnown : ((Generating.known? entry handle).run.run point).1 = .ok (some value)) :
    ∀ (config : MachineConfig) machine, Machine.create code config = .ok machine →
      options.registers ≤ config.registers →
      ∀ count last place, Machine.Steps count machine 0 last place → point.listing.size ≤ place →
        (∃ steps middle, steps ≤ count ∧ Machine.Steps steps machine 0 middle point.listing.size ∧
          point.store.reading? middle name = some value ∧
          ∀ fewer early other, fewer < steps → Machine.Steps fewer machine 0 early other →
            other < point.listing.size) ∧
        (place = point.listing.size →
          start.listing.size < (command.front.run.run start).2.listing.size →
          point.store.reading? last name = some value) := by
  obtain ⟨hLeast, hLayout, rfl⟩ := eq_empty_of_create hCreate
  obtain ⟨opened, compiled, hDeclare, hRun, rfl⟩ := exists_of_generate hGenerate
  have hGenerates := Generates.of_runs hLeast hLayout hDeclare hRun
  obtain ⟨openedToo, hDeclareToo, hVisits⟩ := hVisits
  rw [hDeclare] at hDeclareToo
  cases hDeclareToo
  intro config machine hMachine hEnough count last place hSteps hThere
  exact hGenerates.reads_known hDecode hLeast hRun hVisits hLooksUp hEntry hBinding hKnown hMachine
    hEnough hSteps hThere

def countdown : Program :=
  let counter : Reference := ⟨default, "m", none⟩
  let result : Reference := ⟨default, "n", none⟩
  ⟨default, [⟨default, "m", none⟩, ⟨default, "n", none⟩],
    [ .assign default result (.atom default (.number default 3)),
      .read default counter,
      .whileLoop default ⟨default, .reference counter, .greater, .number default 0⟩
        [ .assign default counter
            (.operation default (.reference counter) .sub (.number default 1)) ],
      .write default (.reference result) ]⟩

theorem countdown_reads_known :
    ∃ (after : Context) (code : List Instruction) (start : Context),
      (empty .standard).generate countdown = (.ok (), after) ∧
      after.listing.decode = .ok code ∧
      Generating.VisitsIn countdown (empty .standard) []
        (.write default (.reference ⟨default, "n", none⟩)) start ∧
      ∀ (config : MachineConfig) machine, Machine.create code config = .ok machine →
        8 ≤ config.registers →
        ∀ count last, Machine.Steps count machine 0 last start.listing.size →
          start.store.reading? last "n" = some 3 := by
  have hCreate : create .standard = .ok (empty .standard) := rfl
  obtain ⟨after, hGenerate, code, hDecode⟩ : ∃ after, (empty .standard).generate countdown =
      (.ok (), after) ∧ ∃ code, after.listing.decode = .ok code := by
    refine ⟨_, Generating.run_eq_ok_of_isSome ?_, exists_of_isSome_toOption ?_⟩
    all_goals decide +kernel
  -- Behind the loop the number is known, and WRITE adds code.
  obtain ⟨start, hVisits, ⟨entry, hEntry, handle, hBinding, hKnown⟩, hCode⟩ : ∃ start,
      Generating.VisitsIn countdown (empty .standard) []
        (.write default (.reference ⟨default, "n", none⟩)) start ∧
      (∃ entry, start.store.symbols.lookup? "n" = some entry ∧
        ∃ handle, entry.binding = .value handle ∧
          ((Generating.known? entry handle).run.run start).1 = .ok (some 3)) ∧
      start.listing.size <
        ((Command.write default (.reference ⟨default, "n", none⟩)).front.run.run
          start).2.listing.size := by
    refine ⟨_, ⟨_, Generating.run_eq_ok_of_isSome ?_, .later_of_isSome ?_ ?_
      (.later_of_isSome ?_ ?_ (.later_of_isSome ?_ ?_ .here))⟩,
      ⟨_, (Option.some_get ?_).symm, ⟨1, 1⟩, ?_, ?_⟩, ?_⟩
    all_goals decide +kernel
  refine ⟨after, code, start, hGenerate, hDecode, hVisits, ?_⟩
  intro config machine hMachine hEnough count last hSteps
  exact (generate_reads_known hCreate hGenerate hDecode hVisits ⟨start, rfl, .here⟩ hEntry hBinding
    hKnown config machine hMachine hEnough count last _ hSteps (Int.le_refl _)).2 rfl hCode

end Context

end RegisterCompiler
