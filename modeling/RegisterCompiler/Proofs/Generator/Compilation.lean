/-
The code of whole programs.

By induction on the commands, the code of a program follows its execution from every
machine that shows the state before.  The code ends with HALT, and all its jumps are
filled in.
-/

import RegisterCompiler.Proofs.Generator.Bodies
import RegisterCompiler.Proofs.Generator.Declarations
import RegisterCompiler.Proofs.Generator.Rounds

set_option autoImplicit false

namespace RegisterCompiler

open Generating (Ensures)

/-! ### Commands -/

namespace Context

theorem compiles_idle {context : Context} (hSound : context.Sound) : Compiles context context .idle :=
  .of_turns ((Turns.refl hSound).mono (by
    rintro start _ rfl
    exact ⟨start, rfl, Picture.below_dropAll rfl rfl rfl rfl rfl⟩))

mutual

theorem compileCommand_ensures {bases : Bases} {command : Command} (hNamed : command.Named)
    {context : Context} (hPrepared : context.Prepared bases) :
    Ensures (Generating.compileCommand command) context fun _ after =>
      Compiles context after fun bound scope => Command.execute bases bound scope command := by
  cases command with
  | assign span target value =>
      rw [Generating.compileCommand]
      exact assign_ensures hPrepared.toTidy hPrepared.bases span target value
  | read span target =>
      rw [Generating.compileCommand]
      exact readInput_ensures hPrepared.toTidy hPrepared.bases span target
  | write span value =>
      rw [Generating.compileCommand]
      exact writeOutput_ensures hPrepared.toTidy hPrepared.bases span value
  | skip span =>
      rw [Generating.compileCommand]
      exact .pure ((compiles_idle hPrepared.toSound).imp fun _ _ _ => by simp only [Command.execute]; rfl)
  | ifThen span condition body =>
      exact ifThen_ensures (compileCommands_ensures hNamed) hPrepared span condition
  | ifElse span condition body orElse =>
      exact ifElse_ensures (compileCommands_ensures hNamed.1) (compileCommands_ensures hNamed.2)
        hPrepared span condition
  | whileLoop span condition body =>
      exact whileLoop_ensures (compileCommands_ensures hNamed) hPrepared span condition
  | forLoop span iterator first last direction body =>
      exact forLoop_ensures (compileCommands_ensures hNamed.2) hPrepared span hNamed.1 first last
        direction

theorem compileCommands_ensures {bases : Bases} {commands : List Command}
    (hNamed : Command.AllNamed commands) :
    Renders bases (Generating.compileCommands commands) fun bound scope =>
      Command.executeAll bases bound scope commands := by
  intro context hPrepared
  cases commands with
  | nil =>
      rw [Generating.compileCommands]
      exact .pure ⟨(compiles_idle hPrepared.toSound).imp fun _ _ _ => by
        simp only [Command.executeAll]; rfl, hPrepared.toTidy⟩
  | cons command rest =>
      rw [Generating.compileCommands]
      refine .bind (compileCommand_ensures hNamed.1 hPrepared) ?_
      rintro - compiled hCompiles
      refine .bind (tidyUp_ensures hCompiles.extended.sound) ?_
      rintro - tidied ⟨hTidied, hTidy, -⟩
      have hFirst := hCompiles.before_idle (.of_turns hTidied)
      refine (compileCommands_ensures hNamed.2 tidied
        (hPrepared.congr hTidy hFirst.extended.cells hFirst.loops)).mono ?_
      rintro - after ⟨hRest, hAfter⟩
      exact ⟨(hFirst.trans hRest).imp fun _ _ _ => by
        simp only [Command.executeAll]; rfl, hAfter⟩

end

/-! ### Programs -/

/-- A program was compiled: its declarations were placed, its commands were compiled behind
them, and HALT was added. -/
structure Generates (options : GeneratorOptions) (program : Program)
    (opened compiled after : Context) : Prop where
  opening : opened.Opening program.declarations
  options : opened.options = options
  compiles : Compiles opened compiled fun bound scope =>
    Command.executeAll (Placement.bases opened.placements.toList) bound scope program.body
  tidy : compiled.Tidy
  result : after = compiled.add [.stop]

theorem compileProgram_ensures {options : GeneratorOptions}
    (hRegisters : GeneratorOptions.leastRegisters ≤ options.registers)
    (hLayout : options.layout.fault? = none) {program : Program} (hNamed : program.Named) :
    Ensures (Generating.compileProgram program) (.empty options) fun _ after =>
      ∃ opened compiled, Generates options program opened compiled after := by
  refine .bind (declareAll_ensures (opening_empty hRegisters hLayout) hNamed.declarations) ?_
  rintro - opened ⟨hOpening, hOptions⟩
  refine .bind (compileCommands_ensures hNamed.body opened hOpening.prepared) ?_
  rintro - compiled ⟨hCompiles, hTidy⟩
  have hLabels : compiled.labels = [] := by
    rw [hCompiles.labels, hOpening.blank]
    rfl
  refine ensures_emitAll (.get ?_)
  have hClosed : ((compiled.add [.stop]).labels.length ≠ 0) = False := by
    rw [show (compiled.add [.stop]).labels = compiled.labels from rfl, hLabels]
    simp
  simp only [hClosed, if_false]
  exact .pure ⟨opened, compiled, hOpening, hOptions, hCompiles, hTidy, rfl⟩

theorem eq_empty_of_create {options : GeneratorOptions} {context : Context}
    (hCreate : Context.create options = .ok context) :
    GeneratorOptions.leastRegisters ≤ options.registers ∧ options.layout.fault? = none ∧
      context = .empty options := by
  unfold Context.create at hCreate
  split at hCreate
  · contradiction
  · rename_i hEnough
    cases hFault : options.layout.fault? with
    | some fault =>
        rw [hFault] at hCreate
        contradiction
    | none =>
        rw [hFault] at hCreate
        cases hCreate
        exact ⟨Int.not_lt.mp hEnough, rfl, rfl⟩

theorem exists_of_generate {context after : Context} {program : Program}
    (hGenerate : context.generate program = (.ok (), after)) : ∃ opened compiled,
      (Generating.declareAll program.declarations).run.run context = (.ok (), opened) ∧
      (Generating.compileCommands program.body).run.run opened = (.ok (), compiled) ∧
      after = compiled.add [.stop] := by
  obtain ⟨_, opened, hDeclare, hGenerate⟩ := Generating.exists_of_run_bind hGenerate
  obtain ⟨_, compiled, hCompile, hGenerate⟩ := Generating.exists_of_run_bind hGenerate
  obtain ⟨_, _, hStop, hGenerate⟩ := Generating.exists_of_run_bind hGenerate
  cases hStop
  obtain ⟨_, _, hGet, hGenerate⟩ := Generating.exists_of_run_bind hGenerate
  cases hGet
  refine ⟨opened, compiled, hDeclare, hCompile, ?_⟩
  dsimp only at hGenerate
  split at hGenerate
  · cases hGenerate
  · cases hGenerate
    rfl

/-- A program whose declarations were placed and whose commands were compiled was generated. -/
theorem Generates.of_runs {options : GeneratorOptions}
    (hRegisters : GeneratorOptions.leastRegisters ≤ options.registers)
    (hLayout : options.layout.fault? = none) {program : Program} {opened compiled : Context}
    (hDeclare : (Generating.declareAll program.declarations).run.run (.empty options) =
      (.ok (), opened))
    (hCompile : (Generating.compileCommands program.body).run.run opened = (.ok (), compiled)) :
    Generates options program opened compiled (compiled.add [.stop]) := by
  obtain ⟨hOpening, hOptions⟩ := (declareAll_ensures (opening_empty hRegisters hLayout)
    (Generating.named_of_declareAll hDeclare)).of_run hDeclare
  obtain ⟨hCompiles, hTidy⟩ := (compileCommands_ensures
    (Generating.named_of_compileCommands hCompile) opened hOpening.prepared).of_run hCompile
  exact ⟨hOpening, hOptions, hCompiles, hTidy, rfl⟩

/-- What was generated successfully was generated as a whole. -/
theorem generates_of_generate {options : GeneratorOptions} {context after : Context}
    (hCreate : Context.create options = .ok context) {program : Program}
    (hGenerate : context.generate program = (.ok (), after)) :
    ∃ opened compiled, Generates options program opened compiled after := by
  obtain ⟨hRegisters, hLayout, rfl⟩ := eq_empty_of_create hCreate
  obtain ⟨opened, compiled, hDeclare, hCompile, rfl⟩ := exists_of_generate hGenerate
  exact ⟨opened, compiled, .of_runs hRegisters hLayout hDeclare hCompile⟩

namespace Generates

variable {options : GeneratorOptions} {program : Program} {opened compiled after : Context}
  (hGenerates : Generates options program opened compiled after)

include hGenerates

theorem size_opened : opened.listing.size = 0 := by
  rw [hGenerates.opening.blank]
  rfl

private theorem placements_eq : after.placements = opened.placements := by
  rw [hGenerates.result]
  exact hGenerates.compiles.extended.placements

theorem ready {line : Line} (hLine : line ∈ after.listing.lines.toList) :
    line.Ready options.registers compiled.listing.size := by
  have hGrows := hGenerates.compiles.extended.grows
  rw [hGenerates.result, show (compiled.add [.stop]).listing = compiled.listing.addAll [.stop]
    from rfl, Listing.toList_addAll] at hLine
  rcases List.mem_append.mp hLine with hBefore | hLast
  · obtain ⟨index, hIndex⟩ := List.mem_iff_getElem?.mp hBefore
    rw [← hGenerates.options]
    refine hGrows.ready index line ?_ List.not_mem_nil (by rw [← hIndex, Array.getElem?_toList])
    change opened.listing.size ≤ index
    rw [hGenerates.size_opened]
    exact Nat.zero_le _
  · rw [List.map_singleton, List.mem_singleton] at hLast
    rw [hLast]
    exact Line.ready_of_instruction (Instruction.ready_stop _ _)

theorem last : after.listing.lines.toList = compiled.listing.lines.toList ++
    [.complete .halt []] := by
  rw [hGenerates.result, show (compiled.add [.stop]).listing = compiled.listing.addAll [.stop]
    from rfl, Listing.toList_addAll]
  rfl

theorem isComplete {line : Line} (hLine : line ∈ after.listing.lines.toList) :
    line.IsComplete := by
  obtain ⟨opcode, operands, rfl, hAccepts, -⟩ := hGenerates.ready hLine
  exact ⟨opcode, operands, rfl, hAccepts⟩

variable {code : List Instruction} (hDecode : after.listing.decode = .ok code)

include hDecode

theorem code_eq : code = after.listing.lines.toList.map Line.instruction :=
  eq_of_decodeLines (fun _ hLine => hGenerates.isComplete hLine) hDecode

theorem length_code : code.length = compiled.listing.size + 1 := by
  rw [hGenerates.code_eq hDecode, hGenerates.last, List.length_map, List.length_append,
    List.length_singleton, Listing.size, Array.length_toList]

theorem within {instruction : Instruction} (hInstruction : instruction ∈ code) :
    instruction.Within options.registers compiled.listing.size := by
  rw [hGenerates.code_eq hDecode] at hInstruction
  obtain ⟨line, hLine, rfl⟩ := List.mem_map.mp hInstruction
  obtain ⟨opcode, operands, rfl, -, hWithin⟩ := hGenerates.ready hLine
  exact hWithin

theorem stop_at : instructionAt code compiled.listing.size = some .stop := by
  have hSize : compiled.listing.size = compiled.listing.lines.toList.length :=
    Array.length_toList.symm
  simp only [instructionAt, Int.toNat_natCast, hGenerates.code_eq hDecode, hGenerates.last,
    List.map_append, List.getElem?_append, List.length_map, ← hSize, Nat.lt_irrefl, if_false,
    Nat.sub_self]
  rw [if_neg (by omega)]
  rfl

theorem filledBy : after.draft.FilledBy ⟨code, after.emissions⟩ := by
  refine ⟨?_, fun _ hEmission _ => hEmission⟩
  intro index line hLine
  have hMem : line ∈ after.listing.lines.toList :=
    List.mem_iff_getElem?.mpr ⟨index, by rw [Array.getElem?_toList]; exact hLine⟩
  obtain ⟨opcode, operands, rfl, -⟩ := hGenerates.ready hMem
  change code[index]? = some _
  rw [hGenerates.code_eq hDecode, List.getElem?_map, Array.getElem?_toList]
  rw [show after.listing.lines[index]? = _ from hLine]
  rfl

/-- The code of a program follows its execution up to HALT. -/
theorem follows (bound : Nat) (state : SourceState) {start : Snapshot}
    (hShows : opened.Shows (state.picture [] fun _ => none) start) :
    Follows ⟨code, after.emissions⟩ bound 0 start compiled.listing.size
      (fun last finish => finish.output = last.output)
      (Command.executeAll (Placement.bases after.placements.toList) bound [] program.body
        state) := by
  have hFilled := hGenerates.filledBy hDecode
  rw [hGenerates.placements_eq]
  rw [hGenerates.result] at hFilled ⊢
  have hReady : ∀ instruction ∈ [Instruction.stop], instruction.Ready compiled.options.registers
      (compiled.listing.size + 1) := by
    intro instruction hInstruction
    rw [List.mem_singleton.mp hInstruction]
    exact Instruction.ready_stop _ _
  have hFollows := hGenerates.compiles.follows [] (fun _ hNone => absurd hNone (by simp))
    _ ((grows_add hGenerates.tidy.toSound hReady).filledBy hFilled) bound state _ start
    (hGenerates.opening.knows _) hShows
  rw [hGenerates.size_opened] at hFollows
  refine hFollows.append ?_
  rintro last finish ⟨-, hFinish⟩
  exact ⟨0, finish, .refl _ _, hFinish.output⟩

end Generates

end Context

end RegisterCompiler
