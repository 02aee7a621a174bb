/-
Runs of code that is still being written.

What is known when a line is added has to be right whenever a machine comes to that
line.  A blueprint is complete code together with the states in which its lines were
added, and a passage is a run of a blueprint on which every state fits.  A block is
passed as soon as it is run: cut off behind the block, the code offers no other way to
its end.
-/

import RegisterCompiler.Generator.Context
import RegisterCompiler.Proofs.Generator.Coherence
import RegisterCompiler.Proofs.Generator.Growth

set_option autoImplicit false

namespace RegisterCompiler

/-! ### Runs are determined -/

namespace Runs

variable {code : List Instruction} {first middle last : Int} {start between finish : Snapshot}

theorem cut {steps more : Nat} (hShort : Runs code steps first start middle between)
    (hLong : Runs code (steps + more) first start last finish) :
    Runs code more middle between last finish := by
  induction hShort with
  | refl line snapshot =>
      rw [Nat.zero_add] at hLong
      exact hLong
  | step hAt hStep _ inductionHypothesis =>
      rw [Nat.add_right_comm] at hLong
      cases hLong with
      | step hAtToo hStepToo hRest =>
          rw [hAt] at hAtToo
          cases hAtToo
          rw [hStep] at hStepToo
          cases hStepToo
          exact inductionHypothesis hRest

theorem unique {steps : Nat} (hFirst : Runs code steps first start middle between)
    (hSecond : Runs code steps first start last finish) : middle = last ∧ between = finish := by
  have hRest : Runs code 0 middle between last finish := hFirst.cut hSecond
  cases hRest
  exact ⟨rfl, rfl⟩

theorem stop {steps fewer : Nat} (hRuns : Runs code steps first start last finish)
    (hFewer : fewer ≤ steps) : ∃ line snapshot, Runs code fewer first start line snapshot := by
  induction hRuns generalizing fewer with
  | refl line snapshot =>
      obtain rfl : fewer = 0 := Nat.le_zero.mp hFewer
      exact ⟨line, snapshot, .refl _ _⟩
  | @step steps line next _ before _ _ _ hAt hStep _ inductionHypothesis =>
      cases fewer with
      | zero => exact ⟨line, before, .refl _ _⟩
      | succ fewer =>
          obtain ⟨place, snapshot, hRest⟩ := inductionHypothesis (Nat.le_of_succ_le_succ hFewer)
          exact ⟨place, snapshot, .step hAt hStep hRest⟩

theorem mono {other : List Instruction} {steps : Nat}
    (hCode : ∀ line instruction, instructionAt code line = some instruction →
      instructionAt other line = some instruction)
    (hRuns : Runs code steps first start last finish) :
    Runs other steps first start last finish := by
  induction hRuns with
  | refl line snapshot => exact .refl _ _
  | step hAt hStep _ inductionHypothesis => exact .step (hCode _ _ hAt) hStep inductionHypothesis

end Runs

/-! ### Passages -/

/-- What was known before a line was added is right about a machine: the pointer and the cells
of the names that are cached and up to date; the store is sound, so that the others are in
registers. -/
structure Emission.Fits (emission : Emission) (snapshot : Snapshot) : Prop where
  pointer : ∀ place, emission.pointer = some place → snapshot.pointer = place
  mirror : ∀ register handle name kind address,
    emission.store.occupant? register = some handle →
    emission.store.setting.cell? name = some (kind, handle, address) →
    emission.store.symbols.isFresh name = true →
    snapshot.memory address.toNat = some (snapshot.registers register)
  sound : emission.store.Sound

theorem Coherent.fits {store : Store} {pointer : Option Nat} {picture : Picture}
    {snapshot : Snapshot} (hCoherent : Coherent store pointer picture snapshot)
    (hSound : store.Sound) (line : Nat) : Emission.Fits ⟨line, pointer, store⟩ snapshot :=
  ⟨hCoherent.pointer, hCoherent.mirror, hSound⟩

structure Blueprint where
  code : List Instruction
  emissions : Emission → Prop

namespace Blueprint

/-- Everything that was known before a line was added is right about a machine. -/
def Safe (blueprint : Blueprint) (line : Int) (snapshot : Snapshot) : Prop :=
  ∀ emission, blueprint.emissions emission → (emission.line : Int) = line →
    emission.Fits snapshot

end Blueprint

/-- A run on which every state but the last is safe. -/
structure Passes (blueprint : Blueprint) (steps : Nat) (first : Int) (start : Snapshot)
    (last : Int) (finish : Snapshot) : Prop where
  runs : Runs blueprint.code steps first start last finish
  safe : ∀ fewer line snapshot, fewer < steps →
    Runs blueprint.code fewer first start line snapshot → blueprint.Safe line snapshot

namespace Passes

variable {blueprint : Blueprint} {first middle last : Int} {start between finish : Snapshot}

theorem refl (line : Int) (snapshot : Snapshot) :
    Passes blueprint 0 line snapshot line snapshot :=
  ⟨.refl _ _, fun _ _ _ hNone => absurd hNone (Nat.not_lt_zero _)⟩

theorem trans {steps more : Nat} (hFirst : Passes blueprint steps first start middle between)
    (hSecond : Passes blueprint more middle between last finish) :
    Passes blueprint (steps + more) first start last finish where
  runs := hFirst.runs.trans hSecond.runs
  safe := by
    intro fewer line snapshot hFewer hRuns
    by_cases hEarly : fewer < steps
    · exact hFirst.safe fewer line snapshot hEarly hRuns
    · obtain ⟨rest, rfl⟩ := Nat.exists_eq_add_of_le (Nat.le_of_not_lt hEarly)
      exact hSecond.safe rest line snapshot (by omega) (hFirst.runs.cut hRuns)

theorem single (hRuns : Runs blueprint.code 1 first start last finish)
    (hSafe : blueprint.Safe first start) : Passes blueprint 1 first start last finish where
  runs := hRuns
  safe := by
    intro fewer line snapshot hFewer hShort
    obtain rfl : fewer = 0 := Nat.lt_one_iff.mp hFewer
    cases hShort
    exact hSafe

end Passes

/-! ### Drafts -/

structure Draft where
  listing : Listing
  emissions : Emission → Prop

namespace Draft

structure FilledBy (draft : Draft) (blueprint : Blueprint) : Prop where
  listing : draft.listing.FilledBy blueprint.code
  recorded : ∀ emission, blueprint.emissions emission → emission.line < draft.listing.size →
    draft.emissions emission

structure Grows (registers : Int) (slots : List Nat) (before after : Draft) : Prop
    extends Listing.Grows registers slots before.listing after.listing where
  recorded : ∀ emission, before.emissions emission → after.emissions emission
  later : ∀ emission, after.emissions emission → before.emissions emission ∨
    before.listing.size ≤ emission.line ∧ (emission.store.registers.size : Int) = registers

namespace Grows

variable {registers : Int} {slots moreSlots : List Nat} {before middle after : Draft}

theorem refl (registers : Int) (draft : Draft) : Grows registers [] draft draft :=
  ⟨.refl _ _, fun _ hBefore => hBefore, fun _ hBefore => .inl hBefore⟩

theorem trans (hFirst : Grows registers slots before middle)
    (hSecond : Grows registers moreSlots middle after) :
    Grows registers (moreSlots ++ slots) before after where
  toGrows := hFirst.toGrows.trans hSecond.toGrows
  recorded := fun emission hBefore => hSecond.recorded _ (hFirst.recorded _ hBefore)
  later := by
    intro emission hAfter
    rcases hSecond.later emission hAfter with hMiddle | ⟨hLine, hSize⟩
    · exact hFirst.later emission hMiddle
    · exact .inr ⟨Nat.le_trans hFirst.size hLine, hSize⟩

theorem filledBy (hGrows : Grows registers slots before after) {blueprint : Blueprint}
    (hFilled : after.FilledBy blueprint) : before.FilledBy blueprint where
  listing := hGrows.toGrows.filledBy hFilled.listing
  recorded := by
    intro emission hEmission hLine
    have hAfter := hFilled.recorded emission hEmission (Nat.lt_of_lt_of_le hLine hGrows.size)
    rcases hGrows.later emission hAfter with hBefore | ⟨hNew, -⟩
    · exact hBefore
    · omega

end Grows

end Draft

/-! ### Blocks -/

theorem Snapshot.step?_line {snapshot after : Snapshot} {line next : Int}
    {instruction : Instruction} (hStep : snapshot.step? line instruction = some (next, after)) :
    next = line + 1 ∨ instruction.opcode.isJump = true ∧ next = instruction.target := by
  unfold step? at hStep
  split at hStep
  · rename_i hOpcode
    cases hStep
    exact .inr ⟨by rw [hOpcode]; rfl, rfl⟩
  · rename_i hOpcode
    obtain ⟨hNext, -⟩ := Prod.mk.inj (Option.some.inj hStep)
    split at hNext
    · exact .inr ⟨by rw [hOpcode]; rfl, hNext.symm⟩
    · exact .inl hNext.symm
  · rename_i hOpcode
    obtain ⟨hNext, -⟩ := Prod.mk.inj (Option.some.inj hStep)
    split at hNext
    · exact .inr ⟨by rw [hOpcode]; rfl, hNext.symm⟩
    · exact .inl hNext.symm
  · obtain ⟨effect, -, hSame⟩ := Option.map_eq_some_iff.mp hStep
    obtain ⟨hNext, -⟩ := Prod.mk.inj hSame
    exact .inl hNext.symm

theorem Snapshot.isJump_of_runBlock {snapshot after : Snapshot} {block : List Instruction}
    (hRun : snapshot.runBlock block = some after) :
    ∀ instruction ∈ block, instruction.opcode.isJump = false := by
  induction block generalizing snapshot with
  | nil => exact fun _ hNone => absurd hNone List.not_mem_nil
  | cons instruction rest inductionHypothesis =>
      obtain ⟨middle, hEffect, hRest⟩ := Option.bind_eq_some_iff.mp hRun
      refine List.forall_mem_cons.mpr ⟨?_, inductionHypothesis hRest⟩
      unfold effect? at hEffect
      cases hOpcode : instruction.opcode <;> rw [hOpcode] at hEffect <;>
        first
        | rfl
        | contradiction

theorem instructionAt_take {code : List Instruction} {count : Nat} {line : Int}
    {instruction : Instruction} :
    instructionAt (code.take count) line = some instruction ↔
      line < count ∧ instructionAt code line = some instruction := by
  unfold instructionAt
  by_cases hNegative : line < 0
  · simp [hNegative]
  · simp only [hNegative, if_false, List.getElem?_take]
    by_cases hInside : line < count
    · rw [if_pos (by omega)]
      simp [hInside]
    · rw [if_neg (by omega)]
      simp [hInside]

/-- An instruction that writes one of some registers, the cell under the pointer or nothing. -/
def Instruction.WritesOnly (registers : List Int) (instruction : Instruction) : Prop :=
  instruction.opcode.isJump = true ∨ instruction.opcode = .store ∨
    instruction.register ∈ registers ∧ instruction.opcode ∈ [.add, .shl, .shr]

private theorem Instruction.WritesOnly.step {registers : List Int} {instruction : Instruction}
    (hWrites : instruction.WritesOnly registers) (hPointer : 0 ∉ registers)
    {before after : Snapshot} {line next : Int}
    (hStep : before.step? line instruction = some (next, after)) :
    after.pointer = before.pointer ∧ before.AgreeExcept registers [before.pointer] after := by
  have hSet : ∀ value, instruction.register ∈ registers →
      (before.setRegister instruction.register value).pointer = before.pointer ∧
        before.AgreeExcept registers [before.pointer]
          (before.setRegister instruction.register value) := by
    intro value hMem
    refine ⟨Snapshot.registers_setRegister_of_ne _ ?_ _,
      (Snapshot.AgreeExcept.refl _ _ before).setRegister hMem value⟩
    intro hZero
    exact hPointer (hZero ▸ hMem)
  rcases hWrites with hJump | hStore | ⟨hMem, hOpcode⟩
  · have hSame : after = before := by
      unfold Snapshot.step? at hStep
      cases hOpcode : instruction.opcode <;> rw [hOpcode] at hJump hStep <;>
        first
        | contradiction
        | exact (Prod.mk.inj (Option.some.inj hStep)).2.symm
    rw [hSame]
    exact ⟨rfl, .refl _ _ _⟩
  · simp only [Snapshot.step?, Snapshot.effect?, hStore, Option.map_some, Option.some.injEq,
      Prod.mk.injEq] at hStep
    rw [← hStep.2]
    exact ⟨rfl, (Snapshot.AgreeExcept.refl _ _ before).setCell List.mem_cons_self _⟩
  · simp only [List.mem_cons, List.not_mem_nil, or_false] at hOpcode
    rcases hOpcode with hOpcode | hOpcode | hOpcode
    · simp only [Snapshot.step?, Snapshot.effect?, hOpcode, Option.map_eq_some_iff,
        Prod.mk.injEq] at hStep
      obtain ⟨_, ⟨cell, -, rfl⟩, -, rfl⟩ := hStep
      exact hSet _ hMem
    · simp only [Snapshot.step?, Snapshot.effect?, hOpcode, Option.map_some, Option.some.injEq,
        Prod.mk.injEq] at hStep
      rw [← hStep.2]
      exact hSet _ hMem
    · simp only [Snapshot.step?, Snapshot.effect?, hOpcode, Option.map_some, Option.some.injEq,
        Prod.mk.injEq] at hStep
      rw [← hStep.2]
      exact hSet _ hMem

/-- A block without jumps is passed line by line. -/
theorem Passes.ofStraight {blueprint : Blueprint} {start : Int} {block : List Instruction}
    {before after : Snapshot} (hEmbedded : Embedded blueprint.code start block)
    (hRun : before.runBlock block = some after)
    (hFirst : block ≠ [] → blueprint.Safe start before)
    (hRest : ∀ line, start < line → line < start + block.length →
      ∀ snapshot, blueprint.Safe line snapshot) :
    Passes blueprint block.length start before (start + block.length) after := by
  induction block generalizing start before with
  | nil =>
      obtain rfl : before = after := Option.some.inj hRun
      simpa using Passes.refl start before
  | cons instruction rest inductionHypothesis =>
      obtain ⟨middle, hEffect, hRun⟩ := Option.bind_eq_some_iff.mp hRun
      have hStep : Runs blueprint.code 1 start before (start + 1) middle :=
        .single hEmbedded.head (Snapshot.step?_of_effect? hEffect start)
      have hLater := inductionHypothesis hEmbedded.tail hRun (fun hMore => ?_) fun line hLow hHigh =>
        hRest line (by omega) (by simp only [List.length_cons]; omega)
      · rw [show start + ((instruction :: rest).length : Int) = start + 1 + rest.length by
          simp only [List.length_cons]; omega, List.length_cons, Nat.add_comm]
        exact (Passes.single hStep (hFirst (List.cons_ne_nil _ _))).trans hLater
      · have hLength := List.length_pos_iff.mpr hMore
        exact hRest _ (by omega) (by simp only [List.length_cons]; omega) middle

structure EndsWith (code : List Instruction) (start : Nat) (block : List Instruction) : Prop where
  embedded : Embedded code start block
  ends : ∀ line instruction, instructionAt code line = some instruction →
    line < (start : Int) + block.length

namespace EndsWith

variable {code : List Instruction} {start : Nat} {block : List Instruction}

private theorem of_embedded (hEmbedded : Embedded code start block) :
    EndsWith (code.take (start + block.length)) start block where
  embedded := by
    intro index instruction hFound
    have hBound : index < block.length := (List.getElem?_eq_some_iff.mp hFound).1
    exact instructionAt_take.mpr ⟨by omega, hEmbedded index instruction hFound⟩
  ends := by
    intro line instruction hAt
    have hLine := (instructionAt_take.mp hAt).1
    omega

theorem exists_index (hEnds : EndsWith code start block) {line : Int} (hLine : start ≤ line)
    {instruction : Instruction} (hAt : instructionAt code line = some instruction) :
    ∃ index : Nat, line = start + index ∧ block[index]? = some instruction := by
  have hBelow := hEnds.ends line instruction hAt
  obtain ⟨index, rfl⟩ : ∃ index : Nat, line = start + index := ⟨(line - start).toNat, by omega⟩
  have hIndex : index < block.length := by omega
  have hHere := hEnds.embedded index block[index] (List.getElem?_eq_getElem hIndex)
  rw [hHere] at hAt
  exact ⟨index, rfl, (List.getElem?_eq_getElem hIndex).trans hAt⟩

private theorem instruction_mem (hEnds : EndsWith code start block) {line : Int}
    (hLine : start ≤ line) {instruction : Instruction}
    (hAt : instructionAt code line = some instruction) :
    instruction ∈ block := by
  obtain ⟨index, -, hIndex⟩ := hEnds.exists_index hLine hAt
  exact List.mem_of_getElem? hIndex

/-- A run of code that ends with a block does not leave the block, unless a jump leads before
it. -/
theorem runs_inside (hEnds : EndsWith code start block)
    (hTargets : ∀ instruction ∈ block, instruction.opcode.isJump = true →
      (start : Int) ≤ instruction.target) {steps : Nat} {first last : Int}
    {before after : Snapshot} (hFirst : start ≤ first)
    (hRuns : Runs code steps first before last after) : start ≤ last := by
  induction hRuns with
  | refl line snapshot => exact hFirst
  | step hAt hStep _ inductionHypothesis =>
      apply inductionHypothesis
      rcases Snapshot.step?_line hStep with hNext | ⟨hJump, hNext⟩
      · omega
      · rw [hNext]
        exact hTargets _ (hEnds.instruction_mem hFirst hAt) hJump

/-- A run of a block whose jumps all lead behind its first line does not come back to that
line. -/
theorem eq_of_runs (hEnds : EndsWith code start block)
    (hForward : ∀ instruction ∈ block, instruction.opcode.isJump = true →
      (start : Int) < instruction.target)
    {steps : Nat} {before after : Snapshot} (hRuns : Runs code steps start before start after) :
    before = after := by
  have hAbove : ∀ {steps : Nat} {first last : Int} {before after : Snapshot},
      (start : Int) < first → Runs code steps first before last after → (start : Int) < last := by
    intro steps first last before after hFirst hRuns
    induction hRuns with
    | refl line snapshot => exact hFirst
    | step hAt hStep _ inductionHypothesis =>
        apply inductionHypothesis
        rcases Snapshot.step?_line hStep with hNext | ⟨hJump, hNext⟩
        · omega
        · rw [hNext]
          exact hForward _ (hEnds.instruction_mem (Int.le_of_lt hFirst) hAt) hJump
  cases hRuns with
  | refl => rfl
  | @step _ _ next _ _ _ _ _ hAt hStep hRest =>
      have hNext : (start : Int) < next := by
        rcases Snapshot.step?_line hStep with hNext | ⟨hJump, hNext⟩
        · rw [hNext]
          exact Int.lt_succ _
        · rw [hNext]
          exact hForward _ (hEnds.instruction_mem (Int.le_refl _) hAt) hJump
      exact absurd (hAbove hNext hRest) (Int.lt_irrefl _)

/-- A run of a block that changes some registers and the cell under the pointer only. -/
theorem agreeExcept_of_runs (hEnds : EndsWith code start block)
    (hTargets : ∀ instruction ∈ block, instruction.opcode.isJump = true →
      (start : Int) ≤ instruction.target) {registers : List Int} (hPointer : 0 ∉ registers)
    (hWrites : ∀ instruction ∈ block, instruction.WritesOnly registers) {steps : Nat}
    {first last : Int} {before after : Snapshot} (hFirst : start ≤ first)
    (hRuns : Runs code steps first before last after) :
    before.AgreeExcept registers [before.pointer] after := by
  induction hRuns with
  | refl line snapshot => exact .refl _ _ _
  | step hAt hStep hRest inductionHypothesis =>
      have hMem := hEnds.instruction_mem hFirst hAt
      have hNext := hEnds.runs_inside hTargets hFirst (.single hAt hStep)
      obtain ⟨hSame, hAgree⟩ := (hWrites _ hMem).step hPointer hStep
      have hLater := inductionHypothesis hNext
      rw [hSame] at hLater
      exact hAgree.trans hLater

end EndsWith

/-- A block is passed when it is run, provided what was known before its first line is right
whenever that line is reached. -/
theorem Passes.ofBlock {blueprint : Blueprint} {start : Nat} {block : List Instruction}
    (hEmbedded : Embedded blueprint.code start block)
    (hTargets : ∀ instruction ∈ block, instruction.opcode.isJump = true →
      (start : Int) ≤ instruction.target)
    (hRecorded : ∀ emission, blueprint.emissions emission → start < emission.line →
      start + block.length ≤ emission.line)
    {before : Snapshot} {post : Snapshot → Prop}
    (hSafe : ∀ code steps snapshot, block ≠ [] → EndsWith code start block →
      Runs code steps start before start snapshot → blueprint.Safe start snapshot)
    (hRuns : ∀ code, Embedded code start block → ∃ steps after,
      Runs code steps start before (start + block.length) after ∧ post after) :
    ∃ steps after, Passes blueprint steps start before (start + block.length) after ∧
      post after := by
  -- Nothing leads on from the end of the shortened code.
  have hEnds := EndsWith.of_embedded hEmbedded
  obtain ⟨steps, after, hRun, hPost⟩ := hRuns _ hEnds.embedded
  have hWhole : ∀ line instruction,
      instructionAt (blueprint.code.take (start + block.length)) line = some instruction →
      instructionAt blueprint.code line = some instruction :=
    fun line instruction hAt => (instructionAt_take.mp hAt).2
  refine ⟨steps, after, ⟨hRun.mono hWhole, ?_⟩, hPost⟩
  intro fewer line snapshot hFewer hShort
  obtain ⟨place, there, hThere⟩ := hRun.stop (Nat.le_of_lt hFewer)
  obtain ⟨rfl, rfl⟩ := (hThere.mono hWhole).unique hShort
  obtain ⟨rest, rfl⟩ := Nat.exists_eq_add_of_lt hFewer
  have hLow := hEnds.runs_inside hTargets (Int.le_refl _) hThere
  have hHigh : place < (start : Int) + block.length := by
    have hRest : Runs _ (rest + 1) place there (start + block.length) after := hThere.cut hRun
    cases hRest with
    | step hAt _ _ => exact hEnds.ends _ _ hAt
  intro emission hEmission hLine
  by_cases hStart : place = start
  · subst hStart
    refine hSafe _ _ _ ?_ hEnds hThere emission hEmission hLine
    rintro rfl
    simp at hHigh
  · have hBehind := hRecorded emission hEmission (by omega)
    omega

end RegisterCompiler
