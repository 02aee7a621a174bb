/-
Steps of code generation and the code they add.

A context is sound when its store is and the dynamic elements of the current command
are loose values.  A step works when it keeps the context sound, leaves the setting
alone and lets the listing grow.  The code it adds reaches a condition from another
when every machine that runs it from the one comes to its end with the other.
-/

import RegisterCompiler.Proofs.Generator.Ensures
import RegisterCompiler.Proofs.Generator.Passage

set_option autoImplicit false

namespace RegisterCompiler

namespace Context

/-- What the store of a context says apart from its registers. -/
abbrev setting (context : Context) : Setting :=
  context.store.setting

/-- A machine that has every value of a picture where the context says it is. -/
abbrev Shows (context : Context) (picture : Picture) : Snapshot → Prop :=
  Coherent context.store context.pointer picture

abbrev draft (context : Context) : Draft :=
  ⟨context.listing, context.emissions⟩

structure Sound (context : Context) : Prop where
  store : context.store.Sound
  size : (context.store.registers.size : Int) = context.options.registers
  dynamics : ∀ handle ∈ context.dynamics, context.store.Loose handle
  distinct : context.dynamics.Nodup
  recorded : ∀ emission, context.emissions emission → emission.line < context.listing.size

/-- Two contexts between which no construct was entered or left. -/
structure Quiet (before after : Context) : Prop where
  options : after.options = before.options
  labels : after.labels = before.labels
  depth : after.depth = before.depth
  loops : after.loops = before.loops
  placements : after.placements = before.placements

structure Advances (before after : Context) : Prop where
  sound : after.Sound
  quiet : Quiet before after
  grows : Draft.Grows before.options.registers [] before.draft after.draft

structure Works (before after : Context) : Prop extends Advances before after where
  setting : after.setting = before.setting

/-- The code between two contexts leads from one condition to another. -/
def Reaches (before after : Context) (pre post : Snapshot → Prop) : Prop :=
  ∀ blueprint, after.draft.FilledBy blueprint → ∀ start, pre start →
    ∃ steps finish, Passes blueprint steps before.listing.size start after.listing.size finish ∧
      post finish

/-- The registers held for the current command, none of which caches a name. -/
structure Holding (context : Context) (registers : List Int) : Prop where
  held : ∀ register, register ∈ registers ↔ context.store.Holds register
  spare : ∀ register handle, context.store.register? register ≠ some ⟨.inUse, some handle⟩

/-- A step whose code turns one picture into another. -/
structure Turns (before after : Context) (effect : Picture → Picture → Prop) : Prop
    extends Works before after where
  reaches : ∀ start finish, effect start finish →
    Reaches before after (before.Shows start) (after.Shows finish)

private theorem Quiet.trans {before middle after : Context} (hFirst : Quiet before middle)
    (hSecond : Quiet middle after) : Quiet before after where
  options := hSecond.options.trans hFirst.options
  labels := hSecond.labels.trans hFirst.labels
  depth := hSecond.depth.trans hFirst.depth
  loops := hSecond.loops.trans hFirst.loops
  placements := hSecond.placements.trans hFirst.placements

namespace Advances

theorem refl {context : Context} (hSound : context.Sound) : Advances context context :=
  ⟨hSound, ⟨rfl, rfl, rfl, rfl, rfl⟩, .refl _ _⟩

theorem trans {before middle after : Context} (hFirst : Advances before middle)
    (hSecond : Advances middle after) : Advances before after where
  sound := hSecond.sound
  quiet := hFirst.quiet.trans hSecond.quiet
  grows := by
    have hLater := hSecond.grows
    rw [hFirst.quiet.options] at hLater
    exact hFirst.grows.trans hLater

theorem onStore {context : Context} (hSound : context.Sound) {store : Store}
    (hStore : store.Sound) (hSize : store.registers.size = context.store.registers.size)
    (hLoose : ∀ handle ∈ context.dynamics, context.store.Loose handle → store.Loose handle) :
    Advances context { context with store := store } where
  sound := ⟨hStore, by rw [hSize]; exact hSound.size,
    fun handle hHandle => hLoose handle hHandle (hSound.dynamics handle hHandle),
    hSound.distinct, hSound.recorded⟩
  quiet := ⟨rfl, rfl, rfl, rfl, rfl⟩
  grows := .refl _ _

end Advances

namespace Works

theorem trans {before middle after : Context} (hFirst : Works before middle)
    (hSecond : Works middle after) : Works before after :=
  ⟨hFirst.toAdvances.trans hSecond.toAdvances, hSecond.setting.trans hFirst.setting⟩

end Works

namespace Reaches

variable {before middle after : Context} {pre between post : Snapshot → Prop}

theorem trans (hFirst : Reaches before middle pre between)
    (hSecond : Reaches middle after between post) {registers : Int} {slots : List Nat}
    (hGrows : Draft.Grows registers slots middle.draft after.draft) : Reaches before after pre post := by
  intro blueprint hFilled start hStart
  obtain ⟨firstSteps, arrival, hPasses, hArrival⟩ :=
    hFirst blueprint (hGrows.filledBy hFilled) start hStart
  obtain ⟨secondSteps, finish, hRest, hFinish⟩ := hSecond blueprint hFilled arrival hArrival
  exact ⟨_, finish, hPasses.trans hRest, hFinish⟩

theorem mono {weaker stronger : Snapshot → Prop} (hReaches : Reaches before after pre post)
    (hPre : ∀ snapshot, stronger snapshot → pre snapshot)
    (hPost : ∀ snapshot, post snapshot → weaker snapshot) :
    Reaches before after stronger weaker := by
  intro blueprint hFilled start hStart
  obtain ⟨steps, finish, hPasses, hFinish⟩ :=
    hReaches blueprint hFilled start (hPre start hStart)
  exact ⟨steps, finish, hPasses, hPost finish hFinish⟩

theorem assume (hReaches : ∀ snapshot, pre snapshot → Reaches before after pre post) :
    Reaches before after pre post :=
  fun blueprint hFilled start hStart => hReaches start hStart blueprint hFilled start hStart

theorem still (hListing : after.listing = before.listing)
    (hPost : ∀ snapshot, pre snapshot → post snapshot) : Reaches before after pre post := by
  intro blueprint _ start hStart
  rw [hListing]
  exact ⟨0, start, .refl _ _, hPost start hStart⟩

end Reaches

namespace Turns

variable {before middle after : Context} {effect first second : Picture → Picture → Prop}

theorem refl {context : Context} (hSound : context.Sound) : Turns context context Eq :=
  ⟨⟨.refl hSound, rfl⟩, fun _ _ hSame => .still rfl fun _ hShows => hSame ▸ hShows⟩

theorem trans (hFirst : Turns before middle first) (hSecond : Turns middle after second)
    (hEffect : ∀ start finish, effect start finish →
      ∃ between, first start between ∧ second between finish) : Turns before after effect where
  toWorks := hFirst.toWorks.trans hSecond.toWorks
  reaches := by
    intro start finish hStart
    obtain ⟨between, hHere, hThere⟩ := hEffect start finish hStart
    exact (hFirst.reaches start between hHere).trans (hSecond.reaches between finish hThere)
      hSecond.grows

theorem comp (hFirst : Turns before middle first) (hSecond : Turns middle after second) :
    Turns before after fun start finish => ∃ between, first start between ∧ second between finish :=
  hFirst.trans hSecond fun _ _ hEffect => hEffect

theorem after_still (hFirst : Turns before middle Eq) (hSecond : Turns middle after effect) :
    Turns before after effect :=
  hFirst.trans hSecond fun start _ hEffect => ⟨start, rfl, hEffect⟩

theorem before_still (hFirst : Turns before middle effect) (hSecond : Turns middle after Eq) :
    Turns before after effect :=
  hFirst.trans hSecond fun _ finish hEffect => ⟨finish, hEffect, rfl⟩

theorem imp (hTurns : Turns before after first)
    (hEffect : ∀ start finish, effect start finish → first start finish) :
    Turns before after effect :=
  ⟨hTurns.toWorks, fun start finish hStart => hTurns.reaches start finish (hEffect start finish hStart)⟩

theorem mono (hTurns : Turns before after first)
    (hEffect : ∀ start finish, effect start finish →
      ∃ stronger, first start stronger ∧ finish.Below stronger) : Turns before after effect where
  toWorks := hTurns.toWorks
  reaches := by
    intro start finish hStart
    obtain ⟨stronger, hFirst, hBelow⟩ := hEffect start finish hStart
    exact (hTurns.reaches start stronger hFirst).mono (fun _ hPre => hPre)
      fun _ hPost => hPost.restrict hBelow

/-- A step on the store that leaves the setting alone. -/
theorem onStore {context : Context} (hSound : context.Sound) {store : Store}
    (hStore : store.Sound) (hSize : store.registers.size = context.store.registers.size)
    (hSetting : store.setting = context.setting)
    (hLoose : ∀ handle, context.store.Loose handle → store.Loose handle)
    (hCoherent : ∀ start finish snapshot, effect start finish → context.Shows start snapshot →
      Coherent store context.pointer finish snapshot) :
    Turns context { context with store := store } effect :=
  ⟨⟨.onStore hSound hStore hSize fun handle _ => hLoose handle, hSetting⟩,
    fun start finish hEffect => .still rfl fun snapshot => hCoherent start finish snapshot hEffect⟩

end Turns

end Context

/-! ### Adding code -/

namespace Instruction

theorem ready_unary {opcode : Opcode} (hShape : opcode.shape = .register) {register : Int}
    {registers : Int} (hLow : 0 ≤ register) (hHigh : register < registers) (lines : Nat) :
    (unary opcode register).Ready registers lines := by
  have hOperands : (unary opcode register).operands = [register] := by
    simp only [operands, unary, hShape]
  have hDefined : opcode.isDefined = true := by
    cases opcode with
    | undefined byte => contradiction
    | _ => rfl
  have hStays : opcode.isJump = false := by
    cases opcode <;> first
      | rfl
      | contradiction
  refine ⟨⟨hDefined, ?_, ?_⟩, ?_, ⟨hDefined, ?_, ?_⟩⟩
  · rw [hOperands]
    simp only [unary, hShape]
    rfl
  · rw [hOperands]
    intro operand hOperand
    rw [List.mem_singleton.mp hOperand]
    exact hLow
  · rw [hOperands]
    simp only [ofOperands, unary, hShape]
  · intro _
    exact ⟨hLow, hHigh⟩
  · intro hJump
    rw [show (unary opcode register).opcode = opcode from rfl, hStays] at hJump
    contradiction

theorem ready_jump (registers : Int) {target : Int} {lines : Nat} (hLow : 0 ≤ target)
    (hHigh : target ≤ lines) : (jump target).Ready registers lines := by
  refine ⟨⟨rfl, rfl, ?_⟩, rfl, ⟨rfl, ?_, ?_⟩⟩
  · intro operand hOperand
    rw [List.mem_singleton.mp hOperand]
    exact hLow
  · intro hRegister
    contradiction
  · intro _
    exact ⟨hLow, hHigh⟩

theorem ready_branch {opcode : Opcode} (hShape : opcode.shape = .registerTarget) {register : Int}
    {registers : Int} (hLow : 0 ≤ register) (hHigh : register < registers) {target : Int}
    {lines : Nat} (hFirst : 0 ≤ target) (hLast : target ≤ lines) :
    (branch opcode register target).Ready registers lines := by
  have hOperands : (branch opcode register target).operands = [register, target] := by
    simp only [operands, branch, hShape]
  have hDefined : opcode.isDefined = true := by
    cases opcode with
    | undefined byte => contradiction
    | _ => rfl
  refine ⟨⟨hDefined, ?_, ?_⟩, ?_, ⟨hDefined, ?_, ?_⟩⟩
  · rw [hOperands]
    simp only [branch, hShape]
    rfl
  · rw [hOperands]
    intro operand hOperand
    rcases List.mem_cons.mp hOperand with rfl | hRest
    · exact hLow
    · rw [List.mem_singleton.mp hRest]
      exact hFirst
  · rw [hOperands]
    simp only [ofOperands, branch, hShape]
  · intro _
    exact ⟨hLow, hHigh⟩
  · intro _
    exact ⟨hFirst, hLast⟩

theorem ready_stop (registers : Int) (lines : Nat) : stop.Ready registers lines :=
  ⟨⟨rfl, rfl, fun _ hNone => absurd hNone List.not_mem_nil⟩, rfl,
    ⟨rfl, fun hRegister => absurd hRegister (by decide), fun hJump => absurd hJump (by decide)⟩⟩

end Instruction

namespace Context

variable {context : Context}

theorem shows_add (context : Context) (block : List Instruction) :
    (context.add block).Shows = context.Shows :=
  rfl

theorem ensures_emitAll {α : Type} {block : List Instruction} {next : Unit → Generating α}
    {post : α → Context → Prop} (hNext : Generating.Ensures (next ()) (context.add block) post) :
    Generating.Ensures (Generating.emitAll block >>= next) context post :=
  hNext

theorem ensures_buildConstant {α : Type} {register : Int} (hRegister : register ≠ 0) {value : Nat}
    {next : Unit → Generating α} {post : α → Context → Prop}
    (hNext : Generating.Ensures (next ()) (context.add (constantCode register value)) post) :
    Generating.Ensures (Generating.buildConstant register value >>= next) context post := by
  rw [Generating.buildConstant_of_ne hRegister]
  exact ensures_emitAll hNext

theorem grows_add (hSound : context.Sound) {block : List Instruction}
    (hReady : ∀ instruction ∈ block,
      instruction.Ready context.options.registers (context.listing.size + block.length)) :
    Draft.Grows context.options.registers [] context.draft (context.add block).draft where
  toGrows := Listing.grows_addAll context.listing hReady
  recorded := fun _ hBefore => .inl hBefore
  later := by
    rintro emission (hBefore | ⟨-, rfl⟩)
    · exact .inl hBefore
    · exact .inr ⟨Nat.le_refl _, hSound.size⟩

theorem size_add (context : Context) (block : List Instruction) :
    (context.add block).listing.size = context.listing.size + block.length :=
  Listing.size_addAll _ _

theorem Sound.add (hSound : context.Sound) (block : List Instruction) :
    (context.add block).Sound := by
  refine ⟨hSound.store, hSound.size, hSound.dynamics, hSound.distinct, ?_⟩
  rw [size_add]
  rintro emission (hBefore | ⟨hNonempty, rfl⟩)
  · have hLine := hSound.recorded emission hBefore
    omega
  · exact Nat.lt_add_of_pos_right (List.length_pos_iff.mpr hNonempty)

theorem Works.add (hSound : context.Sound) {block : List Instruction}
    (hReady : ∀ instruction ∈ block,
      instruction.Ready context.options.registers (context.listing.size + block.length)) :
    Works context (context.add block) :=
  ⟨⟨hSound.add block, ⟨rfl, rfl, rfl, rfl, rfl⟩, grows_add hSound hReady⟩, rfl⟩

/-- Among new lines only the first has a record, and that is what is known before them. -/
theorem Sound.emission_eq (hSound : context.Sound) {block : List Instruction}
    {blueprint : Blueprint} (hFilled : (context.add block).draft.FilledBy blueprint)
    {emission : Emission} (hEmission : blueprint.emissions emission)
    (hLow : context.listing.size ≤ emission.line)
    (hHigh : emission.line < context.listing.size + block.length) :
    emission = context.emission := by
  rcases hFilled.recorded emission hEmission (by rw [size_add]; exact hHigh) with hBefore | hNew
  · have hLine := hSound.recorded emission hBefore
    omega
  · exact hNew.2

/-- What is known before new lines is right where a machine that shows it comes to them. -/
theorem safe_add (hSound : context.Sound) {block : List Instruction} (hNonempty : block ≠ [])
    {blueprint : Blueprint} (hFilled : (context.add block).draft.FilledBy blueprint)
    {picture : Picture} {snapshot : Snapshot} (hShows : context.Shows picture snapshot) :
    blueprint.Safe context.listing.size snapshot := by
  intro emission hEmission hLine
  have hLength := List.length_pos_iff.mpr hNonempty
  rw [hSound.emission_eq hFilled hEmission (by omega) (by omega)]
  exact hShows.fits hSound.store _

/-- Code with jumps reaches what its runs from its first line to its end reach, if what is
known before it is right whenever its first line is reached. -/
theorem Reaches.addLoop (hSound : context.Sound) {block : List Instruction} {registers : Int}
    {lines : Nat} (hReady : ∀ instruction ∈ block, instruction.Ready registers lines)
    (hTargets : ∀ instruction ∈ block, instruction.opcode.isJump = true →
      (context.listing.size : Int) ≤ instruction.target)
    {pre post : Snapshot → Prop}
    (hShows : ∀ code steps start snapshot, EndsWith code context.listing.size block →
      Runs code steps context.listing.size start context.listing.size snapshot → pre start →
      ∃ picture, context.Shows picture snapshot)
    (hRuns : ∀ code start, Embedded code context.listing.size block → pre start →
      ∃ steps finish, Runs code steps context.listing.size start
        (context.listing.size + block.length) finish ∧ post finish) :
    Reaches context (context.add block) pre post := by
  intro blueprint hFilled start hStart
  rw [size_add, Int.natCast_add]
  refine Passes.ofBlock (Listing.embedded_addAll hReady hFilled.listing) hTargets ?_ ?_
    fun code hEmbedded => hRuns code start hEmbedded hStart
  · intro emission hEmission hBehind
    by_contra hInside
    have hSame := hSound.emission_eq hFilled hEmission (Nat.le_of_lt hBehind) (by omega)
    rw [hSame] at hBehind
    exact Nat.lt_irrefl _ hBehind
  · intro code steps snapshot hNonempty hEnds hSteps
    obtain ⟨picture, hPicture⟩ := hShows code steps start snapshot hEnds hSteps hStart
    exact safe_add hSound hNonempty hFilled hPicture

/-- Code whose jumps all lead forward reaches what its runs from its first line to its end
reach. -/
theorem Reaches.addForward (hSound : context.Sound) {block : List Instruction} {registers : Int}
    {lines : Nat} (hReady : ∀ instruction ∈ block, instruction.Ready registers lines)
    (hTargets : ∀ instruction ∈ block, instruction.opcode.isJump = true →
      (context.listing.size : Int) < instruction.target)
    {pre post : Snapshot → Prop}
    (hShows : ∀ start, pre start → ∃ picture, context.Shows picture start)
    (hRuns : ∀ code start, Embedded code context.listing.size block → pre start →
      ∃ steps finish, Runs code steps context.listing.size start
        (context.listing.size + block.length) finish ∧ post finish) :
    Reaches context (context.add block) pre post := by
  refine .addLoop hSound hReady (fun instruction hMem hJump =>
    Int.le_of_lt (hTargets instruction hMem hJump)) ?_ hRuns
  intro code steps start snapshot hEnds hSteps hStart
  rw [← hEnds.eq_of_runs hTargets hSteps]
  exact hShows start hStart

/-- Code without jumps reaches what it does. -/
theorem Reaches.add (hSound : context.Sound) {block : List Instruction} {registers : Int}
    {lines : Nat} (hReady : ∀ instruction ∈ block, instruction.Ready registers lines)
    {pre post : Snapshot → Prop}
    (hShows : ∀ start, pre start → ∃ picture, context.Shows picture start)
    (hBlock : ∀ start, pre start → ∃ finish, start.runBlock block = some finish ∧ post finish) :
    Reaches context (context.add block) pre post := by
  refine .assume fun snapshot hPre => ?_
  obtain ⟨finish, hRun, -⟩ := hBlock snapshot hPre
  refine .addForward hSound hReady ?_ hShows ?_
  · intro instruction hMem hJump
    rw [Snapshot.isJump_of_runBlock hRun instruction hMem] at hJump
    contradiction
  · intro code start hEmbedded hStart
    obtain ⟨finish, hRun, hFinish⟩ := hBlock start hStart
    exact ⟨_, finish, .ofBlock hEmbedded hRun, hFinish⟩

/-- Code without jumps turns pictures as it turns the machines that show them. -/
theorem Turns.add (hSound : context.Sound) {block : List Instruction}
    (hReady : ∀ instruction ∈ block,
      instruction.Ready context.options.registers (context.listing.size + block.length))
    {effect : Picture → Picture → Prop}
    (hBlock : ∀ start finish snapshot, effect start finish → context.Shows start snapshot →
      ∃ after, snapshot.runBlock block = some after ∧ context.Shows finish after) :
    Turns context (context.add block) effect :=
  ⟨.add hSound hReady, fun start finish hEffect => .add hSound hReady
    (fun _ hShows => ⟨start, hShows⟩) fun snapshot => hBlock start finish snapshot hEffect⟩

/-- A register that exists may be used by every instruction on one register. -/
theorem ready_of_allocatable (hSound : context.Sound) {register : Int}
    (hRegister : context.store.Allocatable register) {opcode : Opcode}
    (hShape : opcode.shape = .register) (lines : Nat) :
    (Instruction.unary opcode register).Ready context.options.registers lines := by
  obtain ⟨hLow, hHigh⟩ := hRegister
  rw [hSound.size] at hHigh
  exact Instruction.ready_unary hShape (by omega) hHigh lines

theorem ready_branch_of_allocatable (hSound : context.Sound) {register : Int}
    (hRegister : context.store.Allocatable register) {opcode : Opcode}
    (hShape : opcode.shape = .registerTarget) {target : Int} {lines : Nat} (hFirst : 0 ≤ target)
    (hLast : target ≤ lines) :
    (Instruction.branch opcode register target).Ready context.options.registers lines := by
  obtain ⟨hLow, hHigh⟩ := hRegister
  rw [hSound.size] at hHigh
  exact Instruction.ready_branch hShape (by omega) hHigh hFirst hLast

theorem ready_pointer (hSound : context.Sound) {opcode : Opcode}
    (hShape : opcode.shape = .register) (lines : Nat) :
    (Instruction.unary opcode pointerRegister).Ready context.options.registers lines := by
  have hEnough := hSound.store.enough
  have hSize := hSound.size
  exact Instruction.ready_unary hShape (Int.le_refl 0) (by omega) lines

end Context

/-! ### Numbers and the pointer -/

theorem ready_constantCode {registers : Int} {lines : Nat} {register : Int}
    (hReady : ∀ opcode : Opcode, opcode.shape = .register →
      (Instruction.unary opcode register).Ready registers lines) (value : Nat) :
    ∀ instruction ∈ constantCode register value, instruction.Ready registers lines := by
  have hBefore : ∀ rest : List Instruction, (∀ instruction ∈ rest,
      instruction.Ready registers lines) → ∀ instruction ∈ constantCodeBefore register value rest,
        instruction.Ready registers lines := by
    intro rest
    fun_induction constantCodeBefore register value rest with
    | case1 rest =>
        intro hRest
        exact List.forall_mem_cons.mpr ⟨hReady .zero rfl, hRest⟩
    | case2 rest =>
        intro hRest
        exact List.forall_mem_cons.mpr ⟨hReady .zero rfl,
          List.forall_mem_cons.mpr ⟨hReady .inc rfl, hRest⟩⟩
    | case3 value rest hZero hOne inductionHypothesis =>
        intro hRest
        simp only [dite_eq_ite] at inductionHypothesis
        refine inductionHypothesis (List.forall_mem_cons.mpr ⟨hReady .shl rfl, ?_⟩)
        split
        · exact List.forall_mem_cons.mpr ⟨hReady .inc rfl, hRest⟩
        · exact hRest
  exact hBefore [] fun _ hNone => absurd hNone List.not_mem_nil

theorem ready_replicate {registers : Int} {lines : Nat} {instruction : Instruction}
    (hReady : instruction.Ready registers lines) (count : Nat) :
    ∀ found ∈ List.replicate count instruction, found.Ready registers lines := by
  intro found hFound
  rw [(List.mem_replicate.mp hFound).2]
  exact hReady

theorem ready_pointerCode {registers : Int} {lines : Nat}
    (hReady : ∀ opcode : Opcode, opcode.shape = .register →
      (Instruction.unary opcode pointerRegister).Ready registers lines) (known : Option Nat)
    (address : Nat) :
    ∀ instruction ∈ pointerCode known address, instruction.Ready registers lines := by
  unfold pointerCode
  split
  · exact ready_constantCode hReady address
  · split
    · split
      · exact ready_replicate (hReady .inc rfl) _
      · exact ready_constantCode hReady address
    · split
      · exact ready_replicate (hReady .dec rfl) _
      · exact ready_constantCode hReady address

end RegisterCompiler
