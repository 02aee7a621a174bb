/-
Jumps that lead on.

Code generation adds lines and lets open jumps lead to the line that comes next.  The only jumps
whose target is given at once belong to the loops of products, quotients and WHILE and FOR, and
they lead to a line that was added with them.  So from code that was added behind a line no jump
leads back to the line or before it: a machine that has passed the line never comes to it again.
-/

import RegisterCompiler.Proofs.Generator.Lookups

set_option autoImplicit false

namespace RegisterCompiler

/-! ### Lines -/

/-- An instruction that is no jump to a line or before it. -/
def Instruction.LeadsBehind (line : Nat) (instruction : Instruction) : Prop :=
  instruction.opcode.isJump = true → line < instruction.target

def Line.LeadsBehind (line : Nat) : Line → Prop
  | complete opcode operands => (Instruction.ofOperands opcode operands).LeadsBehind line
  | pending opcode operands => ∀ target : Int, line < target →
      (Instruction.ofOperands opcode (operands ++ [target])).LeadsBehind line
  | edited _ => True

private theorem Instruction.LeadsBehind.complete {line : Nat} {instruction : Instruction}
    (hLeads : instruction.LeadsBehind line) :
    (Line.complete instruction.opcode instruction.operands).LeadsBehind line := by
  rcases instruction with ⟨opcode, register, target⟩
  cases opcode <;> first
    | exact hLeads
    | exact fun hJump => absurd hJump Bool.false_ne_true

namespace Listing

/-- From a line on no jump leads back to the line or before it. -/
def Onward (listing : Listing) (line : Nat) : Prop :=
  ∀ index found, line ≤ index → listing.lines[index]? = some found → found.LeadsBehind line

variable {listing : Listing} {line : Nat}

private theorem Onward.addAll (hOnward : listing.Onward line) {block : List Instruction}
    (hBlock : ∀ instruction ∈ block, instruction.LeadsBehind line) :
    (listing.addAll block).Onward line := by
  intro index found hIndex hFound
  by_cases hOld : index < listing.size
  · rw [getElem?_addAll_left listing block hOld] at hFound
    exact hOnward index found hIndex hFound
  · obtain ⟨offset, rfl⟩ := Nat.exists_eq_add_of_le (Nat.le_of_not_lt hOld)
    rw [getElem?_addAll_right] at hFound
    obtain ⟨instruction, hInstruction, rfl⟩ := Option.map_eq_some_iff.mp hFound
    exact (hBlock instruction (List.mem_of_getElem? hInstruction)).complete

private theorem Onward.emitJump (hOnward : listing.Onward line) {opcode : Opcode}
    {operands : List Int} (hPending : (Line.pending opcode operands).LeadsBehind line) :
    (listing.emitJump opcode operands).Onward line := by
  intro index found hIndex hFound
  rw [Listing.emitJump, Array.getElem?_push] at hFound
  split at hFound
  · rw [← Option.some.inj hFound]
    exact hPending
  · exact hOnward index found hIndex hFound

/-- An open jump from the line on, or from behind it, may lead to the next line. -/
theorem Onward.patch (hOnward : listing.Onward line) {slot : Int} {patched : Listing}
    (hPatch : listing.patch slot listing.size = .ok patched) : patched.Onward line := by
  intro index found hIndex hFound
  unfold Listing.patch change at hPatch
  cases hSlot : listing.line? slot with
  | none =>
      rw [hSlot] at hPatch
      cases hPatch
  | some old =>
      rw [hSlot] at hPatch
      cases hPatch
      rw [Array.set!_eq_setIfInBounds, Array.getElem?_setIfInBounds] at hFound
      split at hFound
      next hSame =>
        subst hSame
        rw [line?] at hSlot
        split at hSlot
        · cases hSlot
        have hBound : slot.toNat < listing.size := (Array.getElem?_eq_some_iff.mp hSlot).1
        rw [if_pos (show _ < listing.lines.size from hBound)] at hFound
        rw [← Option.some.inj hFound]
        cases old with
        | pending opcode operands => exact hOnward _ _ hIndex hSlot _ (by omega)
        | complete opcode operands => trivial
        | edited text => trivial
      next => exact hOnward index found hIndex hFound

private theorem Onward.resolve (hOnward : listing.Onward line) (labels : LabelStack) :
    (labels.resolve listing listing.size).2.2.Onward line := by
  unfold LabelStack.resolve
  cases labels with
  | nil => exact hOnward
  | cons label rest =>
      dsimp only
      split
      · exact hOnward
      cases hPatch : listing.patch label.slot listing.size with
      | error cause => exact hOnward
      | ok patched => exact hOnward.patch hPatch

end Listing

namespace Generating

/-! ### Steps -/

/-- A step that only adds lines, and no jump which leads back to a line or before it, where so many
lines stand from that line on. -/
class Leads (line gap : Nat) {α : Type} (action : Generating α) : Prop where
  onward : ∀ context : Context, line + gap ≤ context.listing.size → context.listing.Onward line →
    context.listing.size ≤ (action.run.run context).2.listing.size ∧
      (action.run.run context).2.listing.Onward line

namespace Leads

variable {line gap : Nat} {α β : Type}

instance bind (action : Generating β) (next : β → Generating α) [hAction : Leads line gap action]
    [hNext : ∀ value, Leads line gap (next value)] : Leads line gap (action >>= next) where
  onward := by
    intro context hSize hOnward
    have hFirst := hAction.onward context hSize hOnward
    simp only [ExceptT.run_bind, StateT.run_bind]
    cases hRun : action.run.run context with
    | mk result middle =>
        rw [hRun] at hFirst
        obtain ⟨hMore, hFirst⟩ := hFirst
        cases result with
        | ok value =>
            obtain ⟨hMost, hSecond⟩ :=
              (hNext value).onward middle (Nat.le_trans hSize hMore) hFirst
            exact ⟨Nat.le_trans hMore hMost, hSecond⟩
        | error fault => exact ⟨hMore, hFirst⟩

private theorem andThen {action : Generating β} {next : β → Generating α} [Leads line gap action]
    (hNext : ∀ value, Leads line gap (next value)) : Leads line gap (action >>= next) :=
  inferInstance

instance (priority := low) silent (action : Generating α) [hSilent : Silent action] :
    Leads line gap action where
  onward := by
    intro context _ hOnward
    rw [(hSilent.still context).1]
    exact ⟨Nat.le_refl _, hOnward⟩

instance ite {condition : Prop} [Decidable condition] (first second : Generating α)
    [hFirst : Leads line gap first] [hSecond : Leads line gap second] :
    Leads line gap (if condition then first else second) := by
  split
  · exact hFirst
  · exact hSecond

private theorem of_nextLine {next : Nat → Generating α}
    (hNext : ∀ start, line + gap ≤ start → Leads line gap (next start)) :
    Leads line gap (nextLine >>= next) :=
  ⟨fun context hSize => (hNext context.listing.size hSize).onward context hSize⟩

end Leads

/-! ### Steps without code -/

namespace Silent

variable {α : Type}

private theorem modify {change : Context → Context}
    (hStill : ∀ context : Context, (change context).listing = context.listing ∧
      (change context).depth = context.depth) : Silent (modify change : Generating Unit) :=
  ⟨hStill⟩

instance throw (fault : GeneratorFault) : Silent (throw fault : Generating α) :=
  ⟨fun _ => ⟨rfl, rfl⟩⟩

instance tryCatch (action : Generating α) (handler : GeneratorFault → Generating α)
    [hAction : Silent action] [hHandler : ∀ fault, Silent (handler fault)] :
    Silent (tryCatch action handler) where
  still := by
    intro context
    have hFirst := hAction.still context
    change ((ExceptT.tryCatch action handler).run.run context).2.listing = _ ∧
      ((ExceptT.tryCatch action handler).run.run context).2.depth = _
    simp only [ExceptT.tryCatch, ExceptT.run_mk, StateT.run_bind]
    cases hRun : action.run.run context with
    | mk result middle =>
        rw [show StateT.run action context = _ from hRun]
        rw [hRun] at hFirst
        cases result with
        | ok value => exact hFirst
        | error fault =>
            obtain ⟨hListing, hDepth⟩ := (hHandler fault).still middle
            exact ⟨hListing.trans hFirst.1, hDepth.trans hFirst.2⟩

end Silent

instance silent_tidies : Tidies @Silent where
  drop := ⟨.modify fun _ => ⟨rfl, rfl⟩⟩

instance tidyUp_silent : Silent tidyUp :=
  tidyUp_holds.holds

instance takeScratch_silent (count : Nat) : Silent (takeScratch count) := by
  unfold takeScratch
  infer_instance

instance placeIterator_silent (handle : Handle) : Silent (placeIterator handle) := by
  unfold placeIterator
  infer_instance

instance freeLoopCells_silent : Silent freeLoopCells := by
  have hNote : ∀ store, Silent
      (modify fun context => { context with store := store } : Generating Unit) :=
    fun _ => .modify fun _ => ⟨rfl, rfl⟩
  unfold freeLoopCells
  refine .andThen fun context => .andThen fun _ => ?_
  split
  · infer_instance
  · infer_instance

instance silent_frees : Frees @Silent where
  leave := ⟨.modify fun _ => ⟨rfl, rfl⟩⟩
  freeLoopCells := ⟨inferInstance⟩

/-! ### Steps with code -/

variable {line gap : Nat}

private theorem emitAll_leads {block : List Instruction}
    (hBlock : ∀ instruction ∈ block, instruction.LeadsBehind line) :
    Leads line gap (emitAll block) where
  onward := by
    intro context _ hOnward
    refine ⟨?_, hOnward.addAll hBlock⟩
    change context.listing.size ≤ (context.add block).listing.size
    rw [Context.size_add]
    exact Nat.le_add_right _ _

private theorem Straight.leads {block : List Instruction} (hStraight : Straight block) :
    ∀ instruction ∈ block, instruction.LeadsBehind line :=
  fun instruction hInstruction hJump =>
    absurd ((hStraight.plain instruction hInstruction).symm.trans hJump) Bool.false_ne_true

instance (priority := low) leads_of_holds {α : Type} (action : Generating α)
    [hHolds : Holds (@Leads line gap) action] : Leads line gap action :=
  hHolds.holds

instance leads_chains : Chains (@Leads line gap) where
  pure _ := ⟨inferInstance⟩
  get := ⟨inferInstance⟩
  bind _ _ := ⟨inferInstance⟩

private theorem Leads.behind {α : Type} {block : List Instruction} {next : Unit → Generating α}
    (hStraight : Straight block) (hNonempty : block ≠ []) (hNext : Leads line (gap + 1) (next ())) :
    Leads line gap (emitAll block >>= next) := by
  constructor
  intro context hSize hOnward
  have hLength := List.length_pos_iff.mpr hNonempty
  have hMore := Context.size_add context block
  obtain ⟨hMost, hNextOnward⟩ := hNext.onward (context.add block) (by omega)
    (hOnward.addAll hStraight.leads)
  exact ⟨Nat.le_trans (by omega) hMost, hNextOnward⟩

private theorem addJump_leads {opcode : Opcode} {operands : List Int}
    (hPending : (Line.pending opcode operands).LeadsBehind line) :
    Leads line gap (modify fun context => context.addJump opcode operands) where
  onward := by
    intro context _ hOnward
    refine ⟨?_, hOnward.emitJump hPending⟩
    change context.listing.size ≤ (context.listing.emitJump opcode operands).size
    rw [Listing.size_emitJump]
    exact Nat.le_succ _

private theorem emit_jump_leads {start : Nat} (hStart : line < start) :
    Leads line gap (emit (.jump start)) := by
  apply emitAll_leads
  intro instruction hInstruction _
  rw [List.mem_singleton.mp hInstruction]
  exact Int.ofNat_lt.mpr hStart

instance resolveLabel_leads : Leads line gap resolveLabel where
  onward := by
    intro context _ hOnward
    have hResolved := hOnward.resolve context.labels
    have hSize := size_of_resolve context.labels context.listing context.listing.size
    rcases hResolve : context.labels.resolve context.listing context.listing.size with
      ⟨result, labels, listing⟩
    rw [hResolve] at hResolved hSize
    have hNext : ∀ next : Nat → Generating Unit, (nextLine >>= next).run.run context =
        (next context.listing.size).run.run context := fun _ => rfl
    have hGet : ∀ next : Context → Generating Unit,
        (MonadState.get >>= next).run.run context = (next context).run.run context := fun _ => rfl
    rw [resolveLabel, hNext, hGet, hResolve]
    cases result with
    | ok label => exact ⟨Nat.le_of_eq hSize.symm, hResolved⟩
    | error fault => exact ⟨Nat.le_of_eq hSize.symm, hResolved⟩

private theorem Leads.modify {change : Context → Context}
    (hStill : ∀ context : Context, (change context).listing = context.listing) :
    Leads line gap (modify change : Generating Unit) where
  onward := by
    intro context _ hOnward
    change context.listing.size ≤ (change context).listing.size ∧
      (change context).listing.Onward line
    rw [hStill context]
    exact ⟨Nat.le_refl _, hOnward⟩

instance onStore_leads {α : Type} (action : StoreAction α) :
    Holds (@Leads line gap) (onStore action) :=
  ⟨inferInstance⟩

instance leads_saves : Saves (@Leads line gap) where
  emitAll _ := ⟨emitAll_leads (Straight.leads inferInstance)⟩
  notePointer _ := ⟨.modify fun _ => rfl⟩
  forgetPointer := ⟨.modify fun _ => rfl⟩
  unplaced _ := ⟨inferInstance⟩

instance leads_branches : Branches (@Leads line gap) where
  openLabel _ _ := ⟨.modify fun _ => rfl⟩
  jump := ⟨addJump_leads fun _ hTarget _ => hTarget⟩
  jumpIfZero _ := ⟨addJump_leads fun _ hTarget _ => hTarget⟩
  resolveLabel := ⟨inferInstance⟩
  descend := ⟨.modify fun _ => rfl⟩
  ascend := ⟨.modify fun _ => rfl⟩
  tidyUp := ⟨inferInstance⟩

instance leads_caches : Caches (@Leads line gap) where
  evict := evict_holds
  held _ := ⟨inferInstance⟩

instance leads_borrows : Borrows (@Leads line gap) where
  leave := ⟨.modify fun _ => rfl⟩
  freeLoopCells := ⟨inferInstance⟩
  takeScratch _ := ⟨inferInstance⟩

/-! ### Calculations and loops -/

instance generalProduct_leads (left right : Operand) :
    Leads line gap (generalProduct left right) := by
  unfold generalProduct
  refine .andThen fun first => .andThen fun second => .andThen fun product =>
    .andThen fun cell => .behind (.cons _ _) (List.cons_ne_nil _ _) (.andThen fun _ =>
      .of_nextLine fun start hStart => ?_)
  have hLoop : Leads line (gap + 1) (emitAll (productLoop start first second product)) := by
    apply emitAll_leads
    intro instruction hInstruction hJump
    have hTarget := Context.targets_productLoop instruction hInstruction hJump
    omega
  infer_instance

instance selfQuotient_leads (operand : Operand) (remainder : Bool) :
    Leads line gap (selfQuotient operand remainder) := by
  unfold selfQuotient
  refine .andThen fun register => ?_
  split
  · infer_instance
  · refine .of_nextLine fun start hStart => ?_
    have hBranch : Leads line gap (emitAll
        [.branch .jzero register (start + 3), .unary .zero register, .unary .inc register]) := by
      apply emitAll_leads
      refine List.forall_mem_cons.mpr ⟨fun _ => ?_, Straight.leads inferInstance⟩
      simp only [Instruction.branch]
      omega
    infer_instance

instance generalQuotient_leads (left right : Operand) (remainder : Bool) :
    Leads line gap (generalQuotient left right remainder) := by
  unfold generalQuotient
  refine .andThen fun rest => .andThen fun divisor => .andThen fun quotient =>
    .andThen fun count => .andThen fun cells => .andThen fun _ => .andThen fun _ =>
      .of_nextLine fun start hStart => ?_
  have hLoop : Leads line gap (emitAll (divisionLoop start rest divisor quotient count)) := by
    apply emitAll_leads
    intro instruction hInstruction hJump
    have hTarget := Context.targets_divisionLoop instruction hInstruction hJump
    omega
  infer_instance

instance leads_commands : Commands (@Leads line gap) where
  generalProduct _ _ := ⟨inferInstance⟩
  selfQuotient _ _ := ⟨inferInstance⟩
  generalQuotient _ _ _ := ⟨inferInstance⟩
  refuse _ _ := ⟨inferInstance⟩
  resolveElement _ _ _ := ⟨inferInstance⟩
  enter _ := ⟨.modify fun _ => rfl⟩
  placeIterator _ := ⟨inferInstance⟩
  deepen := ⟨.modify fun _ => rfl⟩

private theorem stepLoop_leads (cells : LoopCells) (direction : Direction) {start : Nat}
    (hStart : line < start) : Leads line gap (stepLoop cells direction start) := by
  unfold stepLoop
  have hStep : Stays (if direction = .down then .dec else .inc) := by
    split
    · infer_instance
    · infer_instance
  have hBack : ∀ register : Int, Leads line gap (emitAll
      [.unary .dec register, .unary .store register, .jump start]) := by
    intro register
    apply emitAll_leads
    refine List.forall_mem_cons.mpr ⟨fun hJump => absurd hJump Bool.false_ne_true,
      List.forall_mem_cons.mpr ⟨fun hJump => absurd hJump Bool.false_ne_true,
        List.forall_mem_singleton.mpr fun _ => ?_⟩⟩
    exact Int.ofNat_lt.mpr hStart
  refine .andThen fun register => .andThen fun _ => .andThen fun _ => ?_
  infer_instance

end Generating

namespace Command

/-- The code of a command in front of its bodies, and of a WHILE loop in front of the loop. -/
def front : Command → Generating Unit
  | .assign _ target value => Generating.assign target value
  | .read _ target => Generating.readInput target
  | .write _ value => Generating.writeOutput value
  | .skip _ => return
  | .ifThen _ condition _ | .ifElse _ condition _ _ => Generating.testCondition condition
  | .whileLoop .. => Generating.clearCache
  | .forLoop span iterator first last direction _ => do
      let _ ← Generating.openLoop span.first iterator first last direction

end Command

namespace Generating

/-- A command that adds no jump which leads back to a line or before it, once a line stands behind
that line: one that stood there before, or one of its own in front of its bodies. -/
structure Opens (line : Nat) (command : Command) : Prop where
  leads : Leads line 1 (compileCommand command)
  onward : ∀ context : Context, line ≤ context.listing.size → context.listing.Onward line →
    line < (command.front.run.run context).2.listing.size →
    line < ((compileCommand command).run.run context).2.listing.size ∧
      ((compileCommand command).run.run context).2.listing.Onward line

namespace Opens

variable {line : Nat} {command : Command}

private theorem of_front (hCompile : compileCommand command = command.front)
    (hFront : ∀ gap, Leads line gap command.front) : Opens line command where
  leads := by
    rw [hCompile]
    exact hFront 1
  onward := by
    intro context hSize hOnward hCode
    rw [hCompile]
    exact ⟨hCode, ((hFront 0).onward context hSize hOnward).2⟩

/-- A command with code behind its front. -/
theorem of_bind {α : Type} (action : Generating α) {next : α → Generating Unit}
    (hCompile : compileCommand command = action >>= next)
    (hFront : ∀ context : Context,
      (action.run.run context).2.listing = (command.front.run.run context).2.listing)
    (hAction : ∀ gap, Leads line gap action) (hNext : ∀ value, Leads line 1 (next value)) :
    Opens line command where
  leads := by
    have hFirst := hAction 1
    rw [hCompile]
    exact .andThen hNext
  onward := by
    intro context hSize hOnward hCode
    have hFirst := ((hAction 0).onward context hSize hOnward).2
    rw [← hFront context] at hCode
    rw [hCompile]
    simp only [ExceptT.run_bind, StateT.run_bind]
    cases hRun : action.run.run context with
    | mk result middle =>
        rw [hRun] at hFirst hCode
        cases result with
        | ok value =>
            obtain ⟨hMore, hSecond⟩ := (hNext value).onward middle hCode hFirst
            exact ⟨Nat.lt_of_lt_of_le hCode hMore, hSecond⟩
        | error fault => exact ⟨hCode, hFirst⟩

end Opens

variable {line : Nat}

mutual

theorem compileCommand_opens (command : Command) : Opens line command := by
  cases command with
  | assign span target value =>
      exact .of_front (by rw [compileCommand]; rfl) fun _ => (assign_holds _ _).holds
  | read span target =>
      exact .of_front (by rw [compileCommand]; rfl) fun _ => (readInput_holds _).holds
  | write span value =>
      exact .of_front (by rw [compileCommand]; rfl) fun _ => (writeOutput_holds _).holds
  | skip span => exact .of_front (by rw [compileCommand]; rfl) fun _ => .silent (pure ())
  | ifThen span condition body =>
      have hBody : Holds (@Leads line 1) (compileCommands body) := ⟨compileCommands_leads body⟩
      refine .of_bind (testCondition condition) (by rw [compileCommand]) (fun _ => rfl)
        inferInstance fun _ => ?_
      infer_instance
  | ifElse span condition body orElse =>
      have hBody : Holds (@Leads line 1) (compileCommands body) := ⟨compileCommands_leads body⟩
      have hOrElse : Holds (@Leads line 1) (compileCommands orElse) :=
        ⟨compileCommands_leads orElse⟩
      refine .of_bind (testCondition condition) (by rw [compileCommand]) (fun _ => rfl)
        inferInstance fun _ => (@nested_holds _ _ _ _ (.andThen fun _ => .andThen fun _ =>
          .andThen fun leave => .andThen fun _ => .andThen fun _ => ?_)).holds
      infer_instance
  | whileLoop span condition body =>
      have hBody : Holds (@Leads line 1) (compileCommands body) := ⟨compileCommands_leads body⟩
      refine .of_bind clearCache (by rw [compileCommand]) (fun _ => rfl) inferInstance fun _ =>
        .andThen fun _ => .of_nextLine fun start hStart => ?_
      have hBack : Holds (@Leads line 1) (emit (.jump start)) := ⟨emit_jump_leads hStart⟩
      refine (@nested_holds _ _ _ _ (.andThen fun _ => .andThen fun _ => ?_)).holds
      infer_instance
  | forLoop span iterator first last direction body =>
      have hBody : Holds (@Leads line 1) (compileCommands body) := ⟨compileCommands_leads body⟩
      refine .of_bind (openLoop span.first iterator first last direction) (by rw [compileCommand])
        (fun context => ?_) inferInstance fun cells =>
          .andThen fun _ => .andThen fun _ => .of_nextLine fun start hStart => ?_
      · simp only [Command.front, ExceptT.run_bind, StateT.run_bind]
        rcases (openLoop span.first iterator first last direction).run.run context with ⟨_ | _, _⟩
        · rfl
        · rfl
      · have hBack : Holds (@Leads line 1) (stepLoop cells direction start) :=
          ⟨stepLoop_leads cells _ hStart⟩
        refine (@nested_holds _ _ _ _ (.andThen fun _ => .andThen fun _ => .andThen fun _ => ?_)).holds
        infer_instance

theorem compileCommands_leads (commands : List Command) :
    Leads line 1 (compileCommands commands) := by
  cases commands with
  | nil => unfold compileCommands; infer_instance
  | cons command rest =>
      have hCommand := (compileCommand_opens command).leads
      have hRest := compileCommands_leads rest
      unfold compileCommands
      infer_instance

end

end Generating

/-! ### Code -/

def LeadsOn (code : List Instruction) (line : Nat) : Prop :=
  ∀ place instruction, (line : Int) ≤ place → instructionAt code place = some instruction →
    instruction.LeadsBehind line

namespace LeadsOn

variable {code : List Instruction} {line : Nat}

private theorem of_step (hLeads : LeadsOn code line) {first next : Int} {before after : Snapshot}
    {instruction : Instruction} (hFirst : line ≤ first)
    (hAt : instructionAt code first = some instruction)
    (hStep : before.step? first instruction = some (next, after)) : line < next := by
  rcases Snapshot.step?_line hStep with hNext | ⟨hJump, hNext⟩
  · omega
  · rw [hNext]
    exact hLeads first instruction hFirst hAt hJump

private theorem of_runs (hLeads : LeadsOn code line) {steps : Nat} {first last : Int}
    {before after : Snapshot} (hFirst : line < first)
    (hRuns : Runs code steps first before last after) : line < last := by
  induction hRuns with
  | refl => exact hFirst
  | step hAt hStep _ inductionHypothesis =>
      exact inductionHypothesis (hLeads.of_step (Int.le_of_lt hFirst) hAt hStep)

theorem eq_of_runs (hLeads : LeadsOn code line) {steps : Nat} {start finish : Snapshot}
    (hRuns : Runs code steps line start line finish) : start = finish := by
  cases hRuns with
  | refl => rfl
  | step hAt hStep hRest =>
      have hBehind := hLeads.of_runs (hLeads.of_step (Int.le_refl _) hAt hStep) hRest
      exact absurd hBehind (Int.lt_irrefl _)

end LeadsOn

namespace Context

namespace Generates

variable {options : GeneratorOptions} {program : Program} {opened compiled after start : Context}
  {code : List Instruction} {line : Nat} {command : Command} {rest : List Command}

private theorem leadsOn_of_onward (hGenerates : Generates options program opened compiled after)
    (hDecode : after.listing.decode = .ok code) (hOnward : after.listing.Onward line) :
    LeadsOn code line := by
  intro place instruction hPlace hAt
  rw [instructionAt, if_neg (by omega), hGenerates.code_eq hDecode, List.getElem?_map] at hAt
  obtain ⟨found, hFound, rfl⟩ := Option.map_eq_some_iff.mp hAt
  obtain ⟨opcode, operands, rfl, -⟩ := hGenerates.ready (List.mem_of_getElem? hFound)
  rw [Array.getElem?_toList] at hFound
  exact hOnward place.toNat _ (by omega) hFound

/-- From the first line of a command that adds code in front of its bodies, no jump leads back to
that line or before it. -/
theorem leadsOn (hGenerates : Generates options program opened compiled after)
    (hDecode : after.listing.decode = .ok code)
    (hRest : (Generating.compileCommands (command :: rest)).run.run start = (.ok (), compiled))
    (hCode : start.listing.size < (command.front.run.run start).2.listing.size) :
    LeadsOn code start.listing.size := by
  obtain ⟨first, settled, hFirst, hSettle, hRest⟩ :=
    Generating.exists_of_compileCommands_cons hRest
  have hNone : start.listing.Onward start.listing.size := by
    intro index line hIndex hLine
    have hBound : index < start.listing.size := (Array.getElem?_eq_some_iff.mp hLine).1
    omega
  obtain ⟨hFront, hCommand⟩ := (Generating.compileCommand_opens command).onward start
    (Nat.le_refl _) hNone hCode
  have hSettled := (Generating.tidyUp_silent.still first).1
  rw [hFirst] at hFront hCommand
  rw [hSettle] at hSettled
  rw [← hSettled] at hFront hCommand
  have hAll := ((Generating.compileCommands_leads rest).onward settled hFront hCommand).2
  rw [hRest] at hAll
  apply hGenerates.leadsOn_of_onward hDecode
  rw [hGenerates.result]
  exact hAll.addAll (List.forall_mem_singleton.mpr fun hJump => absurd hJump (by decide))

end Generates

end Context

end RegisterCompiler
