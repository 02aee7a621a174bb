/-
The code of simple commands.

Writing a register to the target of a command and recording what is then known does to a
machine what writing the target does to a state.  An assignment computes the register,
a READ gets it from the input, and a WRITE puts one on the output.
-/

import RegisterCompiler.Proofs.Generator.Simulation

set_option autoImplicit false

namespace RegisterCompiler

open Generating (Ensures)

namespace SourceState

private theorem scalars_of_write?_element {state last : SourceState} {bases : Bases} {scope : Scope}
    {target : Reference} {index : Index} (hIndex : target.index = some index) {value : Nat}
    (hWrite : state.write? bases scope target value = some last) :
    last.scalars = state.scalars := by
  rw [write?, hIndex] at hWrite
  obtain ⟨address, -, rfl⟩ := Option.map_eq_some_iff.mp hWrite
  rfl

private theorem scalars_of_write?_of_ne {state last : SourceState} {bases : Bases} {scope : Scope}
    {target : Reference} {value : Nat}
    (hWrite : state.write? bases scope target value = some last) {name : String}
    (hOther : target.index = none → name ≠ target.name) :
    last.scalars name = state.scalars name := by
  cases hIndex : target.index with
  | some index => rw [scalars_of_write?_element hIndex hWrite]
  | none =>
      rw [write?, hIndex] at hWrite
      simp only at hWrite
      split at hWrite
      · rw [← Option.some.inj hWrite]
      · rw [← Option.some.inj hWrite]
        exact Function.update_of_ne (hOther hIndex) _ _

private theorem scalars_of_ofWrite {state last : SourceState} {bases : Bases} {scope : Scope}
    {target : Reference} {value : Nat}
    (hRun : Outcome.ofWrite (state.write? bases scope target value) = .finished last)
    {name : String} (hOther : target.index = none → name ≠ target.name) :
    last.scalars name = state.scalars name := by
  cases hWrite : state.write? bases scope target value with
  | none =>
      rw [hWrite] at hRun
      contradiction
  | some written =>
      rw [hWrite] at hRun
      cases hRun
      exact scalars_of_write?_of_ne hWrite hOther

/-- Writing a scalar that is no loop variable. -/
theorem write?_scalar {state : SourceState} {bases : Bases} {scope : Scope} {target : Reference}
    (hPlain : target.index = none) (hFree : scope.lookup target.name = none) (value : Nat) :
    state.write? bases scope target value =
      some { state with scalars := Function.update state.scalars target.name (some value) } := by
  rw [write?, hPlain]
  simp [hFree]

end SourceState

namespace Context

variable {context : Context}

/-! ### Writing targets -/

/-- Writing an operand does to a picture what writing the target does to the state. -/
theorem Targets.write? {bases : Bases} {target : Reference} {operand : Operand}
    (hTargets : context.Targets bases target operand) {scope : Scope}
    (hScoped : context.Scoped scope) {state last : SourceState}
    (hKnows : context.Knows (state.valuation scope).scalar) (scratch : Address → Option Nat)
    {value : Nat} (hWrite : state.write? bases scope target value = some last) (register : Int) :
    ∃ written, operand.write? ((state.picture scope scratch).hold register value) value =
      some written ∧ last.picture scope scratch = written.dropAll := by
  cases hTargets with
  | @scalar kind place hPlain hName hDeclared hKind =>
      have hFree := hScoped.lookup_eq_none hDeclared hKind
      rw [SourceState.write?_scalar hPlain hFree] at hWrite
      obtain rfl := Option.some.inj hWrite
      refine ⟨_, rfl, ?_⟩
      have hScalar : ∀ name, (scope.lookup name).or
          (Function.update state.scalars target.name (some value) name) =
            Function.update (fun name => (scope.lookup name).or (state.scalars name)) target.name
              (some value) name := by
        intro name
        by_cases hSame : name = target.name
        · rw [hSame, Function.update_self, Function.update_self, hFree]
          rfl
        · rw [Function.update_of_ne hSame, Function.update_of_ne hSame]
      simp only [SourceState.picture, SourceState.valuation, Picture.setScalar, Picture.dropAll,
        Picture.hold, hName, hScalar]
  | @element index _ hIndex hDenotes =>
      rw [SourceState.write?, hIndex] at hWrite
      obtain ⟨address, hAddress, rfl⟩ := Option.map_eq_some_iff.mp hWrite
      exact ⟨_, (hDenotes.write _ hKnows value).trans
        (Option.map_eq_some_iff.mpr ⟨address, hAddress, rfl⟩), rfl⟩

private theorem Targets.resembles_learned {bases : Bases} {target : Reference} {operand : Operand}
    (hTargets : context.Targets bases target operand) (known : Option Nat) :
    context.setting.Resembles (operand.learned context.setting known) := by
  cases hTargets with
  | scalar hPlain hName hDeclared hKind => rfl
  | element hIndex hDenotes =>
      rw [hDenotes.learned]
      exact .refl _

/-- What is known about another name than the target was known before. -/
theorem Targets.known_learned {bases : Bases} {target : Reference} {operand : Operand}
    (hTargets : context.Targets bases target operand) {learned : Option Nat} {handle : Handle}
    {number : Int}
    (hKnown : (operand.learned context.setting learned).known handle = some number) :
    (context.setting.known handle = some number ∧
      ∀ name kind, context.setting.declared name = some (kind, .value handle) →
        target.index = none → name ≠ target.name) ∨
      ∃ value, learned = some value ∧ number = value ∧ target.index = none ∧
        ∃ kind, context.setting.declared target.name = some (kind, .value handle) ∧
          kind ≠ .iterator := by
  cases hTargets with
  | @scalar kind place hPlain hName hDeclared hKind =>
      simp only [Operand.learned, Setting.learn, Function.update_apply] at hKnown
      split at hKnown
      · rename_i hSame
        obtain ⟨value, hValue, rfl⟩ := Option.map_eq_some_iff.mp hKnown
        rw [hSame]
        exact .inr ⟨value, hValue, rfl, hPlain, kind, hDeclared, hKind⟩
      · rename_i hDifferent
        refine .inl ⟨hKnown, ?_⟩
        rintro name otherKind hOther - rfl
        rw [hDeclared] at hOther
        cases hOther
        exact hDifferent rfl
  | element hIndex hDenotes =>
      rw [hDenotes.learned] at hKnown
      refine .inl ⟨hKnown, ?_⟩
      intro name kind _ hNone
      rw [hIndex] at hNone
      contradiction

theorem Targets.congr {after : Context} {bases : Bases} {target : Reference} {operand : Operand}
    (hTargets : context.Targets bases target operand) (hWorks : Works context after) :
    after.Targets bases target operand := by
  have hKnows : ∀ scalar, after.Knows scalar → context.Knows scalar := by
    intro scalar hAfter
    unfold Knows at hAfter ⊢
    rw [hWorks.quiet.depth, hWorks.setting] at hAfter
    exact hAfter
  cases hTargets with
  | scalar hPlain hName hDeclared hKind =>
      exact .scalar hPlain hName (by rw [hWorks.setting]; exact hDeclared) hKind
  | element hIndex hDenotes =>
      exact .element hIndex ⟨fun picture hAfter => hDenotes.read picture (hKnows _ hAfter),
        fun picture hAfter => hDenotes.write picture (hKnows _ hAfter), hDenotes.isVariable,
        hDenotes.isElement⟩

theorem Targets.isVariable {bases : Bases} {target : Reference} {operand : Operand}
    (hTargets : context.Targets bases target operand) (cell : ScalarCell)
    (hScalar : operand = .scalar cell) : cell.IsVariable context.setting := by
  cases hTargets with
  | @scalar kind place hPlain hName hDeclared hKind =>
      cases hScalar
      exact ⟨kind, by rw [hName]; exact hDeclared, hKind⟩
  | element hIndex hDenotes => exact absurd hScalar (hDenotes.isElement cell)

theorem Targets.constant? {bases : Bases} {target : Reference} {operand : Operand}
    (hTargets : context.Targets bases target operand) : operand.constant? = none := by
  cases hTargets with
  | scalar hPlain hName hDeclared hKind => rfl
  | element hIndex hDenotes => exact hDenotes.isVariable

structure Delivers (before after : Context) (bases : Bases) (target : Reference) (register : Int)
    (learned : Option Nat) : Prop where
  advances : Advances before after
  cells : before.setting.Resembles after.setting
  forgets : 0 < before.depth → ∀ handle number, after.setting.known handle = some number →
    before.setting.known handle = some number ∧
      ∀ name kind, before.setting.declared name = some (kind, .value handle) →
        target.index = none → name ≠ target.name
  follows : ∀ scope, before.Scoped scope → ∀ (state last : SourceState) scratch value,
    before.Knows (state.valuation scope).scalar →
    (∀ number, learned = some number → number = value) →
    state.write? bases scope target value = some last →
      after.Knows (last.valuation scope).scalar ∧
      Reaches before after (before.Shows ((state.picture scope scratch).hold register value))
        (after.Shows (last.picture scope scratch))

private theorem deliver_ensures (hSound : context.Sound) {register : Int}
    (hHolding : context.Holding [register]) {bases : Bases} {target : Reference}
    {operand : Operand} (hTargets : context.Targets bases target operand)
    (hPlaced : operand.Placed context.setting) (learned : Option Nat) (text : String) :
    Ensures (do
      Generating.storeOperand operand register
      Generating.learnValue operand learned text) context fun _ after =>
        Delivers context after bases target register learned := by
  refine .bind (storeOperand_ensures hSound hHolding (by decide) (by simp) hPlaced
    hTargets.constant?) ?_
  intro _ stored hStored
  have hVariable : ∀ cell, operand = .scalar cell → cell.IsVariable stored.setting := by
    rw [hStored.setting]
    exact hTargets.isVariable
  refine (learnValue_ensures hStored.sound hVariable learned text).mono ?_
  rintro - after ⟨hLearned, hSetting, hReaches⟩
  rw [hStored.setting, hStored.quiet.depth] at hSetting
  refine ⟨hStored.toAdvances.trans hLearned, ?_, ?_, ?_⟩
  · rw [hSetting]
    exact hTargets.resembles_learned _
  · intro hDepth handle number hKnown
    rw [hSetting, if_neg (by omega)] at hKnown
    rcases hTargets.known_learned hKnown with hOld | ⟨value, hNone, -⟩
    · exact hOld
    · contradiction
  · intro scope hScoped state last scratch value hKnows hValue hWrite
    constructor
    · intro hDepth name handle number hDeclared hKnown
      rw [(hStored.toAdvances.trans hLearned).quiet.depth] at hDepth
      have hSame : context.setting.Resembles after.setting := by
        rw [hSetting]
        exact hTargets.resembles_learned _
      rw [hSame.declared] at hDeclared
      have hFree := hScoped.lookup_eq_none hDeclared (by decide)
      rw [hSetting, if_pos hDepth] at hKnown
      rcases hTargets.known_learned hKnown with ⟨hOld, hOther⟩ | ⟨found, hFound, rfl, hPlain, kind,
        hTarget, hKind⟩
      · have hBefore := hKnows hDepth name handle number hDeclared hOld
        simp only [SourceState.valuation, hFree, Option.none_or] at hBefore ⊢
        rw [SourceState.scalars_of_write?_of_ne hWrite (hOther name .scalar hDeclared)]
        exact hBefore
      · have hName : name = target.name := by
          have hFirst := (hSound.store.cells name _ _ hDeclared).1
          rw [(hSound.store.cells target.name _ _ hTarget).1] at hFirst
          exact (Option.some.inj hFirst).symm
        subst hName
        rw [SourceState.write?_scalar hPlain hFree] at hWrite
        obtain rfl := Option.some.inj hWrite
        simp only [SourceState.valuation, hFree, Option.none_or, Function.update_self,
          Int.toNat_natCast]
        rw [hValue found hFound]
    · obtain ⟨written, hWritten, hPicture⟩ :=
        hTargets.write? hScoped hKnows scratch hWrite register
      refine (hStored.reaches _ _ ⟨value, written, Picture.held_hold_self _ _ _, hWritten,
        rfl⟩).trans ?_ hLearned.grows
      rw [hPicture]
      exact hReaches _

/-- Computing a register and delivering it compiles a command that writes its target. -/
theorem Delivers.compiles {before after : Context} {bases : Bases} {target : Reference}
    {register : Int} {learned : Option Nat} {behaviour : Behaviour} (hWorks : Works before context)
    (hDelivers : Delivers context after bases target register learned)
    (hSpares : ∀ name, (target.index = none → name ≠ target.name) → behaviour.Spares name)
    (hFollows : ∀ scope, before.Scoped scope → ∀ blueprint, after.draft.FilledBy blueprint →
      ∀ bound state scratch start, before.Knows (state.valuation scope).scalar →
        before.Shows (state.picture scope scratch) start →
        Follows blueprint bound before.listing.size start after.listing.size
          (fun last finish => after.Knows (last.valuation scope).scalar ∧
            after.Shows (last.picture scope scratch) finish) (behaviour bound scope state)) :
    Compiles before after behaviour where
  extended := hWorks.extends.trans (.of_advances hDelivers.advances hDelivers.cells)
  labels := hDelivers.advances.quiet.labels.trans hWorks.quiet.labels
  depth := hDelivers.advances.quiet.depth.trans hWorks.quiet.depth
  loops := hDelivers.advances.quiet.loops.trans hWorks.quiet.loops
  forgets := by
    intro hDepth
    have hKnown := hDelivers.forgets (by rw [hWorks.quiet.depth]; exact hDepth)
    rw [hWorks.setting] at hKnown
    refine ⟨fun handle number hHere => (hKnown handle number hHere).1, ?_⟩
    intro name handle number hDeclared hHere
    exact hSpares name ((hKnown handle number hHere).2 name .scalar hDeclared)
  follows := hFollows

theorem assign_ensures (hTidy : context.Tidy) {bases : Bases}
    (hBases : context.setting.HasBases bases) (span : Source.Span) (target : Reference)
    (value : Expression) :
    Ensures (Generating.assign target value) context fun _ after =>
      Compiles context after fun bound scope =>
        Command.execute bases bound scope (.assign span target value) := by
  refine .bind (resolveTarget_ensures hTidy.toSound hBases target) ?_
  rintro operand one ⟨hFinds, hTargets⟩
  refine .bind (resolveExpression_ensures hFinds.sound (by rw [hFinds.setting]; exact hBases)
    value) ?_
  rintro calculation two ⟨hResolved, hRegisters, hPlaced, hValue⟩
  have hHolding : two.Holding [] := (hTidy.holding.congr hFinds.registers).congr hRegisters
  refine .bind (calculate_ensures hResolved.sound hHolding hPlaced) ?_
  intro register three hTakes
  have hWorks := (hFinds.toWorks.trans hResolved.toWorks).trans hTakes.turns.toWorks
  have hOperand : operand.Placed three.setting := by
    rw [hTakes.turns.setting, hResolved.setting]
    exact hFinds.placed
  refine (deliver_ensures hTakes.turns.sound hTakes.holding (hTargets.congr hWorks) hOperand
    calculation.constant? value.text).mono ?_
  intro _ after hDelivers
  refine hDelivers.compiles hWorks ?_ ?_
  · intro name hOther bound scope state last hRun
    simp only [Command.execute] at hRun
    split at hRun
    · contradiction
    · exact SourceState.scalars_of_ofWrite hRun hOther
  · intro scope hScoped blueprint hFilled bound state scratch start hKnows hShows
    unfold Command.execute
    cases hNumber : value.value? bases (state.valuation scope) with
    | none => trivial
    | some number =>
        cases hWrite : state.write? bases scope target number with
        | none =>
            simp only [hWrite]
            trivial
        | some written =>
            have hContent : calculation.value? (state.picture scope scratch) = some number := by
              rw [hValue _ (hKnows.congr hFinds.toWorks)]
              exact hNumber
            have hConstant : ∀ found, calculation.constant? = some found → found = number := by
              intro found hFound
              rw [Calculation.value?_of_constant? hFound] at hContent
              exact Option.some.inj hContent
            obtain ⟨hKnowsAfter, hReaches⟩ := hDelivers.follows scope
              (hScoped.resembles (.of_eq hWorks.setting)) state written scratch number
              (hKnows.congr hWorks) hConstant hWrite
            have hTaken := (hFinds.toTurns.after_still hResolved).after_still hTakes.turns
            obtain ⟨steps, finish, hPasses, hFinish⟩ := ((hTaken.reaches _ _ ⟨number, hContent,
              rfl⟩).trans hReaches hDelivers.advances.grows) blueprint hFilled start hShows
            simp only [hWrite]
            exact ⟨steps, finish, hPasses, hKnowsAfter, hFinish⟩

/-! ### Reading and writing numbers -/

/-- A number that GET finds gets into a held register. -/
theorem Reaches.get (hSound : context.Sound) {register : Int}
    (hHolds : context.store.Holds register) {number : Nat} {rest : Option Feed}
    {picture : Picture} (hInput : takeNumber picture.input = (.ok number, rest)) :
    Reaches context (context.add [.unary .get register]) (context.Shows picture)
      (context.Shows ({ picture with input := rest }.hold register number)) := by
  have hReady : ∀ instruction ∈ [Instruction.unary .get register],
      instruction.Ready context.options.registers (context.listing.size + 1) := by
    intro instruction hInstruction
    rw [List.mem_singleton.mp hInstruction]
    exact ready_of_allocatable hSound (hSound.store.allocatable_of_holds hHolds) rfl _
  refine .add hSound hReady (fun _ hShows => ⟨picture, hShows⟩) ?_
  intro snapshot hShows
  have hTaken : Coherent context.store context.pointer { picture with input := rest }
      { snapshot with input := rest } := { hShows with input := rfl }
  refine ⟨_, ?_, hTaken.setHeld hSound.store.toLinked hHolds number⟩
  have hFeed : takeNumber snapshot.input = (.ok number, rest) := by
    rw [hShows.input]
    exact hInput
  simp only [Snapshot.runBlock, Snapshot.effect?, Instruction.unary, hFeed, Option.bind_some]

theorem readInput_ensures (hTidy : context.Tidy) {bases : Bases}
    (hBases : context.setting.HasBases bases) (span : Source.Span) (target : Reference) :
    Ensures (Generating.readInput target) context fun _ after =>
      Compiles context after fun bound scope =>
        Command.execute bases bound scope (.read span target) := by
  refine .bind (resolveTarget_ensures hTidy.toSound hBases target) ?_
  rintro operand one ⟨hFinds, hTargets⟩
  refine .bind (acquire_ensures hFinds.sound (hTidy.holding.congr hFinds.registers) (by decide)) ?_
  rintro register two ⟨hTaken, hHeld, -, -⟩
  have hHolds := (hHeld.held register).mp List.mem_cons_self
  have hReady : ∀ instruction ∈ [Instruction.unary .get register],
      instruction.Ready two.options.registers (two.listing.size + 1) := by
    intro instruction hInstruction
    rw [List.mem_singleton.mp hInstruction]
    exact ready_of_allocatable hTaken.sound (hTaken.sound.store.allocatable_of_holds hHolds) rfl _
  have hAdded := Works.add hTaken.sound hReady
  have hFound := hFinds.toTurns.after_still hTaken
  have hWorks := hFound.toWorks.trans hAdded
  have hOperand : operand.Placed (two.add [.unary .get register]).setting := by
    rw [hAdded.setting, hTaken.setting]
    exact hFinds.placed
  refine ensures_emitAll ((deliver_ensures hAdded.sound (hHeld.add _) (hTargets.congr hWorks)
    hOperand none "input").mono ?_)
  intro _ after hDelivers
  refine hDelivers.compiles hWorks ?_ ?_
  · intro name hOther bound scope state last hRun
    simp only [Command.execute] at hRun
    split at hRun
    · contradiction
    · rw [SourceState.scalars_of_ofWrite hRun hOther]
  · intro scope hScoped blueprint hFilled bound state scratch start hKnows hShows
    have hFilledTwo := hDelivers.advances.grows.filledBy hFilled
    simp only [Command.execute]
    cases hTake : takeNumber state.input with
    | mk result rest =>
        cases result with
        | error cause =>
            obtain ⟨steps, arrival, hPasses, hArrival⟩ :=
              hFound.reaches _ _ rfl blueprint (hAdded.grows.filledBy hFilledTwo) start hShows
            refine ⟨steps, _, arrival, hPasses, ⟨register, ?_⟩, ?_, ?_, hArrival.output⟩
            · exact (Listing.embedded_addAll hReady hFilledTwo.listing).head
            · exact safe_add hTaken.sound (List.cons_ne_nil _ _) hFilledTwo hArrival
            · rw [hArrival.input]
              exact hTake
        | ok number =>
            cases hWrite : SourceState.write? { state with input := rest } bases scope target
                number with
            | none =>
                simp only [hWrite]
                trivial
            | some written =>
                obtain ⟨hKnowsAfter, hReaches⟩ := hDelivers.follows scope
                  (hScoped.resembles (.of_eq hWorks.setting)) { state with input := rest } written
                  scratch number (hKnows.congr hWorks) (fun _ hNone => by contradiction) hWrite
                have hInput : takeNumber (state.picture scope scratch).input = (.ok number, rest) :=
                  hTake
                have hGets := (hFound.reaches _ _ rfl).trans
                  (Reaches.get hTaken.sound hHolds hInput) hAdded.grows
                obtain ⟨steps, finish, hPasses, hFinish⟩ :=
                  (hGets.trans hReaches hDelivers.advances.grows) blueprint hFilled start hShows
                simp only [hWrite]
                exact ⟨steps, finish, hPasses, hKnowsAfter, hFinish⟩

theorem writeOutput_ensures (hTidy : context.Tidy) {bases : Bases}
    (hBases : context.setting.HasBases bases) (span : Source.Span) (value : Atom) :
    Ensures (Generating.writeOutput value) context fun _ after =>
      Compiles context after fun bound scope =>
        Command.execute bases bound scope (.write span value) := by
  refine .bind (resolve_ensures hTidy.toSound hBases value) ?_
  rintro operand one ⟨hFinds, hValue⟩
  refine .bind (readOperand_ensures hFinds.sound (hTidy.holding.congr hFinds.registers) (by decide)
    hFinds.placed) ?_
  rintro register two ⟨hRead, hRegister, hReads⟩
  have hReady : ∀ instruction ∈ [Instruction.unary .put register],
      instruction.Ready two.options.registers (two.listing.size + 1) := by
    intro instruction hInstruction
    rw [List.mem_singleton.mp hInstruction]
    exact ready_of_allocatable hRead.sound hRegister rfl _
  have hAdded := Works.add hRead.sound hReady
  have hWorks := (hFinds.toWorks.trans hRead).trans hAdded
  refine .modify ⟨hWorks.extends, hWorks.quiet.labels, hWorks.quiet.depth, hWorks.quiet.loops,
    ?_, ?_⟩
  · intro _
    refine ⟨fun handle number hKnown => by rw [← hWorks.setting]; exact hKnown, ?_⟩
    intro name handle number _ _ bound scope state last hRun
    simp only [Command.execute] at hRun
    split at hRun
    · contradiction
    · cases hRun
      rfl
  · intro scope hScoped blueprint hFilled bound state scratch start hKnows hShows
    simp only [Command.execute]
    cases hNumber : value.value? bases (state.valuation scope) with
    | none => trivial
    | some number =>
        have hContent : operand.value? (state.picture scope scratch) = some number := by
          rw [hValue _ hKnows]
          exact hNumber
        have hPut : Reaches two (two.add [.unary .put register]) (fun snapshot =>
            two.Shows (state.picture scope scratch) snapshot ∧
              snapshot.registers register = number)
            (two.Shows (SourceState.picture { state with output := state.output ++ [number] } scope
              scratch)) := by
          refine .add hRead.sound hReady (fun _ hHere => ⟨_, hHere.1⟩) ?_
          rintro snapshot ⟨hHere, hRegisterValue⟩
          refine ⟨{ snapshot with output := snapshot.output ++ [number] }, ?_, ?_⟩
          · simp only [Snapshot.runBlock, Snapshot.effect?, Instruction.unary, hRegisterValue,
              Option.bind_some]
          · exact { hHere with output := by rw [hHere.output]; rfl }
        obtain ⟨steps, finish, hPasses, hFinish⟩ := (((hFinds.reaches _ _ rfl).trans
          (hReads _ number hContent) hRead.grows).trans hPut hAdded.grows) blueprint hFilled start hShows
        exact ⟨steps, finish, hPasses, hKnows.congr hWorks, hFinish⟩

end Context

end RegisterCompiler
