/-
The code of IF and WHILE.

The body of a construct is compiled between the test and the place where its label
lands.  Both ways to that place bring a machine that shows the same cells, so the code
behind it does not depend on the way.
-/

import RegisterCompiler.Proofs.Generator.Commands

set_option autoImplicit false

namespace RegisterCompiler

open Generating (Ensures)

private theorem Setting.HasBases.resembles {first second : Setting} {bases : Bases}
    (hBases : first.HasBases bases) (hSame : first.Resembles second) : second.HasBases bases := by
  rw [hSame]
  exact hBases

/-! ### Scalars that no command of a construct writes -/

/-- Rounds that leave a scalar as it is. -/
theorem Outcome.repeatWhile_spares {name : String} {test : SourceState → Option Bool}
    {run : SourceState → Outcome}
    (hRun : ∀ state last, run state = .finished last → last.scalars name = state.scalars name)
    (bound : Nat) (state last : SourceState)
    (hFinished : Outcome.repeatWhile test run bound state = .finished last) :
    last.scalars name = state.scalars name := by
  induction bound generalizing state with
  | zero =>
      unfold Outcome.repeatWhile at hFinished
      split at hFinished
      · contradiction
      · cases hFinished
        rfl
      · contradiction
  | succ bound inductionHypothesis =>
      unfold Outcome.repeatWhile at hFinished
      split at hFinished
      · contradiction
      · cases hFinished
        rfl
      · cases hRound : run state with
        | finished between =>
            simp only [hRound, Outcome.andThen] at hFinished
            rw [inductionHypothesis between hFinished, hRun state between hRound]
        | _ =>
            simp only [hRound, Outcome.andThen] at hFinished
            contradiction

namespace Behaviour.Spares

variable {bases : Bases} {body orElse : List Command} {name : String}
  (hBody : Behaviour.Spares (fun bound scope => Command.executeAll bases bound scope body) name)

include hBody

private theorem ifThen (span : Source.Span) (condition : Condition) :
    Behaviour.Spares (fun bound scope =>
      Command.execute bases bound scope (.ifThen span condition body)) name := by
  intro bound scope state last hRun
  simp only [Command.execute] at hRun
  split at hRun
  · contradiction
  · exact hBody bound scope state last hRun
  · cases hRun
    rfl

private theorem ifElse (hOrElse : Behaviour.Spares
      (fun bound scope => Command.executeAll bases bound scope orElse) name)
    (span : Source.Span) (condition : Condition) :
    Behaviour.Spares (fun bound scope =>
      Command.execute bases bound scope (.ifElse span condition body orElse)) name := by
  intro bound scope state last hRun
  simp only [Command.execute] at hRun
  split at hRun
  · contradiction
  · exact hBody bound scope state last hRun
  · exact hOrElse bound scope state last hRun

private theorem whileLoop (span : Source.Span) (condition : Condition) :
    Behaviour.Spares (fun bound scope =>
      Command.execute bases bound scope (.whileLoop span condition body)) name := by
  intro bound scope state last hRun
  simp only [Command.execute] at hRun
  exact Outcome.repeatWhile_spares (hBody bound scope) bound state last hRun

end Behaviour.Spares

namespace Context

variable {context : Context}

/-- A context between two commands: the arrays are placed, and outside all counting loops no
loop cell is used. -/
structure Prepared (context : Context) (bases : Bases) : Prop extends Tidy context where
  bases : context.setting.HasBases bases
  vacant : context.loops = 0 → ∀ address : Address, context.setting.layout.loop.first ≤ address →
    address ≤ context.setting.layout.loop.last → context.setting.owner address = none

theorem Prepared.congr {bases : Bases} (hPrepared : context.Prepared bases) {after : Context}
    (hTidy : after.Tidy) (hSame : context.setting.Resembles after.setting)
    (hLoops : after.loops = context.loops) : after.Prepared bases := by
  refine ⟨hTidy, hPrepared.bases.resembles hSame, ?_⟩
  rw [hSame, hLoops]
  exact hPrepared.vacant

/-- A step that compiles commands wherever it starts. -/
def Renders (bases : Bases) (action : Generating Unit) (behaviour : Behaviour) : Prop :=
  ∀ context : Context, context.Prepared bases →
    Ensures action context fun _ after => Compiles context after behaviour ∧ after.Tidy

def atDepth (context : Context) (depth : Nat) : Context :=
  { context with depth := depth }

theorem Sound.atDepth (hSound : context.Sound) (depth : Nat) : (context.atDepth depth).Sound :=
  ⟨hSound.store, hSound.size, hSound.dynamics, hSound.distinct, hSound.recorded⟩

theorem Tidy.atDepth (hTidy : context.Tidy) (depth : Nat) : (context.atDepth depth).Tidy :=
  ⟨hTidy.toSound.atDepth depth, hTidy.holding.congr rfl⟩

theorem ensures_nested {action : Generating Unit} {post : Unit → Context → Prop}
    (hAction : Ensures action (context.atDepth (context.depth + 1)) fun _ after =>
      post () (after.atDepth (after.depth - 1))) :
    Ensures (Generating.nested action) context post := by
  refine .modify_bind (.bind hAction ?_)
  intro _ after hPost
  exact .modify_bind (.pure hPost)

private theorem Extends.atDepth {before after : Context} {slots : List Nat}
    (hExtends : Extends slots before after) (depth : Nat) :
    Extends slots before (after.atDepth depth) :=
  ⟨hExtends.sound.atDepth depth, hExtends.options, hExtends.placements, hExtends.cells,
    hExtends.grows⟩

theorem Extends.ofDepth {before after : Context} {slots : List Nat} {depth : Nat}
    (hExtends : Extends slots (before.atDepth depth) after) : Extends slots before after :=
  ⟨hExtends.sound, hExtends.options, hExtends.placements, hExtends.cells, hExtends.grows⟩

/-- What is still known after a construct is right behind it. -/
theorem Forgets.knows {before after : Context} {behaviour : Behaviour}
    (hForgets : Forgets before after behaviour) (hCells : before.setting.Resembles after.setting)
    (hDepth : after.depth = before.depth) {scope : Scope} (hScoped : before.Scoped scope)
    {state last : SourceState} (hKnows : before.Knows (state.valuation scope).scalar) {bound : Nat}
    (hRun : behaviour bound scope state = .finished last) :
    after.Knows (last.valuation scope).scalar := by
  intro hOutside name handle number hDeclared hKnown
  rw [hDepth] at hOutside
  rw [hCells.declared] at hDeclared
  have hBefore := hKnows hOutside name handle number hDeclared (hForgets.known _ _ hKnown)
  have hFree := hScoped.lookup_eq_none hDeclared (by decide)
  simp only [SourceState.valuation, hFree, Option.none_or] at hBefore ⊢
  rw [hForgets.spares name handle number hDeclared hKnown bound scope state last hRun]
  exact hBefore

/-- What follows a run up to the end also knows what is left to know. -/
theorem Forgets.follows {before after : Context} {behaviour : Behaviour}
    (hForgets : Forgets before after behaviour) (hCells : before.setting.Resembles after.setting)
    (hDepth : after.depth = before.depth) {scope : Scope} (hScoped : before.Scoped scope)
    {state : SourceState} (hKnows : before.Knows (state.valuation scope).scalar)
    {blueprint : Blueprint} {bound least : Nat} {first last : Int} {start : Snapshot}
    {post : SourceState → Snapshot → Prop}
    (hFollows : Follows blueprint least first start last post (behaviour bound scope state)) :
    Follows blueprint least first start last (fun state finish =>
      after.Knows (state.valuation scope).scalar ∧ post state finish)
      (behaviour bound scope state) := by
  cases hRun : behaviour bound scope state with
  | finished state =>
      rw [hRun] at hFollows
      obtain ⟨steps, finish, hPasses, hPost⟩ := hFollows
      exact ⟨steps, finish, hPasses, hForgets.knows hCells hDepth hScoped hKnows hRun, hPost⟩
  | blocked cause state =>
      rw [hRun] at hFollows
      exact hFollows
  | exhausted state =>
      rw [hRun] at hFollows
      exact hFollows
  | uninitialized => trivial

/-- Code that follows a run on both ways out of a test follows it from before the test. -/
theorem Branches.follows {before tested : Context} {label : Label} {holds? : Picture → Option Bool}
    (hBranches : Branches before tested label holds?) {blueprint : Blueprint}
    (hFilled : tested.draft.FilledBy blueprint) {target : Int}
    (hLands : label.Lands blueprint.code target) {picture : Picture} {start : Snapshot}
    (hShows : before.Shows picture start) {holds : Bool} (hHolds : holds? picture = some holds)
    {least : Nat} {last : Int}
    {post : SourceState → Snapshot → Prop} {outcome : Outcome}
    (hTrue : holds = true → ∀ arrival, tested.Shows picture.dropAll arrival →
      Follows blueprint least tested.listing.size arrival last post outcome)
    (hFalse : holds = false → ∀ arrival, Coherent tested.store none picture.dropAll arrival →
      Follows blueprint least target arrival last post outcome) :
    Follows blueprint least before.listing.size start last post outcome := by
  cases holds with
  | true =>
      obtain ⟨steps, arrival, hPasses, hArrival⟩ :=
        hBranches.holds _ hHolds blueprint hFilled start hShows
      exact ((hTrue rfl arrival hArrival).prepend hPasses).weaken (Nat.le_add_left _ _)
  | false =>
      obtain ⟨steps, arrival, hPasses, hArrival⟩ :=
        hBranches.fails _ hHolds blueprint target hFilled hLands start hShows
      exact ((hFalse rfl arrival hArrival).prepend hPasses).weaken (Nat.le_add_left _ _)

/-- The code of a body inside a construct, where nothing is known. -/
theorem Compiles.followsInside {before after : Context} {behaviour : Behaviour}
    (hCompiles : Compiles before after behaviour) (hInside : 0 < before.depth) {scope : Scope}
    (hScoped : before.Scoped scope) {blueprint : Blueprint}
    (hFilled : after.draft.FilledBy blueprint) (bound : Nat) (state : SourceState)
    (scratch : Address → Option Nat) {start : Snapshot}
    (hShows : before.Shows (state.picture scope scratch) start) {last : Int}
    {post : SourceState → Snapshot → Prop}
    (hEnd : ∀ state arrival, after.Shows (state.picture scope scratch) arrival →
      ∃ steps finish,
        Passes blueprint steps after.listing.size arrival last finish ∧ post state finish) :
    Follows blueprint bound before.listing.size start last post (behaviour bound scope state) := by
  have hFollows := hCompiles.follows scope hScoped blueprint hFilled bound state scratch start
    (fun hOutside => by omega) hShows
  refine hFollows.append ?_
  rintro between arrival ⟨-, hArrival⟩
  exact hEnd between arrival hArrival

structure Settles (before after : Context) (behaviour : Behaviour) : Prop
    extends Compiles before after behaviour where
  tidy : after.Tidy
  flat : after.Flat

theorem Compiles.before_idle {before middle after : Context} {behaviour : Behaviour}
    (hCompiles : Compiles before middle behaviour) (hIdle : Compiles middle after .idle) :
    Compiles before after behaviour := by
  refine (hCompiles.trans hIdle).imp fun bound scope state => ?_
  simp only [Behaviour.andThen]
  cases behaviour bound scope state <;> rfl

private theorem Compiles.before_still {before middle after : Context} {behaviour : Behaviour}
    (hCompiles : Compiles before middle behaviour) (hTurns : Turns middle after Eq) :
    Compiles before after behaviour := by
  refine hCompiles.before_idle (.of_turns (hTurns.mono ?_))
  rintro start finish rfl
  exact ⟨start, rfl, Picture.below_dropAll rfl rfl rfl rfl rfl⟩

theorem Renders.settles {bases : Bases} {action : Generating Unit} {behaviour : Behaviour}
    (hRenders : Renders bases action behaviour) (hPrepared : context.Prepared bases)
    {next : Generating Unit} {post : Unit → Context → Prop}
    (hNext : ∀ after, Settles context after behaviour → Ensures next after post) :
    Ensures (do action; Generating.clearCache; next) context post := by
  refine .bind (hRenders context hPrepared) ?_
  rintro - compiled ⟨hCompiles, hCompiled⟩
  refine .bind (clearCache_ensures hCompiled.toSound) ?_
  rintro - cleared ⟨hCleared, hFlat, hHolding⟩
  exact hNext cleared ⟨hCompiles.before_still hCleared,
    ⟨hCleared.sound, hHolding _ hCompiled.holding⟩, hFlat⟩

/-! ### IF -/

theorem ifThen_ensures {bases : Bases} {body : List Command}
    (hBody : Renders bases (Generating.compileCommands body) fun bound scope =>
      Command.executeAll bases bound scope body)
    (hPrepared : context.Prepared bases) (span : Source.Span) (condition : Condition) :
    Ensures (Generating.compileCommand (.ifThen span condition body)) context fun _ after =>
      Compiles context after fun bound scope =>
        Command.execute bases bound scope (.ifThen span condition body) := by
  rw [Generating.compileCommand]
  refine .bind (testCondition_ensures hPrepared.toTidy hPrepared.bases condition) ?_
  rintro - tested ⟨label, holds?, hBranches, hTested, hMeaning⟩
  refine ensures_nested (hBody.settles (hPrepared.congr (hTested.atDepth (tested.depth + 1))
    (.of_eq hBranches.setting) hBranches.loops) ?_)
  intro cleared hCleared
  have hExtends : Extends (label.slots ++ []) context cleared :=
    (hBranches.extended.trans hCleared.extended.ofDepth).perm fun slot => by simp
  have hLabels : cleared.labels = label :: context.labels :=
    hCleared.labels.trans hBranches.labels
  refine (landHere_ensures hLabels hBranches.slot hExtends fun _ _ => List.not_mem_nil).mono ?_
  rintro - landed ⟨hLanded, hDone⟩
  have hDepth : landed.depth - 1 = context.depth := by
    rw [hLanded.depth, hCleared.depth, ← hBranches.depth]
    rfl
  have hForgets : Forgets context (landed.atDepth (landed.depth - 1)) fun bound scope =>
      Command.execute bases bound scope (.ifThen span condition body) := by
    exact (hCleared.forgets (Nat.succ_pos _)).enclosed hBranches.setting hLanded.setting
      fun name hSpares => .ifThen hSpares span condition
  refine ⟨hDone.atDepth _, hLanded.labels, hDepth,
    hLanded.loops.trans (hCleared.loops.trans hBranches.loops), fun _ => hForgets, ?_⟩
  intro scope hScoped blueprint hFilled bound state scratch start hKnows hShows
  refine hForgets.follows hDone.cells hDepth hScoped hKnows ?_
  obtain ⟨hFilledCleared, hLands⟩ := hLanded.fills blueprint hFilled
  have hHolds := hMeaning (state.picture scope scratch) hKnows
  rw [SourceState.valuation_picture] at hHolds
  change Follows blueprint bound _ _ landed.listing.size _ _
  rw [hLanded.size]
  simp only [Command.execute]
  cases hTest : condition.holds? bases (state.valuation scope) with
  | none => trivial
  | some holds =>
      rw [hTest] at hHolds
      refine hBranches.follows (hCleared.extended.grows.filledBy hFilledCleared) hLands hShows
        hHolds ?_ ?_
      · rintro rfl arrival hArrival
        refine hCleared.followsInside (Nat.succ_pos _)
          (hScoped.resembles (.of_eq hBranches.setting)) hFilledCleared bound state scratch
          hArrival ?_
        exact fun last between hBetween => ⟨0, between, .refl _ _, hLanded.shows hBetween⟩
      · rintro rfl arrival hArrival
        have hSame : tested.setting.Resembles landed.setting :=
          hCleared.extended.cells.trans (.of_eq hLanded.setting)
        have hThere := shows_of_flat hBranches.extended.sound hBranches.flat
          (hLanded.flat hCleared.flat) hSame hArrival
        refine ⟨0, arrival, .refl _ _, ?_⟩
        change Coherent landed.store landed.pointer _ arrival
        rw [hLanded.pointer]
        exact hThere

/-- The way from the end of a first branch: a jump behind the second one, in front of which the
label of the test lands. -/
structure Diverts (before after : Context) (label : Label) (rest : List Label) : Prop where
  store : after.store = before.store
  pointer : after.pointer = none
  labels : after.labels = ⟨.ending, before.listing.size⟩ :: rest
  depth : after.depth = before.depth
  loops : after.loops = before.loops
  leaves : ∀ blueprint target, after.draft.FilledBy blueprint →
    JumpsTo blueprint.code before.listing.size target → ∀ picture start,
      before.Shows picture start → Passes blueprint 1 before.listing.size start target start
  fills : ∀ blueprint, after.draft.FilledBy blueprint →
    before.draft.FilledBy blueprint ∧ label.Lands blueprint.code after.listing.size

theorem divert_ensures {base : Context} {label : Label} {rest : List Label}
    (hLabels : context.labels = label :: rest) (hLow : 0 ≤ label.slot)
    (hExtends : Extends label.slots base context) {next : Generating Unit}
    {post : Unit → Context → Prop}
    (hNext : ∀ after, Diverts context after label rest → Extends [context.listing.size] base after →
      Ensures next after post) :
    Ensures (do
      let leave ← Generating.emitJump .jump []
      Generating.landHere
      Generating.openLabel .ending leave
      next) context post := by
  have hLine := Listing.getElem?_emitJump context.listing .jump []
  have hAdded := Extends.addJump hExtends.sound (Line.waiting_jump context.options.registers)
  have hJumped : (context.addJump .jump []).labels = label :: rest := hLabels
  have hToJump : Extends (label.slots ++ [context.listing.size]) base (context.addJump .jump []) :=
    (hExtends.trans hAdded).perm fun slot => by simp [or_comm]
  refine ensures_emitJump (.bind (landHere_ensures hJumped hLow hToJump ?_) ?_)
  · -- The new jump is behind every line that was open before.
    intro slot hSlot hMem
    have hBelow := hExtends.grows.slot_lt hSlot
    rw [List.mem_singleton.mp hMem] at hBelow
    exact Nat.lt_irrefl _ hBelow
  rintro - landed ⟨hLanded, hLater⟩
  refine .modify_bind (hNext _ ⟨hLanded.store, hLanded.pointer, congrArg _ hLanded.labels,
    hLanded.depth, hLanded.loops, ?_, ?_⟩ (hLater.openLabel _ _))
  · intro blueprint target hFilled hJumps picture start hShows
    obtain ⟨hFilledJump, -⟩ := hLanded.fills blueprint hFilled
    exact .single (.jump start (hFilledJump.listing.jumpAt hLine hJumps fun _ => rfl))
      (safe_addJump hExtends.sound hFilledJump hShows)
  · intro blueprint hFilled
    obtain ⟨hFilledJump, hLands⟩ := hLanded.fills blueprint hFilled
    rw [← hLanded.size] at hLands
    exact ⟨hAdded.grows.filledBy hFilledJump, hLands⟩

/-- The contexts two branches go through: behind the test, behind the first branch, where the
second one starts, behind it, and where both ways meet. -/
structure Chooses (tested first turned second landed : Context) (label : Label)
    (inFirst inSecond : Behaviour) (rest : List Label) : Prop where
  body : Settles (tested.atDepth (tested.depth + 1)) first inFirst
  turns : Diverts first turned label rest
  orElse : Settles turned second inSecond
  lands : Lands second landed ⟨.ending, first.listing.size⟩ rest

namespace Chooses

variable {tested first turned second landed : Context} {label : Label}
  {inFirst inSecond : Behaviour} {rest : List Label}
  (hChooses : Chooses tested first turned second landed label inFirst inSecond rest)

include hChooses

private theorem setting_turned : turned.setting = first.setting := by
  rw [setting, hChooses.turns.store]

private theorem depth_turned : turned.depth = tested.depth + 1 :=
  hChooses.turns.depth.trans hChooses.body.depth

private theorem depth_landed : landed.depth = tested.depth + 1 :=
  hChooses.lands.depth.trans (hChooses.orElse.depth.trans hChooses.depth_turned)

private theorem loops_landed : landed.loops = tested.loops :=
  hChooses.lands.loops.trans (hChooses.orElse.loops.trans
    (hChooses.turns.loops.trans hChooses.body.loops))

private theorem inside_turned : 0 < turned.depth := by
  rw [hChooses.depth_turned]
  exact Nat.succ_pos _

/-- Behind the branches only that is known which both keep. -/
theorem forgets {whole : Behaviour}
    (hSpares : ∀ name, inFirst.Spares name → inSecond.Spares name → whole.Spares name) :
    Forgets tested landed whole := by
  have hBoth := (hChooses.body.forgets (Nat.succ_pos _)).both
    (hChooses.orElse.forgets hChooses.inside_turned) hChooses.body.extended.cells
    hChooses.setting_turned hSpares
  exact hBoth.enclosed rfl hChooses.lands.setting fun _ hSpares => hSpares

variable {blueprint : Blueprint} (hFilled : landed.draft.FilledBy blueprint)

include hFilled

private theorem filled_second : second.draft.FilledBy blueprint :=
  (hChooses.lands.fills blueprint hFilled).1

private theorem filled_turned : turned.draft.FilledBy blueprint :=
  hChooses.orElse.extended.grows.filledBy (hChooses.filled_second hFilled)

private theorem filled_first : first.draft.FilledBy blueprint :=
  (hChooses.turns.fills blueprint (hChooses.filled_turned hFilled)).1

private theorem filled_tested : tested.draft.FilledBy blueprint :=
  hChooses.body.extended.grows.filledBy (hChooses.filled_first hFilled)

variable {scope : Scope} {scratch : Address → Option Nat} {state : SourceState}

/-- From the start of the first branch to the end of both. -/
theorem follows_first (hScoped : tested.Scoped scope) (bound : Nat) {start : Snapshot}
    (hShows : tested.Shows (state.picture scope scratch) start) :
    Follows blueprint bound tested.listing.size start second.listing.size
      (fun last finish => landed.Shows (last.picture scope scratch) finish)
      (inFirst bound scope state) := by
  refine hChooses.body.followsInside (Nat.succ_pos _) hScoped (hChooses.filled_first hFilled)
    bound state scratch hShows ?_
  intro last between hBetween
  have hLeaves := hChooses.turns.leaves blueprint _ (hChooses.filled_turned hFilled)
    ((hChooses.lands.fills blueprint hFilled).2 _ List.mem_cons_self) _ between hBetween
  have hSame : first.setting.Resembles landed.setting := by
    rw [hChooses.lands.setting, ← hChooses.setting_turned]
    exact hChooses.orElse.extended.cells
  have hThere := shows_of_flat hChooses.body.tidy.toSound hChooses.body.flat
    (hChooses.lands.flat hChooses.orElse.flat) hSame hBetween
  rw [← hChooses.lands.pointer] at hThere
  exact ⟨1, between, hLeaves, hThere⟩

/-- From the start of the second branch, where the pointer is not known, to the end of both. -/
theorem follows_second (hSound : tested.Sound) (hFlat : tested.Flat)
    (hScoped : tested.Scoped scope) (bound : Nat) {start : Snapshot}
    (hShows : Coherent tested.store none (state.picture scope scratch) start) :
    Follows blueprint bound turned.listing.size start second.listing.size
      (fun last finish => landed.Shows (last.picture scope scratch) finish)
      (inSecond bound scope state) := by
  have hTurnedFlat : turned.Flat := by
    rw [Flat, hChooses.turns.store]
    exact hChooses.body.flat
  have hSame : tested.setting.Resembles turned.setting := by
    rw [hChooses.setting_turned]
    exact hChooses.body.extended.cells
  have hThere := shows_of_flat hSound hFlat hTurnedFlat hSame hShows
  rw [← hChooses.turns.pointer] at hThere
  refine hChooses.orElse.followsInside hChooses.inside_turned (hScoped.resembles hSame)
    (hChooses.filled_second hFilled) bound state scratch hThere ?_
  exact fun last between hBetween => ⟨0, between, .refl _ _, hChooses.lands.shows hBetween⟩

end Chooses

theorem ifElse_ensures {bases : Bases} {body orElse : List Command}
    (hBody : Renders bases (Generating.compileCommands body) fun bound scope =>
      Command.executeAll bases bound scope body)
    (hOrElse : Renders bases (Generating.compileCommands orElse) fun bound scope =>
      Command.executeAll bases bound scope orElse)
    (hPrepared : context.Prepared bases) (span : Source.Span) (condition : Condition) :
    Ensures (Generating.compileCommand (.ifElse span condition body orElse)) context fun _ after =>
      Compiles context after fun bound scope =>
        Command.execute bases bound scope (.ifElse span condition body orElse) := by
  rw [Generating.compileCommand]
  refine .bind (testCondition_ensures hPrepared.toTidy hPrepared.bases condition) ?_
  rintro - tested ⟨label, holds?, hBranches, hTested, hMeaning⟩
  refine ensures_nested (hBody.settles (hPrepared.congr (hTested.atDepth (tested.depth + 1))
    (.of_eq hBranches.setting) hBranches.loops) ?_)
  intro first hFirst
  have hToFirst : Extends label.slots context first :=
    hBranches.extended.trans hFirst.extended.ofDepth
  refine divert_ensures (hFirst.labels.trans hBranches.labels) hBranches.slot hToFirst ?_
  intro turned hTurned hToTurned
  have hTurnedTidy : turned.Tidy :=
    ⟨hToTurned.sound, hFirst.tidy.holding.congr (by rw [hTurned.store])⟩
  refine hOrElse.settles (hPrepared.congr hTurnedTidy hToTurned.cells
    (hTurned.loops.trans (hFirst.loops.trans hBranches.loops))) ?_
  intro second hSecond
  have hToSecond : Extends (Label.slots ⟨.ending, first.listing.size⟩ ++ []) context second :=
    (hToTurned.trans hSecond.extended).perm fun slot => by simp [Label.slots]
  refine (landHere_ensures (hSecond.labels.trans hTurned.labels) (Int.natCast_nonneg _) hToSecond
    fun _ _ => List.not_mem_nil).mono ?_
  rintro - landed ⟨hLanded, hDone⟩
  have hChooses : Chooses tested first turned second landed label
      (fun bound scope => Command.executeAll bases bound scope body)
      (fun bound scope => Command.executeAll bases bound scope orElse) context.labels :=
    ⟨hFirst, hTurned, hSecond, hLanded⟩
  have hDepth : landed.depth - 1 = context.depth := by
    rw [hChooses.depth_landed, ← hBranches.depth]
    rfl
  have hForgets : Forgets context (landed.atDepth (landed.depth - 1)) fun bound scope =>
      Command.execute bases bound scope (.ifElse span condition body orElse) := by
    have hInside := hChooses.forgets fun name hInFirst hInSecond =>
      .ifElse hInFirst hInSecond span condition
    exact hInside.enclosed hBranches.setting rfl fun _ hSpares => hSpares
  refine ⟨hDone.atDepth _, hLanded.labels, hDepth, hChooses.loops_landed.trans hBranches.loops,
    fun _ => hForgets, ?_⟩
  intro scope hScoped blueprint hFilled bound state scratch start hKnows hShows
  refine hForgets.follows hDone.cells hDepth hScoped hKnows ?_
  have hInScope : tested.Scoped scope := hScoped.resembles (.of_eq hBranches.setting)
  obtain ⟨-, hLands⟩ := hTurned.fills blueprint (hChooses.filled_turned hFilled)
  have hHolds := hMeaning (state.picture scope scratch) hKnows
  rw [SourceState.valuation_picture] at hHolds
  change Follows blueprint bound _ _ landed.listing.size _ _
  rw [hLanded.size]
  simp only [Command.execute]
  cases hTest : condition.holds? bases (state.valuation scope) with
  | none => trivial
  | some holds =>
      rw [hTest] at hHolds
      refine hBranches.follows (hChooses.filled_tested hFilled) hLands hShows hHolds ?_ ?_
      · rintro rfl arrival hArrival
        exact hChooses.follows_first hFilled hInScope bound hArrival
      · rintro rfl arrival hArrival
        exact hChooses.follows_second hFilled hBranches.extended.sound hBranches.flat hInScope
          bound hArrival

/-! ### WHILE -/

/-- The start of a loop: all values are in memory, and nothing is known about the pointer. -/
theorem enterLoop_ensures (hTidy : context.Tidy) {α : Type} {next : Nat → Generating α}
    {post : α → Context → Prop}
    (hNext : ∀ entered, Turns context entered Eq → entered.Tidy → entered.Flat →
      entered.pointer = none → Ensures (next entered.listing.size) entered post) :
    Ensures (do
      Generating.clearCache
      Generating.forgetPointer
      let start ← Generating.nextLine
      next start) context post := by
  refine .bind (clearCache_ensures hTidy.toSound) ?_
  rintro - cleared ⟨hCleared, hFlat, hHolding⟩
  let entered : Context := { cleared with pointer := none }
  have hSound : entered.Sound :=
    ⟨hCleared.sound.store, hCleared.sound.size, hCleared.sound.dynamics, hCleared.sound.distinct,
      hCleared.sound.recorded⟩
  have hForgotten : Turns cleared entered Eq :=
    { sound := hSound
      quiet := ⟨rfl, rfl, rfl, rfl, rfl⟩
      grows := .refl _ _
      setting := rfl
      reaches := fun _ _ hSame => .still rfl fun _ hShows => hSame ▸ hShows.forgetPointer }
  exact .modify_bind (.get (hNext entered (hCleared.before_still hForgotten)
    ⟨hSound, (hHolding _ hTidy.holding).congr rfl⟩ hFlat rfl))

/-- The jump at the end of a round leads to a line before it, after some code without jumps. -/
theorem Extends.jumpBack {base : Context} {slots : List Nat} (hExtends : Extends slots base context)
    {start : Nat} (hStart : start ≤ context.listing.size) {front : List Instruction}
    (hFront : ∀ instruction ∈ front, instruction.Ready context.options.registers
      (context.listing.size + (front.length + 1))) :
    Extends slots base (context.add (front ++ [.jump start])) ∧
      ∀ blueprint, (context.add (front ++ [.jump start])).draft.FilledBy blueprint →
        context.draft.FilledBy blueprint ∧ ∀ picture snapshot finish,
          context.Shows picture snapshot → snapshot.runBlock front = some finish →
          Passes blueprint (front.length + 1) context.listing.size snapshot start finish := by
  have hLength : (front ++ [Instruction.jump start]).length = front.length + 1 := by simp
  have hReady : ∀ instruction ∈ front ++ [Instruction.jump start], instruction.Ready
      context.options.registers (context.listing.size + (front ++ [Instruction.jump start]).length) := by
    rw [hLength]
    refine List.forall_mem_append.mpr ⟨hFront, ?_⟩
    intro instruction hInstruction
    rw [List.mem_singleton.mp hInstruction]
    exact Instruction.ready_jump _ (Int.natCast_nonneg _) (by omega)
  have hWorks := Works.add hExtends.sound hReady
  refine ⟨(hExtends.trans hWorks.extends).perm fun slot => by simp, ?_⟩
  intro blueprint hFilled
  refine ⟨hWorks.grows.filledBy hFilled, fun picture snapshot finish hShows hRun => ?_⟩
  have hEmbedded := Listing.embedded_addAll hReady hFilled.listing
  have hFirst := safe_add hExtends.sound (List.append_ne_nil_of_right_ne_nil front
    (List.cons_ne_nil _ _)) hFilled hShows
  -- Behind the first line nothing is recorded.
  have hRest : ∀ line : Int, context.listing.size < line →
      line ≤ context.listing.size + front.length → ∀ there, blueprint.Safe line there := by
    intro line hLow hHigh there emission hEmission hLine
    have hSame := hExtends.sound.emission_eq hFilled hEmission (by omega) (by omega)
    rw [hSame] at hLine
    change (context.listing.size : Int) = line at hLine
    omega
  have hStraight := Passes.ofStraight hEmbedded.append_left hRun (fun _ => hFirst)
    fun line hLow hHigh => hRest line hLow (Int.le_of_lt hHigh)
  refine hStraight.trans (.single (.jump finish hEmbedded.append_right.head) ?_)
  cases front with
  | nil =>
      cases hRun
      simpa using hFirst
  | cons head rest => exact hRest _ (by simp) (Int.le_refl _) finish

/-- The rounds of a loop: from a state in which the test holds the code of a round comes back
to its first line, from another it comes to its end. -/
theorem follows_repeatWhile {blueprint : Blueprint} {first last : Int}
    {shows post : SourceState → Snapshot → Prop} {test : SourceState → Option Bool}
    {run : SourceState → Outcome} {bound : Nat}
    (hOutput : ∀ state start, shows state start → start.output = state.output)
    (hRound : ∀ state start, shows state start → test state = some true → ∀ rest, rest < bound →
      ∀ next : SourceState → Outcome,
        (∀ between arrival, shows between arrival →
          Follows blueprint rest first arrival last post (next between)) →
        Follows blueprint (rest + 1) first start last post ((run state).andThen next))
    (hLeave : ∀ state start, shows state start → test state = some false →
      Follows blueprint 0 first start last post (.finished state))
    (rounds : Nat) (hRounds : rounds ≤ bound) (state : SourceState) (start : Snapshot)
    (hShows : shows state start) :
    Follows blueprint rounds first start last post (Outcome.repeatWhile test run rounds state) := by
  induction rounds generalizing state start with
  | zero =>
      unfold Outcome.repeatWhile
      cases hTest : test state with
      | none => trivial
      | some holds =>
          cases holds with
          | false => exact hLeave state start hShows hTest
          | true => exact ⟨0, first, start, Nat.le_refl _, .refl _ _, hOutput state start hShows⟩
  | succ rounds inductionHypothesis =>
      unfold Outcome.repeatWhile
      cases hTest : test state with
      | none => trivial
      | some holds =>
          cases holds with
          | false => exact hLeave state start hShows hTest
          | true =>
              refine hRound state start hShows hTest rounds hRounds _ ?_
              exact fun between arrival hThere =>
                inductionHypothesis (Nat.le_of_succ_le hRounds) between arrival hThere

/-- The contexts a loop goes through: before its test, behind it, behind its body, and where the
loop is left. -/
structure Revolves (outside tested cleared landed : Context) (label : Label)
    (holds? : Picture → Option Bool) (behaviour : Behaviour) (rest : List Label) : Prop where
  flat : outside.Flat
  pointer : outside.pointer = none
  tests : Branches (outside.atDepth (outside.depth + 1)) tested label holds?
  body : Settles tested cleared behaviour
  back : ∀ blueprint, (cleared.add [.jump outside.listing.size]).draft.FilledBy blueprint →
    cleared.draft.FilledBy blueprint ∧ ∀ picture snapshot, cleared.Shows picture snapshot →
      Passes blueprint 1 cleared.listing.size snapshot outside.listing.size snapshot
  lands : Lands (cleared.add [.jump outside.listing.size]) landed label rest

namespace Revolves

variable {outside tested cleared landed : Context} {label : Label}
  {holds? : Picture → Option Bool} {behaviour : Behaviour} {rest : List Label}
  (hRevolves : Revolves outside tested cleared landed label holds? behaviour rest)

include hRevolves

private theorem inside : 0 < tested.depth := by
  rw [hRevolves.tests.depth]
  exact Nat.succ_pos _

private theorem depth_landed : landed.depth = outside.depth + 1 := by
  have hCleared : cleared.depth = outside.depth + 1 :=
    hRevolves.body.depth.trans hRevolves.tests.depth
  exact hRevolves.lands.depth.trans hCleared

private theorem setting_landed : landed.setting = cleared.setting :=
  hRevolves.lands.setting

variable {blueprint : Blueprint} (hFilled : landed.draft.FilledBy blueprint)

include hFilled

private theorem filled_cleared : cleared.draft.FilledBy blueprint :=
  (hRevolves.back blueprint (hRevolves.lands.fills blueprint hFilled).1).1

private theorem filled_tested : tested.draft.FilledBy blueprint :=
  hRevolves.body.extended.grows.filledBy (hRevolves.filled_cleared hFilled)

private theorem filled_outside : outside.draft.FilledBy blueprint :=
  hRevolves.tests.extended.grows.filledBy (hRevolves.filled_tested hFilled)

variable {scope : Scope} {scratch : Address → Option Nat} {state : SourceState} {start : Snapshot}
  (hShows : outside.Shows (state.picture scope scratch) start)

include hShows

/-- A round with its test and the jump back, and what comes after it. -/
theorem follows_round (hScoped : tested.Scoped scope)
    (hHolds : holds? (state.picture scope scratch) = some true) {bound remaining : Nat}
    (hRemaining : remaining < bound) {last : Int} {post : SourceState → Snapshot → Prop}
    {next : SourceState → Outcome}
    (hNext : ∀ between arrival, outside.Shows (between.picture scope scratch) arrival →
      Follows blueprint remaining outside.listing.size arrival last post (next between)) :
    Follows blueprint (remaining + 1) outside.listing.size start last post
      ((behaviour bound scope state).andThen next) := by
  obtain ⟨hFilledJump, hLands⟩ := hRevolves.lands.fills blueprint hFilled
  obtain ⟨hFilledCleared, hBack⟩ := hRevolves.back blueprint hFilledJump
  refine hRevolves.tests.follows (hRevolves.filled_tested hFilled) hLands hShows hHolds ?_
    fun hFalse => absurd hFalse (by decide)
  intro _ arrival hArrival
  have hRound := hRevolves.body.followsInside hRevolves.inside hScoped hFilledCleared bound state
    scratch hArrival fun last between hBetween => ⟨0, between, .refl _ _, hBetween⟩
  refine (hRound.weaken hRemaining).andThen ?_
  intro last between hBetween
  have hSame : outside.setting.Resembles cleared.setting :=
    (Setting.Resembles.of_eq hRevolves.tests.setting).trans hRevolves.body.extended.cells
  have hAgain := shows_of_flat hRevolves.body.tidy.toSound hRevolves.body.flat hRevolves.flat
    hSame.symm hBetween
  rw [← hRevolves.pointer] at hAgain
  rw [Nat.succ_eq_one_add]
  exact (hNext last between hAgain).prepend (hBack _ between hBetween)

private theorem follows_leave (hFails : holds? (state.picture scope scratch) = some false) :
    Follows blueprint 0 outside.listing.size start landed.listing.size
      (fun last finish => landed.Shows (last.picture scope scratch) finish) (.finished state) := by
  obtain ⟨-, hLands⟩ := hRevolves.lands.fills blueprint hFilled
  refine hRevolves.tests.follows (hRevolves.filled_tested hFilled) hLands hShows hFails
    (fun hTrue => absurd hTrue (by decide)) ?_
  intro _ arrival hArrival
  have hSame : tested.setting.Resembles landed.setting :=
    hRevolves.body.extended.cells.trans (.of_eq hRevolves.setting_landed)
  have hEnd := shows_of_flat hRevolves.tests.extended.sound hRevolves.tests.flat
    (hRevolves.lands.flat hRevolves.body.flat) hSame hArrival
  rw [← hRevolves.lands.pointer] at hEnd
  refine ⟨0, arrival, ?_, hEnd⟩
  rw [hRevolves.lands.size]
  exact .refl _ _

end Revolves

theorem whileLoop_ensures {bases : Bases} {body : List Command}
    (hBody : Renders bases (Generating.compileCommands body) fun bound scope =>
      Command.executeAll bases bound scope body)
    (hPrepared : context.Prepared bases) (span : Source.Span) (condition : Condition) :
    Ensures (Generating.compileCommand (.whileLoop span condition body)) context fun _ after =>
      Compiles context after fun bound scope =>
        Command.execute bases bound scope (.whileLoop span condition body) := by
  rw [Generating.compileCommand]
  refine enterLoop_ensures hPrepared.toTidy ?_
  intro outside hOutside hOutsideTidy hOutsideFlat hPointer
  have hInsidePrepared : (outside.atDepth (outside.depth + 1)).Prepared bases :=
    hPrepared.congr (hOutsideTidy.atDepth _) (.of_eq hOutside.setting) hOutside.quiet.loops
  refine ensures_nested (.bind (testCondition_ensures hInsidePrepared.toTidy hInsidePrepared.bases
    condition) ?_)
  rintro - tested ⟨label, holds?, hBranches, hTested, hMeaning⟩
  refine hBody.settles (hInsidePrepared.congr hTested (.of_eq hBranches.setting)
    hBranches.loops) ?_
  intro cleared hCleared
  have hExtends : Extends (label.slots ++ []) context cleared :=
    (hOutside.extends.trans (hBranches.extended.ofDepth.trans hCleared.extended)).perm
      fun slot => by simp
  obtain ⟨hJumped, hJumpsBack⟩ := hExtends.jumpBack
    (Nat.le_trans hBranches.extended.grows.size hCleared.extended.grows.size)
    fun _ hNone => absurd hNone List.not_mem_nil
  have hLabels : (cleared.add [.jump outside.listing.size]).labels = label :: context.labels := by
    rw [← hOutside.quiet.labels]
    exact hCleared.labels.trans hBranches.labels
  refine ensures_emitAll ((landHere_ensures hLabels hBranches.slot hJumped
    fun _ _ => List.not_mem_nil).mono ?_)
  rintro - landed ⟨hLanded, hDone⟩
  have hRevolves : Revolves outside tested cleared landed label holds?
      (fun bound scope => Command.executeAll bases bound scope body) context.labels := by
    refine ⟨hOutsideFlat, hPointer, hBranches, hCleared, fun blueprint hFilled => ?_, hLanded⟩
    obtain ⟨hFilledCleared, hBack⟩ := hJumpsBack blueprint hFilled
    exact ⟨hFilledCleared, fun picture snapshot hShows => hBack picture snapshot _ hShows rfl⟩
  have hDepth : landed.depth - 1 = context.depth := by
    rw [hRevolves.depth_landed, ← hOutside.quiet.depth]
    rfl
  have hLoops : landed.loops = context.loops :=
    hLanded.loops.trans (hCleared.loops.trans (hBranches.loops.trans hOutside.quiet.loops))
  have hForgets : Forgets context (landed.atDepth (landed.depth - 1)) fun bound scope =>
      Command.execute bases bound scope (.whileLoop span condition body) := by
    exact (hCleared.forgets hRevolves.inside).enclosed
      (hBranches.setting.trans hOutside.setting) hLanded.setting
      fun name hSpares => .whileLoop hSpares span condition
  refine ⟨hDone.atDepth _, hLanded.labels, hDepth, hLoops, fun _ => hForgets, ?_⟩
  intro scope hScoped blueprint hFilled bound state scratch start hKnows hShows
  refine hForgets.follows hDone.cells hDepth hScoped hKnows ?_
  have hInScope : tested.Scoped scope :=
    hScoped.resembles (.of_eq (hBranches.setting.trans hOutside.setting))
  obtain ⟨steps, entry, hPasses, hEntry⟩ := hOutside.reaches _ _ rfl blueprint
    (hRevolves.filled_outside hFilled) start hShows
  -- Inside the loop nothing is known, so the test means what it says.
  have hTestMeans : ∀ state : SourceState, holds? (state.picture scope scratch) =
      condition.holds? bases (state.valuation scope) := by
    intro state
    rw [← SourceState.valuation_picture state scope scratch]
    exact hMeaning _ fun hAtTop => absurd hAtTop (Nat.succ_ne_zero _)
  let shows : SourceState → Snapshot → Prop := fun state snapshot =>
    outside.Shows (state.picture scope scratch) snapshot
  have hOutput : ∀ state snapshot, shows state snapshot → snapshot.output = state.output :=
    fun _ _ hThere => hThere.output
  simp only [Command.execute]
  refine ((follows_repeatWhile hOutput ?_ ?_ bound (Nat.le_refl _) state entry hEntry).prepend
    hPasses).weaken (Nat.le_add_left _ _)
  · intro state snapshot hThere hTest remaining hRemaining next hNext
    exact hRevolves.follows_round hFilled hThere hInScope ((hTestMeans state).trans hTest)
      hRemaining hNext
  · intro state snapshot hThere hTest
    exact hRevolves.follows_leave hFilled hThere ((hTestMeans state).trans hTest)

end Context

end RegisterCompiler
