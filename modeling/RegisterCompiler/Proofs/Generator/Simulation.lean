/-
Code that does what commands say.

A run of code follows a run of commands when it comes to the end of the code with the
state the commands end in, or stops at the GET where they block, or goes on as long as
they do with the same output.  A step of code generation compiles commands when the code
it adds follows them from every state, and when it does not claim to know a scalar that
the commands may have changed.
-/

import RegisterCompiler.Proofs.Execution
import RegisterCompiler.Proofs.Generator.Comparison

set_option autoImplicit false

namespace RegisterCompiler

open Generating (Ensures)

namespace SourceState

def picture (state : SourceState) (scope : Scope) (scratch : Address → Option Nat) : Picture where
  scalar := (state.valuation scope).scalar
  cell := state.cells
  scratch := scratch
  held := fun _ => none
  input := state.input
  output := state.output

theorem valuation_picture (state : SourceState) (scope : Scope) (scratch : Address → Option Nat) :
    (state.picture scope scratch).valuation = state.valuation scope :=
  rfl

end SourceState

/-! ### Following a run -/

/-- A machine that stops at a GET for the reason a run blocks. -/
structure Starves (blueprint : Blueprint) (line : Int) (stop : Snapshot) (cause : ExecutionFault)
    (state : SourceState) : Prop where
  instruction : ∃ register, instructionAt blueprint.code line = some (.unary .get register)
  safe : blueprint.Safe line stop
  input : takeNumber stop.input = (.error cause, state.input)
  output : stop.output = state.output

/-- The code from one line to another does what a run says.  A run that exhausts its bound
takes `least` steps at least. -/
def Follows (blueprint : Blueprint) (least : Nat) (first : Int) (start : Snapshot) (last : Int)
    (post : SourceState → Snapshot → Prop) : Outcome → Prop
  | .finished state =>
      ∃ steps finish, Passes blueprint steps first start last finish ∧ post state finish
  | .blocked cause state =>
      ∃ steps line stop, Passes blueprint steps first start line stop ∧
        Starves blueprint line stop cause state
  | .exhausted state =>
      ∃ steps line stop, least ≤ steps ∧ Passes blueprint steps first start line stop ∧
        stop.output = state.output
  | .uninitialized => True

namespace Follows

variable {blueprint : Blueprint} {least : Nat} {first middle last : Int}
  {start arrival : Snapshot} {between post : SourceState → Snapshot → Prop} {outcome : Outcome}

theorem prepend {steps : Nat} (hPasses : Passes blueprint steps first start middle arrival)
    (hFollows : Follows blueprint least middle arrival last post outcome) :
    Follows blueprint (steps + least) first start last post outcome := by
  cases outcome with
  | finished state =>
      obtain ⟨more, finish, hRest, hPost⟩ := hFollows
      exact ⟨_, finish, hPasses.trans hRest, hPost⟩
  | blocked cause state =>
      obtain ⟨more, line, stop, hRest, hStarves⟩ := hFollows
      exact ⟨_, line, stop, hPasses.trans hRest, hStarves⟩
  | exhausted state =>
      obtain ⟨more, line, stop, hLeast, hRest, hOutput⟩ := hFollows
      exact ⟨_, line, stop, Nat.add_le_add_left hLeast _, hPasses.trans hRest, hOutput⟩
  | uninitialized => trivial

theorem weaken {fewer : Nat} (hFollows : Follows blueprint least first start last post outcome)
    (hFewer : fewer ≤ least) : Follows blueprint fewer first start last post outcome := by
  cases outcome with
  | exhausted state =>
      obtain ⟨steps, line, stop, hLeast, hRest, hOutput⟩ := hFollows
      exact ⟨steps, line, stop, Nat.le_trans hFewer hLeast, hRest, hOutput⟩
  | finished state => exact hFollows
  | blocked cause state => exact hFollows
  | uninitialized => trivial

/-- Runs one after the other. -/
theorem andThen (hFollows : Follows blueprint least first start middle between outcome)
    {next : SourceState → Outcome}
    (hNext : ∀ state arrival, between state arrival →
      Follows blueprint least middle arrival last post (next state)) :
    Follows blueprint least first start last post (outcome.andThen next) := by
  cases outcome with
  | finished state =>
      obtain ⟨steps, arrival, hPasses, hBetween⟩ := hFollows
      exact ((hNext state arrival hBetween).prepend hPasses).weaken (Nat.le_add_left _ _)
  | blocked cause state => exact hFollows
  | exhausted state => exact hFollows
  | uninitialized => trivial

/-- Code without a counterpart may come behind. -/
theorem append (hFollows : Follows blueprint least first start middle between outcome)
    (hRest : ∀ state arrival, between state arrival →
      ∃ steps finish, Passes blueprint steps middle arrival last finish ∧ post state finish) :
    Follows blueprint least first start last post outcome := by
  have hSame : outcome.andThen .finished = outcome := by cases outcome <;> rfl
  rw [← hSame]
  exact hFollows.andThen hRest

end Follows

/-! ### Compiling -/

/-- What commands do, given a bound and the variables of the enclosing loops. -/
abbrev Behaviour := Nat → Scope → SourceState → Outcome

namespace Behaviour

def andThen (first second : Behaviour) : Behaviour :=
  fun bound scope state => (first bound scope state).andThen (second bound scope)

def idle : Behaviour :=
  fun _ _ state => .finished state

def Spares (behaviour : Behaviour) (name : String) : Prop :=
  ∀ bound scope state after, behaviour bound scope state = .finished after →
    after.scalars name = state.scalars name

private theorem Spares.andThen {first second : Behaviour} {name : String}
    (hFirst : first.Spares name) (hSecond : second.Spares name) :
    (first.andThen second).Spares name := by
  intro bound scope state after hRun
  unfold Behaviour.andThen at hRun
  cases hMiddle : first bound scope state with
  | finished middle =>
      rw [hMiddle] at hRun
      rw [hSecond bound scope middle after hRun, hFirst bound scope state middle hMiddle]
  | _ =>
      rw [hMiddle] at hRun
      contradiction

end Behaviour

namespace Context

variable {context : Context}

def Scoped (context : Context) (scope : Scope) : Prop :=
  ∀ name, (scope.lookup name).isSome = true →
    ∃ binding, context.setting.declared name = some (.iterator, binding)

theorem Scoped.lookup_eq_none {scope : Scope} (hScoped : context.Scoped scope) {name : String}
    {kind : SymbolKind} {binding : Binding}
    (hDeclared : context.setting.declared name = some (kind, binding)) (hKind : kind ≠ .iterator) :
    scope.lookup name = none := by
  cases hLookup : scope.lookup name with
  | none => rfl
  | some value =>
      obtain ⟨other, hOther⟩ := hScoped name (Option.isSome_of_eq_some hLookup)
      rw [hDeclared] at hOther
      cases hOther
      exact absurd rfl hKind

/-- What is known after a step was known before it and was spared by what the step
stands for. -/
structure Forgets (before after : Context) (behaviour : Behaviour) : Prop where
  known : ∀ handle number, after.setting.known handle = some number →
    before.setting.known handle = some number
  spares : ∀ name handle number, before.setting.declared name = some (.scalar, .value handle) →
    after.setting.known handle = some number → behaviour.Spares name

namespace Forgets

variable {before inner last after : Context} {behaviour first second whole : Behaviour}

theorem enclosed (hInner : Forgets inner last behaviour) (hStart : inner.setting = before.setting)
    (hEnd : after.setting = last.setting)
    (hSpares : ∀ name, behaviour.Spares name → whole.Spares name) : Forgets before after whole := by
  refine ⟨fun handle number hKnown => ?_, fun name handle number hDeclared hKnown => ?_⟩
  · rw [← hStart]
    exact hInner.known handle number (hEnd ▸ hKnown)
  · exact hSpares name
      (hInner.spares name handle number (hStart ▸ hDeclared) (hEnd ▸ hKnown))

/-- Commands in two parts forget what either part forgets. -/
theorem both (hFirst : Forgets before last first) (hSecond : Forgets inner after second)
    (hCells : before.setting.Resembles last.setting) (hSame : inner.setting = last.setting)
    (hSpares : ∀ name, first.Spares name → second.Spares name → whole.Spares name) :
    Forgets before after whole := by
  have hKnownLast : ∀ handle number, after.setting.known handle = some number →
      last.setting.known handle = some number :=
    fun handle number hKnown => hSame ▸ hSecond.known handle number hKnown
  refine ⟨fun handle number hKnown => hFirst.known _ _ (hKnownLast _ _ hKnown), ?_⟩
  intro name handle number hDeclared hKnown
  refine hSpares name (hFirst.spares name handle number hDeclared (hKnownLast _ _ hKnown))
    (hSecond.spares name handle number ?_ hKnown)
  rw [hSame, hCells.declared]
  exact hDeclared

end Forgets

structure Compiles (before after : Context) (behaviour : Behaviour) : Prop where
  extended : Extends [] before after
  labels : after.labels = before.labels
  depth : after.depth = before.depth
  loops : after.loops = before.loops
  forgets : 0 < before.depth → Forgets before after behaviour
  follows : ∀ scope, before.Scoped scope → ∀ blueprint, after.draft.FilledBy blueprint →
    ∀ bound state scratch start, before.Knows (state.valuation scope).scalar →
      before.Shows (state.picture scope scratch) start →
      Follows blueprint bound before.listing.size start after.listing.size
        (fun last finish => after.Knows (last.valuation scope).scalar ∧
          after.Shows (last.picture scope scratch) finish) (behaviour bound scope state)

theorem Scoped.resembles {after : Context} {scope : Scope} (hScoped : context.Scoped scope)
    (hSame : context.setting.Resembles after.setting) : after.Scoped scope := by
  unfold Scoped
  rw [hSame.declared]
  exact hScoped

namespace Compiles

variable {before middle after : Context} {first second : Behaviour}

theorem trans (hFirst : Compiles before middle first) (hSecond : Compiles middle after second) :
    Compiles before after (first.andThen second) where
  extended := hFirst.extended.trans hSecond.extended
  labels := hSecond.labels.trans hFirst.labels
  depth := hSecond.depth.trans hFirst.depth
  loops := hSecond.loops.trans hFirst.loops
  forgets := by
    intro hDepth
    exact (hFirst.forgets hDepth).both (hSecond.forgets (by rw [hFirst.depth]; exact hDepth))
      hFirst.extended.cells rfl fun name hHere hThere => hHere.andThen hThere
  follows := by
    intro scope hScoped blueprint hFilled bound state scratch start hKnows hShows
    have hHere := hFirst.follows scope hScoped blueprint (hSecond.extended.grows.filledBy hFilled) bound
      state scratch start hKnows hShows
    refine hHere.andThen ?_
    rintro between arrival ⟨hKnowsThere, hShowsThere⟩
    exact hSecond.follows scope (hScoped.resembles hFirst.extended.cells) blueprint hFilled bound between
      scratch arrival hKnowsThere hShowsThere

theorem of_turns (hTurns : Turns before after fun start finish => finish = start.dropAll) :
    Compiles before after .idle where
  extended := hTurns.extends
  labels := hTurns.quiet.labels
  depth := hTurns.quiet.depth
  loops := hTurns.quiet.loops
  forgets := by
    intro _
    refine ⟨fun handle number hKnown => by rw [hTurns.setting] at hKnown; exact hKnown, ?_⟩
    intro name handle number _ _ bound scope state last hRun
    cases hRun
    rfl
  follows := by
    intro scope _ blueprint hFilled bound state scratch start hKnows hShows
    obtain ⟨steps, finish, hPasses, hFinish⟩ := hTurns.reaches _ _ rfl blueprint hFilled start hShows
    exact ⟨steps, finish, hPasses, hKnows.congr hTurns.toWorks, hFinish⟩

theorem imp {other : Behaviour} (hCompiles : Compiles before after first)
    (hSame : ∀ bound scope state, other bound scope state = first bound scope state) :
    Compiles before after other := by
  have hEqual : other = first := funext fun bound => funext fun scope => funext (hSame bound scope)
  rw [hEqual]
  exact hCompiles

end Compiles

end Context

end RegisterCompiler
