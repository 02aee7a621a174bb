/-
What a program means.

Scalars and array cells hold naturals and have no value before they are written.
An array element is a cell of one flat memory, counted from the base of its
array.  The variables of the enclosing counting loops are kept apart from the
state, so that no command can change them.

Execution is given a bound on the rounds of every WHILE loop.  A run that ends or
blocks does so under every larger bound; a run that exhausts every bound goes on
forever.
-/

import Mathlib.Logic.Function.Basic
import RegisterCompiler.Machine
import RegisterCompiler.Program

set_option autoImplicit false

namespace RegisterCompiler

/-- The contents of the cells of a program, the input still to come and the
numbers written so far. -/
structure SourceState where
  scalars : String → Option Nat
  cells : Nat → Option Nat
  input : Option Feed
  output : List Nat

/-- The variables of the enclosing counting loops with their values, the innermost
first. -/
abbrev Scope := List (String × Nat)

/-- Where each array starts in the flat memory. -/
abbrev Bases := String → Nat

/-- What the cells of a program hold, as seen from inside some loops. -/
structure Valuation where
  scalar : String → Option Nat
  cell : Nat → Option Nat

namespace SourceState

def initial (input : Option Feed) : SourceState where
  scalars := fun _ => none
  cells := fun _ => none
  input := input
  output := []

def valuation (state : SourceState) (scope : Scope) : Valuation where
  scalar := fun name => (scope.lookup name).or (state.scalars name)
  cell := state.cells

end SourceState

def takeNumber (input : Option Feed) : Except ExecutionFault Nat × Option Feed :=
  match input with
  | none => (.error .endOfInput, none)
  | some feed =>
      match feed.pending with
      | [] => (.error (if feed.jammed then .wordTooLong else .endOfInput), some feed)
      | .overflow :: rest => (.error .wordTooLong, some { feed with pending := rest })
      | .word word :: rest =>
          match (Text.integer? (word.map Text.Glyph.char)).filter (0 ≤ ·) with
          | some value => (.ok value.toNat, some { feed with pending := rest })
          | none => (.error (.notNatural word), some { feed with pending := rest })

theorem Machine.take_eq (machine : Machine) :
    machine.take =
      ((takeNumber machine.input).1, { machine with input := (takeNumber machine.input).2 }) := by
  unfold Machine.take takeNumber
  cases hInput : machine.input with
  | none => simp only [← hInput]
  | some feed =>
      cases hPending : feed.pending with
      | nil => simp only [← hInput, hPending]
      | cons intake rest =>
          cases intake with
          | overflow => simp only [hPending]
          | word word =>
              simp only [hPending]
              cases (Text.integer? (word.map Text.Glyph.char)).filter (0 ≤ ·) <;> rfl

/-! ### Values -/

def Index.address? (bases : Bases) (valuation : Valuation) (array : String) :
    Index → Option Nat
  | .number _ offset => some (bases array + offset)
  | .name _ other => (valuation.scalar other).map (bases array + ·)

def Reference.value? (bases : Bases) (valuation : Valuation) (cell : Reference) : Option Nat :=
  match cell.index with
  | none => valuation.scalar cell.name
  | some index => (index.address? bases valuation cell.name).bind valuation.cell

def Atom.value? (bases : Bases) (valuation : Valuation) : Atom → Option Nat
  | .number _ value => some value
  | .reference cell => cell.value? bases valuation

def Expression.value? (bases : Bases) (valuation : Valuation) : Expression → Option Nat
  | .atom _ value => value.value? bases valuation
  | .operation _ left operator right =>
      (left.value? bases valuation).bind fun first =>
        (right.value? bases valuation).map fun second => operator.eval first second

def Condition.holds? (bases : Bases) (valuation : Valuation) (condition : Condition) :
    Option Bool :=
  (condition.left.value? bases valuation).bind fun (left : Nat) =>
    (condition.right.value? bases valuation).map fun (right : Nat) =>
      condition.relation.holds left right

namespace SourceState

/-- Writes a number to a named cell.  The variables of the enclosing loops are
read-only: a write to one of them is without effect. -/
def write? (state : SourceState) (bases : Bases) (scope : Scope) (target : Reference)
    (value : Nat) : Option SourceState :=
  match target.index with
  | none =>
      if (scope.lookup target.name).isSome then some state
      else some { state with scalars := Function.update state.scalars target.name (some value) }
  | some index =>
      (index.address? bases (state.valuation scope) target.name).map fun address =>
        { state with cells := Function.update state.cells address (some value) }

end SourceState

/-! ### Commands -/

/-- How far a run comes: to its end, to a READ that finds no number, to the bound
on the rounds of a loop, or to the read of a cell that was never written. -/
inductive Outcome where
  | finished (state : SourceState)
  | blocked (cause : ExecutionFault) (state : SourceState)
  | exhausted (state : SourceState)
  | uninitialized

namespace Outcome

def andThen (outcome : Outcome) (next : SourceState → Outcome) : Outcome :=
  match outcome with
  | finished state => next state
  | other => other

def ofWrite : Option SourceState → Outcome
  | some state => finished state
  | none => uninitialized

/-- Repeats a run while a test holds, at most `bound` times. -/
def repeatWhile (test : SourceState → Option Bool) (run : SourceState → Outcome) :
    Nat → SourceState → Outcome
  | bound, state =>
      match test state with
      | none => uninitialized
      | some false => finished state
      | some true =>
          match bound with
          | 0 => exhausted state
          | rest + 1 => (run state).andThen (repeatWhile test run rest)

def countRounds (advance : Nat → Nat) (run : Nat → SourceState → Outcome) :
    Nat → Nat → SourceState → Outcome
  | 0, _, state => finished state
  | rounds + 1, value, state =>
      (run value state).andThen (countRounds advance run rounds (advance value))

end Outcome

namespace Direction

def rounds : Direction → Nat → Nat → Nat
  | up, first, last => last + 1 - first
  | down, first, last => first + 1 - last

def advance : Direction → Nat → Nat
  | up, value => value + 1
  | down, value => value - 1

end Direction

namespace Command

mutual

/-- Runs a command with at most `bound` rounds of every WHILE loop. -/
def execute (bases : Bases) (bound : Nat) (scope : Scope) : Command → SourceState → Outcome
  | .assign _ target value, state =>
      match value.value? bases (state.valuation scope) with
      | none => .uninitialized
      | some number => .ofWrite (state.write? bases scope target number)
  | .read _ target, state =>
      match takeNumber state.input with
      | (.error cause, rest) => .blocked cause { state with input := rest }
      | (.ok number, rest) =>
          .ofWrite (SourceState.write? { state with input := rest } bases scope target number)
  | .write _ value, state =>
      match value.value? bases (state.valuation scope) with
      | none => .uninitialized
      | some number => .finished { state with output := state.output ++ [number] }
  | .skip _, state => .finished state
  | .ifThen _ condition body, state =>
      match condition.holds? bases (state.valuation scope) with
      | none => .uninitialized
      | some true => executeAll bases bound scope body state
      | some false => .finished state
  | .ifElse _ condition body orElse, state =>
      match condition.holds? bases (state.valuation scope) with
      | none => .uninitialized
      | some true => executeAll bases bound scope body state
      | some false => executeAll bases bound scope orElse state
  | .whileLoop _ condition body, state =>
      .repeatWhile (fun state => condition.holds? bases (state.valuation scope))
        (executeAll bases bound scope body) bound state
  | .forLoop _ iterator first last direction body, state =>
      match first.value? bases (state.valuation scope),
          last.value? bases (state.valuation scope) with
      | some start, some stop =>
          .countRounds direction.advance
            (fun value => executeAll bases bound ((iterator, value) :: scope) body)
            (direction.rounds start stop) start state
      | _, _ => .uninitialized

def executeAll (bases : Bases) (bound : Nat) (scope : Scope) :
    List Command → SourceState → Outcome
  | [], state => .finished state
  | command :: rest, state =>
      (execute bases bound scope command state).andThen (executeAll bases bound scope rest)

end

end Command

namespace Program

def execute (program : Program) (bases : Bases) (input : Option Feed) (bound : Nat) : Outcome :=
  Command.executeAll bases bound [] program.body (.initial input)

/-- No run reads a cell that was not written before. -/
def Initialized (program : Program) (bases : Bases) (input : Option Feed) : Prop :=
  ∀ bound, program.execute bases input bound ≠ .uninitialized

def Ends (program : Program) (bases : Bases) (input : Option Feed) (state : SourceState) : Prop :=
  ∃ bound, program.execute bases input bound = .finished state

/-- The run stops at a READ that finds no number. -/
def Blocks (program : Program) (bases : Bases) (input : Option Feed) (cause : ExecutionFault)
    (state : SourceState) : Prop :=
  ∃ bound, program.execute bases input bound = .blocked cause state

/-- The run goes on under every bound. -/
def Diverges (program : Program) (bases : Bases) (input : Option Feed) : Prop :=
  ∀ bound, ∃ state, program.execute bases input bound = .exhausted state

end Program

/-! ### Larger bounds -/

namespace Outcome

def Settled (outcome : Outcome) : Prop :=
  ∀ state, outcome ≠ exhausted state

private theorem settled_of_andThen {outcome : Outcome} {next : SourceState → Outcome}
    (hSettled : (outcome.andThen next).Settled) : outcome.Settled := by
  intro state hExhausted
  subst hExhausted
  exact hSettled state rfl

private theorem andThen_congr {outcome : Outcome} {first second : SourceState → Outcome}
    (hSettled : (outcome.andThen first).Settled)
    (hSame : ∀ state, (first state).Settled → second state = first state) :
    outcome.andThen second = outcome.andThen first := by
  cases outcome with
  | finished state => exact hSame state hSettled
  | blocked cause state => rfl
  | exhausted state => rfl
  | uninitialized => rfl

private theorem repeatWhile_stable {test : SourceState → Option Bool}
    {first second : SourceState → Outcome}
    (hSame : ∀ state, (first state).Settled → second state = first state) {bound larger : Nat}
    (hLarger : bound ≤ larger) (state : SourceState)
    (hSettled : (repeatWhile test first bound state).Settled) :
    repeatWhile test second larger state = repeatWhile test first bound state := by
  induction bound generalizing larger state with
  | zero =>
      unfold repeatWhile at hSettled ⊢
      cases hTest : test state with
      | none => rfl
      | some holds =>
          cases holds with
          | false => rfl
          | true =>
              rw [hTest] at hSettled
              exact absurd rfl (hSettled state)
  | succ bound inductionHypothesis =>
      unfold repeatWhile at hSettled ⊢
      cases hTest : test state with
      | none => rfl
      | some holds =>
          cases holds with
          | false => rfl
          | true =>
              rw [hTest] at hSettled
              obtain ⟨rest, rfl⟩ : ∃ rest, larger = rest + 1 := ⟨larger - 1, by omega⟩
              have hFirst : second state = first state :=
                hSame state (settled_of_andThen hSettled)
              simp only [hFirst]
              exact andThen_congr hSettled fun after hAfter =>
                inductionHypothesis (by omega) after hAfter

private theorem countRounds_stable {advance : Nat → Nat}
    {first second : Nat → SourceState → Outcome}
    (hSame : ∀ value state, (first value state).Settled → second value state = first value state)
    (rounds value : Nat) (state : SourceState)
    (hSettled : (countRounds advance first rounds value state).Settled) :
    countRounds advance second rounds value state =
      countRounds advance first rounds value state := by
  induction rounds generalizing value state with
  | zero => rfl
  | succ rounds inductionHypothesis =>
      have hFirst : second value state = first value state :=
        hSame value state (settled_of_andThen hSettled)
      simp only [countRounds, hFirst]
      exact andThen_congr hSettled fun after hAfter =>
        inductionHypothesis (advance value) after hAfter

end Outcome

namespace Command

mutual

theorem execute_stable (bases : Bases) {bound larger : Nat} (hLarger : bound ≤ larger)
    (scope : Scope) (command : Command) (state : SourceState)
    (hSettled : (execute bases bound scope command state).Settled) :
    execute bases larger scope command state = execute bases bound scope command state := by
  cases command with
  | assign span target value => rfl
  | read span target => rfl
  | write span value => rfl
  | skip span => rfl
  | ifThen span condition body =>
      unfold execute at hSettled ⊢
      cases hTest : condition.holds? bases (state.valuation scope) with
      | none => rfl
      | some holds =>
          rw [hTest] at hSettled
          cases holds with
          | false => rfl
          | true => exact executeAll_stable bases hLarger scope body state hSettled
  | ifElse span condition body orElse =>
      unfold execute at hSettled ⊢
      cases hTest : condition.holds? bases (state.valuation scope) with
      | none => rfl
      | some holds =>
          rw [hTest] at hSettled
          cases holds with
          | false => exact executeAll_stable bases hLarger scope orElse state hSettled
          | true => exact executeAll_stable bases hLarger scope body state hSettled
  | whileLoop span condition body =>
      unfold execute at hSettled ⊢
      exact Outcome.repeatWhile_stable
        (fun state hState => executeAll_stable bases hLarger scope body state hState)
        hLarger state hSettled
  | forLoop span iterator first last direction body =>
      unfold execute at hSettled ⊢
      cases hFirst : first.value? bases (state.valuation scope) with
      | none => rfl
      | some start =>
          cases hLast : last.value? bases (state.valuation scope) with
          | none => rfl
          | some stop =>
              rw [hFirst, hLast] at hSettled
              exact Outcome.countRounds_stable
                (fun value state hState =>
                  executeAll_stable bases hLarger ((iterator, value) :: scope) body state hState)
                _ _ _ hSettled

theorem executeAll_stable (bases : Bases) {bound larger : Nat} (hLarger : bound ≤ larger)
    (scope : Scope) (commands : List Command) (state : SourceState)
    (hSettled : (executeAll bases bound scope commands state).Settled) :
    executeAll bases larger scope commands state =
      executeAll bases bound scope commands state := by
  cases commands with
  | nil => rfl
  | cons command rest =>
      unfold executeAll at hSettled ⊢
      rw [execute_stable bases hLarger scope command state (Outcome.settled_of_andThen hSettled)]
      exact Outcome.andThen_congr hSettled fun after hAfter =>
        executeAll_stable bases hLarger scope rest after hAfter

end

end Command

namespace Program

/-- A run that ends, blocks or reads an unwritten cell does the same under every
larger bound. -/
theorem execute_stable (program : Program) (bases : Bases) (input : Option Feed)
    {bound larger : Nat} (hLarger : bound ≤ larger)
    (hSettled : (program.execute bases input bound).Settled) :
    program.execute bases input larger = program.execute bases input bound :=
  Command.executeAll_stable bases hLarger [] program.body _ hSettled

end Program

end RegisterCompiler
