/-
Runs on filled cells.

Where every cell has a number before the first command, no command reads a cell without
one.  A program without WHILE never exhausts the bound on the rounds of such loops.
-/

import RegisterCompiler.Proofs.Execution

set_option autoImplicit false

namespace RegisterCompiler

/-! ### Values -/

structure Valuation.Total (valuation : Valuation) : Prop where
  scalar : ∀ name, (valuation.scalar name).isSome = true
  cell : ∀ address, (valuation.cell address).isSome = true

section

variable {valuation : Valuation} (hTotal : valuation.Total) (bases : Bases)

include hTotal

private theorem Index.isSome_address? (array : String) (index : Index) :
    (index.address? bases valuation array).isSome = true := by
  cases index with
  | number => rfl
  | name span other => simpa [Index.address?] using hTotal.scalar other

private theorem Reference.isSome_value? (cell : Reference) :
    (cell.value? bases valuation).isSome = true := by
  unfold Reference.value?
  cases cell.index with
  | none => exact hTotal.scalar cell.name
  | some index =>
      obtain ⟨address, hAddress⟩ :=
        Option.isSome_iff_exists.mp (index.isSome_address? hTotal bases cell.name)
      simp only [hAddress, Option.bind_some]
      exact hTotal.cell address

private theorem Atom.isSome_value? (atom : Atom) : (atom.value? bases valuation).isSome = true := by
  cases atom with
  | number => rfl
  | reference cell => exact cell.isSome_value? hTotal bases

private theorem Expression.isSome_value? (expression : Expression) :
    (expression.value? bases valuation).isSome = true := by
  cases expression with
  | atom span value => exact value.isSome_value? hTotal bases
  | operation span left operator right =>
      obtain ⟨first, hFirst⟩ := Option.isSome_iff_exists.mp (left.isSome_value? hTotal bases)
      simp only [Expression.value?, hFirst, Option.bind_some, Option.isSome_map]
      exact right.isSome_value? hTotal bases

private theorem Condition.isSome_holds? (condition : Condition) :
    (condition.holds? bases valuation).isSome = true := by
  obtain ⟨first, hFirst⟩ :=
    Option.isSome_iff_exists.mp (condition.left.isSome_value? hTotal bases)
  simp only [Condition.holds?, hFirst, Option.bind_some, Option.isSome_map]
  exact condition.right.isSome_value? hTotal bases

end

/-! ### States -/

namespace SourceState

structure Total (state : SourceState) : Prop where
  scalars : ∀ name, (state.scalars name).isSome = true
  cells : ∀ address, (state.cells address).isSome = true

def filled (value : Nat) (input : Option Feed) : SourceState where
  scalars := fun _ => some value
  cells := fun _ => some value
  input := input
  output := []

theorem total_filled (value : Nat) (input : Option Feed) : (filled value input).Total :=
  ⟨fun _ => rfl, fun _ => rfl⟩

private theorem isSome_update {α : Type} [DecidableEq α] {cells : α → Option Nat}
    (hCells : ∀ place, (cells place).isSome = true) (place : α) (value : Nat) :
    ∀ other, (Function.update cells place (some value) other).isSome = true := by
  intro other
  by_cases hSame : other = place
  · rw [hSame, Function.update_self]
    rfl
  · rw [Function.update_of_ne hSame]
    exact hCells other

private theorem Total.valuation {state : SourceState} (hTotal : state.Total) (scope : Scope) :
    (state.valuation scope).Total where
  scalar := by
    intro name
    simp only [SourceState.valuation, Option.isSome_or, hTotal.scalars name, Bool.or_true]
  cell := hTotal.cells

private theorem Total.write? {state : SourceState} (hTotal : state.Total) (bases : Bases)
    (scope : Scope) (target : Reference) (value : Nat) :
    ∃ after, state.write? bases scope target value = some after ∧ after.Total := by
  unfold SourceState.write?
  cases target.index with
  | none =>
      dsimp only
      split
      · exact ⟨state, rfl, hTotal⟩
      · exact ⟨_, rfl, isSome_update hTotal.scalars _ _, hTotal.cells⟩
  | some index =>
      obtain ⟨address, hAddress⟩ := Option.isSome_iff_exists.mp
        (index.isSome_address? (hTotal.valuation scope) bases target.name)
      simp only [hAddress, Option.map_some]
      exact ⟨_, rfl, hTotal.scalars, isSome_update hTotal.cells _ _⟩

end SourceState

/-! ### Outcomes -/

namespace Outcome

/-- No cell without a number was read, and every cell has a number at the end. -/
def Total : Outcome → Prop
  | finished state => state.Total
  | blocked _ _ | exhausted _ => True
  | uninitialized => False

private theorem Total.andThen {outcome : Outcome} (hTotal : outcome.Total)
    {next : SourceState → Outcome}
    (hNext : ∀ state : SourceState, state.Total → (next state).Total) :
    (outcome.andThen next).Total := by
  cases outcome with
  | finished state => exact hNext state hTotal
  | _ => exact hTotal

private theorem total_ofWrite {state : SourceState} (hTotal : state.Total) (bases : Bases)
    (scope : Scope) (target : Reference) (value : Nat) :
    (ofWrite (state.write? bases scope target value)).Total := by
  obtain ⟨after, hAfter, hLater⟩ := hTotal.write? bases scope target value
  rw [hAfter]
  exact hLater

private theorem total_repeatWhile {test : SourceState → Option Bool} {run : SourceState → Outcome}
    (hTest : ∀ state : SourceState, state.Total → (test state).isSome = true)
    (hRun : ∀ state : SourceState, state.Total → (run state).Total) (bound : Nat)
    {state : SourceState} (hTotal : state.Total) : (repeatWhile test run bound state).Total := by
  induction bound generalizing state with
  | zero =>
      obtain ⟨holds, hHolds⟩ := Option.isSome_iff_exists.mp (hTest state hTotal)
      unfold repeatWhile
      cases holds with
      | true => simp only [hHolds, Total]
      | false =>
          simp only [hHolds]
          exact hTotal
  | succ bound inductionHypothesis =>
      obtain ⟨holds, hHolds⟩ := Option.isSome_iff_exists.mp (hTest state hTotal)
      unfold repeatWhile
      cases holds with
      | true =>
          simp only [hHolds]
          exact (hRun state hTotal).andThen fun _ hLater => inductionHypothesis hLater
      | false =>
          simp only [hHolds]
          exact hTotal

private theorem total_countRounds {advance : Nat → Nat} {run : Nat → SourceState → Outcome}
    (hRun : ∀ value, ∀ state : SourceState, state.Total → (run value state).Total)
    (rounds value : Nat) {state : SourceState} (hTotal : state.Total) :
    (countRounds advance run rounds value state).Total := by
  induction rounds generalizing value state with
  | zero => exact hTotal
  | succ rounds inductionHypothesis =>
      exact (hRun value state hTotal).andThen fun _ hLater =>
        inductionHypothesis (advance value) hLater

private theorem Settled.andThen {outcome : Outcome} (hSettled : outcome.Settled)
    {next : SourceState → Outcome} (hNext : ∀ state, (next state).Settled) :
    (outcome.andThen next).Settled := by
  cases outcome with
  | finished state => exact hNext state
  | _ => exact hSettled

private theorem settled_countRounds {advance : Nat → Nat} {run : Nat → SourceState → Outcome}
    (hRun : ∀ value state, (run value state).Settled) (rounds value : Nat) (state : SourceState) :
    (countRounds advance run rounds value state).Settled := by
  induction rounds generalizing value state with
  | zero => exact fun _ => nofun
  | succ rounds inductionHypothesis =>
      exact (hRun value state).andThen fun _ => inductionHypothesis (advance value) _

end Outcome

/-! ### Commands -/

namespace Command

mutual

/-- On filled cells a command reads no cell without a number. -/
theorem execute_total (bases : Bases) (bound : Nat) (scope : Scope) (command : Command)
    {state : SourceState} (hTotal : state.Total) :
    (execute bases bound scope command state).Total := by
  have hValuation := hTotal.valuation scope
  cases command with
  | assign span target value =>
      obtain ⟨number, hNumber⟩ :=
        Option.isSome_iff_exists.mp (value.isSome_value? hValuation bases)
      simp only [execute, hNumber]
      exact Outcome.total_ofWrite hTotal bases scope target number
  | read span target =>
      simp only [execute]
      cases takeNumber state.input with
      | mk result rest =>
          cases result with
          | error cause => trivial
          | ok number =>
              have hRest : SourceState.Total { state with input := rest } :=
                ⟨hTotal.scalars, hTotal.cells⟩
              exact Outcome.total_ofWrite hRest bases scope target number
  | write span value =>
      obtain ⟨number, hNumber⟩ :=
        Option.isSome_iff_exists.mp (value.isSome_value? hValuation bases)
      simp only [execute, hNumber]
      exact ⟨hTotal.scalars, hTotal.cells⟩
  | skip span => exact hTotal
  | ifThen span condition body =>
      obtain ⟨holds, hHolds⟩ :=
        Option.isSome_iff_exists.mp (condition.isSome_holds? hValuation bases)
      cases holds with
      | true =>
          simp only [execute, hHolds]
          exact executeAll_total bases bound scope body hTotal
      | false =>
          simp only [execute, hHolds]
          exact hTotal
  | ifElse span condition body orElse =>
      obtain ⟨holds, hHolds⟩ :=
        Option.isSome_iff_exists.mp (condition.isSome_holds? hValuation bases)
      cases holds with
      | true =>
          simp only [execute, hHolds]
          exact executeAll_total bases bound scope body hTotal
      | false =>
          simp only [execute, hHolds]
          exact executeAll_total bases bound scope orElse hTotal
  | whileLoop span condition body =>
      rw [execute]
      exact Outcome.total_repeatWhile
        (fun _ hLater => condition.isSome_holds? (hLater.valuation scope) bases)
        (fun _ hLater => executeAll_total bases bound scope body hLater) bound hTotal
  | forLoop span iterator first last direction body =>
      obtain ⟨start, hStart⟩ :=
        Option.isSome_iff_exists.mp (first.isSome_value? hValuation bases)
      obtain ⟨stop, hStop⟩ :=
        Option.isSome_iff_exists.mp (last.isSome_value? hValuation bases)
      simp only [execute, hStart, hStop]
      exact Outcome.total_countRounds
        (fun value _ hLater =>
          executeAll_total bases bound ((iterator, value) :: scope) body hLater) _ _ hTotal

theorem executeAll_total (bases : Bases) (bound : Nat) (scope : Scope) (commands : List Command)
    {state : SourceState} (hTotal : state.Total) :
    (executeAll bases bound scope commands state).Total := by
  cases commands with
  | nil => exact hTotal
  | cons command rest =>
      rw [executeAll]
      exact (execute_total bases bound scope command hTotal).andThen fun _ hLater =>
        executeAll_total bases bound scope rest hLater

end

mutual

def hasWhile : Command → Bool
  | .assign .. | .read .. | .write .. | .skip _ => false
  | .ifThen _ _ body => anyWhile body
  | .ifElse _ _ body orElse => anyWhile body || anyWhile orElse
  | .whileLoop .. => true
  | .forLoop _ _ _ _ _ body => anyWhile body

def anyWhile : List Command → Bool
  | [] => false
  | command :: rest => hasWhile command || anyWhile rest

end

mutual

/-- A command without WHILE never exhausts a bound. -/
theorem execute_settled (bases : Bases) (bound : Nat) (scope : Scope) {command : Command}
    (hCounted : command.hasWhile = false) (state : SourceState) :
    (execute bases bound scope command state).Settled := by
  cases command with
  | assign span target value =>
      simp only [execute]
      cases value.value? bases (state.valuation scope) with
      | none => exact fun _ => nofun
      | some number =>
          dsimp only
          cases state.write? bases scope target number <;> exact fun _ => nofun
  | read span target =>
      simp only [execute]
      cases takeNumber state.input with
      | mk result rest =>
          cases result with
          | error cause => exact fun _ => nofun
          | ok number =>
              dsimp only
              cases SourceState.write? { state with input := rest } bases scope target number <;>
                exact fun _ => nofun
  | write span value =>
      simp only [execute]
      cases value.value? bases (state.valuation scope) <;> exact fun _ => nofun
  | skip span => exact fun _ => nofun
  | ifThen span condition body =>
      simp only [execute]
      cases condition.holds? bases (state.valuation scope) with
      | none => exact fun _ => nofun
      | some holds =>
          cases holds with
          | true => exact executeAll_settled bases bound scope hCounted state
          | false => exact fun _ => nofun
  | ifElse span condition body orElse =>
      simp only [hasWhile, Bool.or_eq_false_iff] at hCounted
      simp only [execute]
      cases condition.holds? bases (state.valuation scope) with
      | none => exact fun _ => nofun
      | some holds =>
          cases holds with
          | true => exact executeAll_settled bases bound scope hCounted.1 state
          | false => exact executeAll_settled bases bound scope hCounted.2 state
  | whileLoop span condition body => exact absurd hCounted Bool.true_eq_false.mp
  | forLoop span iterator first last direction body =>
      simp only [execute]
      cases first.value? bases (state.valuation scope) with
      | none => exact fun _ => nofun
      | some start =>
          cases last.value? bases (state.valuation scope) with
          | none => exact fun _ => nofun
          | some stop =>
              exact Outcome.settled_countRounds (fun value later =>
                executeAll_settled bases bound ((iterator, value) :: scope) hCounted later) _ _ _

theorem executeAll_settled (bases : Bases) (bound : Nat) (scope : Scope) {commands : List Command}
    (hCounted : anyWhile commands = false) (state : SourceState) :
    (executeAll bases bound scope commands state).Settled := by
  cases commands with
  | nil => exact fun _ => nofun
  | cons command rest =>
      simp only [anyWhile, Bool.or_eq_false_iff] at hCounted
      rw [executeAll]
      exact (execute_settled bases bound scope hCounted.1 state).andThen fun later =>
        executeAll_settled bases bound scope hCounted.2 later

end

end Command

end RegisterCompiler
