/-
Simplifying keeps the meaning of a program.

A program that never reads an unwritten cell has, under every bound on its loops,
the very same outcome after simplifying: the same cells, the same input left and
the same output, whether it ends, blocks or goes on.
-/

import RegisterCompiler.Program.Simplify
import RegisterCompiler.Proofs.Execution

set_option autoImplicit false

namespace RegisterCompiler

/-! ### Operands -/

theorem Atom.value?_of_isNumber {bases : Bases} {valuation : Valuation} {atom : Atom} {value : Nat}
    (hNumber : atom.isNumber value = true) : atom.value? bases valuation = some value := by
  cases atom with
  | number span found =>
      have hFound : found = value := by simpa [Atom.isNumber, Atom.number?] using hNumber
      rw [hFound]
      rfl
  | reference cell => simp [Atom.isNumber, Atom.number?] at hNumber

theorem Reference.value?_of_sameCell {bases : Bases} {valuation : Valuation}
    {left right : Reference} (hSame : left.sameCell right = true) :
    left.value? bases valuation = right.value? bases valuation := by
  simp only [Reference.sameCell, Bool.and_eq_true, beq_iff_eq] at hSame
  obtain ⟨hName, hIndex⟩ := hSame
  unfold Reference.value?
  cases hLeft : left.index with
  | none =>
      cases hRight : right.index with
      | none => simp only [hName]
      | some rightIndex => simp [hLeft, hRight] at hIndex
  | some leftIndex =>
      cases hRight : right.index with
      | none => cases leftIndex <;> simp [hLeft, hRight] at hIndex
      | some rightIndex =>
          cases leftIndex <;> cases rightIndex <;> simp [hLeft, hRight] at hIndex <;>
            simp only [Index.address?, hName, hIndex]

private theorem Atom.value?_of_sameCell {bases : Bases} {valuation : Valuation} {left right : Atom}
    (hSame : left.sameCell right = true) :
    left.value? bases valuation = right.value? bases valuation := by
  cases left with
  | number span value => simp [Atom.sameCell] at hSame
  | reference leftCell =>
      cases right with
      | number span value => simp [Atom.sameCell] at hSame
      | reference rightCell => exact Reference.value?_of_sameCell hSame

/-! ### Expressions and conditions -/

/-- The value of an operation whose operands have values. -/
theorem Expression.value?_operation {bases : Bases} {valuation : Valuation}
    {span : Source.Span} {left right : Atom} {operator : Operator} {value : Nat}
    (hValue : (Expression.operation span left operator right).value? bases valuation =
      some value) :
    ∃ first second, left.value? bases valuation = some first ∧
      right.value? bases valuation = some second ∧ operator.eval first second = value := by
  simp only [Expression.value?, Option.bind_eq_some_iff, Option.map_eq_some_iff] at hValue
  obtain ⟨first, hFirst, second, hSecond, hEval⟩ := hValue
  exact ⟨first, second, hFirst, hSecond, hEval⟩

theorem Expression.value?_simplify {bases : Bases} {valuation : Valuation}
    {expression : Expression} {value : Nat}
    (hValue : expression.value? bases valuation = some value) :
    expression.simplify.value? bases valuation = some value := by
  cases expression with
  | atom span atom => exact hValue
  | operation span left operator right =>
      obtain ⟨first, second, hFirst, hSecond, hEval⟩ := Expression.value?_operation hValue
      -- an operand that is a given number has that number as its value
      have hLeft : ∀ number, left.isNumber number = true → first = number := by
        intro number hNumber
        rw [Atom.value?_of_isNumber hNumber] at hFirst
        exact (Option.some.inj hFirst).symm
      have hRight : ∀ number, right.isNumber number = true → second = number := by
        intro number hNumber
        rw [Atom.value?_of_isNumber hNumber] at hSecond
        exact (Option.some.inj hSecond).symm
      have hCell : left.sameCell right = true → first = second := by
        intro hSame
        rw [Atom.value?_of_sameCell hSame, hSecond] at hFirst
        exact (Option.some.inj hFirst).symm
      subst hEval
      dsimp only [Expression.simplify]
      split
      · simp only [Atom.value?, Option.some.injEq] at hFirst hSecond
        subst hFirst hSecond
        rfl
      · cases operator with
        | add =>
            dsimp only
            split
            · rename_i hZero
              rw [hRight 0 hZero]
              exact hFirst
            · split
              · rename_i hZero
                rw [hLeft 0 hZero, Operator.eval, Nat.zero_add]
                exact hSecond
              · exact hValue
        | sub =>
            dsimp only
            split
            · rename_i hZero
              rw [hRight 0 hZero]
              exact hFirst
            · split
              · rename_i hEither
                have hEmpty : first - second = 0 := by
                  rcases Bool.or_eq_true_iff.mp hEither with hZero | hSame
                  · rw [hLeft 0 hZero, Nat.zero_sub]
                  · rw [hCell hSame, Nat.sub_self]
                rw [Operator.eval, hEmpty]
                rfl
              · exact hValue
        | mul =>
            dsimp only
            split
            · rename_i hEither
              have hEmpty : first * second = 0 := by
                rcases Bool.or_eq_true_iff.mp hEither with hZero | hZero
                · rw [hLeft 0 hZero, Nat.zero_mul]
                · rw [hRight 0 hZero, Nat.mul_zero]
              rw [Operator.eval, hEmpty]
              rfl
            · split
              · rename_i hOne
                rw [hRight 1 hOne, Operator.eval, Nat.mul_one]
                exact hFirst
              · split
                · rename_i hOne
                  rw [hLeft 1 hOne, Operator.eval, Nat.one_mul]
                  exact hSecond
                · exact hValue
        | div =>
            dsimp only
            split
            · rename_i hEither
              have hEmpty : first / second = 0 := by
                rcases Bool.or_eq_true_iff.mp hEither with hZero | hZero
                · rw [hRight 0 hZero, Nat.div_zero]
                · rw [hLeft 0 hZero, Nat.zero_div]
              rw [Operator.eval, hEmpty]
              rfl
            · split
              · rename_i hOne
                rw [hRight 1 hOne, Operator.eval, Nat.div_one]
                exact hFirst
              · exact hValue
        | mod =>
            dsimp only
            split
            · rename_i hAny
              have hEmpty : Operator.mod.eval first second = 0 := by
                simp only [Bool.or_eq_true] at hAny
                rcases hAny with (hZero | hOne) | hZero
                · rw [hRight 0 hZero]
                  rfl
                · rw [hRight 1 hOne, Operator.eval, if_neg Nat.one_ne_zero, Nat.mod_one]
                · rw [hLeft 0 hZero, Operator.eval, Nat.zero_mod, ite_self]
              rw [hEmpty]
              rfl
            · exact hValue

private theorem Condition.holds?_eq_some {bases : Bases} {valuation : Valuation}
    {condition : Condition} {outcome : Bool}
    (hHolds : condition.holds? bases valuation = some outcome) :
    ∃ left right : Nat, condition.left.value? bases valuation = some left ∧
      condition.right.value? bases valuation = some right ∧
      condition.relation.holds left right = outcome := by
  simp only [Condition.holds?, Option.bind_eq_some_iff, Option.map_eq_some_iff] at hHolds
  obtain ⟨left, hLeft, right, hRight, hOutcome⟩ := hHolds
  exact ⟨left, right, hLeft, hRight, hOutcome⟩

private theorem Condition.holds?_simplify {bases : Bases} {valuation : Valuation}
    {condition : Condition} {outcome : Bool}
    (hHolds : condition.holds? bases valuation = some outcome) :
    condition.simplify.holds? bases valuation = some outcome := by
  obtain ⟨left, right, hLeft, hRight, hOutcome⟩ := Condition.holds?_eq_some hHolds
  unfold Condition.simplify
  split
  · rename_i hSame
    have hEqual : left = right := by
      rw [Atom.value?_of_sameCell hSame, hRight] at hLeft
      exact (Option.some.inj hLeft).symm
    subst hEqual hOutcome
    cases hRelation : condition.relation <;>
      simp [Condition.holds?, Atom.value?, Relation.holds]
  · exact hHolds

private theorem Condition.holds?_of_static? (bases : Bases) (valuation : Valuation)
    {condition : Condition} {outcome : Bool} (hStatic : condition.static? = some outcome) :
    condition.holds? bases valuation = some outcome := by
  unfold Condition.static? at hStatic
  split at hStatic
  · rename_i leftSpan left rightSpan right hLeft hRight
    simp only [Condition.holds?, hLeft, hRight, Atom.value?]
    exact hStatic
  · contradiction

/-! ### Commands -/

theorem Outcome.andThen_finished (outcome : Outcome) : outcome.andThen .finished = outcome := by
  cases outcome <;> rfl

private theorem Outcome.andThen_assoc (outcome : Outcome) (first second : SourceState → Outcome) :
    (outcome.andThen first).andThen second =
      outcome.andThen fun state => (first state).andThen second := by
  cases outcome <;> rfl

private theorem Command.executeAll_append (bases : Bases) (bound : Nat) (scope : Scope)
    (first second : List Command) (state : SourceState) :
    executeAll bases bound scope (first ++ second) state =
      (executeAll bases bound scope first state).andThen
        (executeAll bases bound scope second) := by
  induction first generalizing state with
  | nil => rfl
  | cons command rest inductionHypothesis =>
      simp only [List.cons_append, executeAll, Outcome.andThen_assoc]
      congr 1
      funext after
      exact inductionHypothesis after

private theorem Command.executeAll_singleton (bases : Bases) (bound : Nat) (scope : Scope)
    (command : Command) (state : SourceState) :
    executeAll bases bound scope [command] state = execute bases bound scope command state :=
  Outcome.andThen_finished _

/-- Writing a cell's own value to it changes nothing. -/
theorem SourceState.write?_self {state : SourceState} {bases : Bases} {scope : Scope}
    {target : Reference} {value : Nat}
    (hValue : target.value? bases (state.valuation scope) = some value) :
    state.write? bases scope target value = some state := by
  unfold Reference.value? at hValue
  unfold SourceState.write?
  cases hIndex : target.index with
  | none =>
      simp only [hIndex, SourceState.valuation] at hValue
      cases hScope : scope.lookup target.name with
      | some found => rfl
      | none =>
          simp only [hScope, Option.none_or] at hValue
          simp only [Option.isSome_none, Bool.false_eq_true, if_false, ← hValue,
            Function.update_eq_self]
  | some index =>
      simp only [hIndex, Option.bind_eq_some_iff] at hValue
      obtain ⟨address, hAddress, hCell⟩ := hValue
      have hSame : Function.update state.cells address (some value) = state.cells := by
        rw [← hCell]
        exact Function.update_eq_self address state.cells
      simp only [hAddress, Option.map_some, hSame]

namespace Outcome

private theorem ne_uninitialized_of_andThen {outcome : Outcome} {next : SourceState → Outcome}
    (hDefined : outcome.andThen next ≠ uninitialized) : outcome ≠ uninitialized := by
  intro hOutcome
  subst hOutcome
  exact hDefined rfl

/-- Runs may be exchanged in a sequence where they agree on every initialized
way on. -/
theorem andThen_congr_of_defined {outcome : Outcome} {first second : SourceState → Outcome}
    (hDefined : outcome.andThen first ≠ uninitialized)
    (hSame : ∀ state, first state ≠ uninitialized → second state = first state) :
    outcome.andThen second = outcome.andThen first := by
  cases outcome with
  | finished state => exact hSame state hDefined
  | blocked cause state => rfl
  | exhausted state => rfl
  | uninitialized => rfl

private theorem repeatWhile_congr {firstTest secondTest : SourceState → Option Bool}
    {first second : SourceState → Outcome}
    (hTest : ∀ state holds, firstTest state = some holds → secondTest state = some holds)
    (hSame : ∀ state, first state ≠ uninitialized → second state = first state)
    (bound : Nat) (state : SourceState)
    (hDefined : repeatWhile firstTest first bound state ≠ uninitialized) :
    repeatWhile secondTest second bound state = repeatWhile firstTest first bound state := by
  induction bound generalizing state with
  | zero =>
      unfold repeatWhile at hDefined ⊢
      cases hHolds : firstTest state with
      | none => simp [hHolds] at hDefined
      | some holds => rw [hTest state holds hHolds]
  | succ bound inductionHypothesis =>
      unfold repeatWhile at hDefined ⊢
      cases hHolds : firstTest state with
      | none => simp [hHolds] at hDefined
      | some holds =>
          rw [hTest state holds hHolds]
          rw [hHolds] at hDefined
          cases holds with
          | false => rfl
          | true =>
              have hFirst : second state = first state :=
                hSame state (ne_uninitialized_of_andThen hDefined)
              simp only [hFirst]
              exact andThen_congr_of_defined hDefined inductionHypothesis

private theorem countRounds_congr {advance : Nat → Nat} {first second : Nat → SourceState → Outcome}
    (hSame : ∀ value state, first value state ≠ uninitialized →
      second value state = first value state)
    (rounds value : Nat) (state : SourceState)
    (hDefined : countRounds advance first rounds value state ≠ uninitialized) :
    countRounds advance second rounds value state =
      countRounds advance first rounds value state := by
  induction rounds generalizing value state with
  | zero => rfl
  | succ rounds inductionHypothesis =>
      have hFirst : second value state = first value state :=
        hSame value state (ne_uninitialized_of_andThen hDefined)
      simp only [countRounds, hFirst]
      exact andThen_congr_of_defined hDefined (inductionHypothesis (advance value))

private theorem repeatWhile_of_false {test : SourceState → Option Bool}
    {run : SourceState → Outcome} {state : SourceState} (hTest : test state = some false)
    (bound : Nat) :
    repeatWhile test run bound state = finished state := by
  unfold repeatWhile
  rw [hTest]

end Outcome

/-- A counting loop between numbers in the wrong order has no round. -/
theorem Direction.rounds_of_isEmpty {direction : Direction} {first last : Atom} {bases : Bases}
    {valuation : Valuation} {start stop : Nat} (hEmpty : direction.isEmpty first last = true)
    (hFirst : first.value? bases valuation = some start)
    (hLast : last.value? bases valuation = some stop) :
    direction.rounds start stop = 0 := by
  cases first with
  | reference cell => simp [Direction.isEmpty, Atom.number?] at hEmpty
  | number firstSpan firstValue =>
      cases last with
      | reference cell => simp [Direction.isEmpty, Atom.number?] at hEmpty
      | number lastSpan lastValue =>
          simp only [Atom.value?, Option.some.injEq] at hFirst hLast
          subst hFirst hLast
          cases direction with
          | up =>
              have hOrder : lastValue < firstValue := by
                simpa [Direction.isEmpty, Atom.number?] using hEmpty
              simp only [Direction.rounds]
              omega
          | down =>
              have hOrder : firstValue < lastValue := by
                simpa [Direction.isEmpty, Atom.number?] using hEmpty
              simp only [Direction.rounds]
              omega

private theorem Expression.value?_of_isCell {bases : Bases} {valuation : Valuation}
    {expression : Expression} {cell : Reference} (hCell : expression.isCell cell = true) :
    expression.value? bases valuation = cell.value? bases valuation := by
  unfold Expression.isCell at hCell
  split at hCell
  · exact (Reference.value?_of_sameCell hCell).symm
  · contradiction

/-- What is settled before the run is what the run finds. -/
theorem Condition.eq_of_static?_simplify {bases : Bases} {valuation : Valuation}
    {condition : Condition} {known holds : Bool}
    (hStatic : condition.simplify.static? = some known)
    (hHolds : condition.holds? bases valuation = some holds) : known = holds :=
  Option.some.inj ((Condition.holds?_of_static? bases valuation hStatic).symm.trans
    (Condition.holds?_simplify hHolds))

namespace Command

section Cases

variable {bases : Bases} {bound : Nat} {scope : Scope} {state : SourceState}

private theorem executeAll_simplify_assign {span : Source.Span} {target : Reference}
    {value : Expression}
    (hDefined : execute bases bound scope (.assign span target value) state ≠ .uninitialized) :
    executeAll bases bound scope (simplify (.assign span target value)) state =
      execute bases bound scope (.assign span target value) state := by
  cases hValue : value.value? bases (state.valuation scope) with
  | none => simp [execute, hValue] at hDefined
  | some number =>
      have hSimple := Expression.value?_simplify hValue
      simp only [simplify]
      split
      · rename_i hCell
        -- the dropped command writes the value its target already has
        rw [Expression.value?_of_isCell hCell] at hSimple
        simp only [execute, hValue, SourceState.write?_self hSimple]
        rfl
      · rw [executeAll_singleton]
        simp only [execute, hValue, hSimple]

variable {body orElse : List Command}
  (hBody : ∀ scope state, executeAll bases bound scope body state ≠ .uninitialized →
    executeAll bases bound scope (simplifyAll body) state =
      executeAll bases bound scope body state)
  (hOrElse : ∀ scope state, executeAll bases bound scope orElse state ≠ .uninitialized →
    executeAll bases bound scope (simplifyAll orElse) state =
      executeAll bases bound scope orElse state)

include hBody

include hOrElse in
private theorem executeAll_simplify_ifElse {span : Source.Span} {condition : Condition}
    (hDefined : execute bases bound scope (.ifElse span condition body orElse) state ≠
      .uninitialized) :
    executeAll bases bound scope (simplify (.ifElse span condition body orElse)) state =
      execute bases bound scope (.ifElse span condition body orElse) state := by
  cases hHolds : condition.holds? bases (state.valuation scope) with
  | none => simp [execute, hHolds] at hDefined
  | some holds =>
      have hSimple := Condition.holds?_simplify hHolds
      have hKnown : ∀ known, condition.simplify.static? = some known → known = holds :=
        fun known hStatic => Condition.eq_of_static?_simplify hStatic hHolds
      simp only [execute, hHolds] at hDefined ⊢
      cases holds with
      | true =>
          rw [← hBody scope state hDefined]
          simp only [simplify]
          split
          · rfl
          · rename_i hStatic
            cases hKnown false hStatic
          · rw [executeAll_singleton]
            simp only [execute, hSimple]
      | false =>
          rw [← hOrElse scope state hDefined]
          simp only [simplify]
          split
          · rename_i hStatic
            cases hKnown true hStatic
          · rfl
          · rw [executeAll_singleton]
            simp only [execute, hSimple]

private theorem executeAll_simplify_ifThen {span : Source.Span} {condition : Condition}
    (hDefined : execute bases bound scope (.ifThen span condition body) state ≠ .uninitialized) :
    executeAll bases bound scope (simplify (.ifThen span condition body)) state =
      execute bases bound scope (.ifThen span condition body) state := by
  -- without a second branch the command is one whose second branch is empty
  have hSame : execute bases bound scope (.ifThen span condition body) state =
      execute bases bound scope (.ifElse span condition body []) state := by
    simp only [execute, executeAll]
  have hSimple : simplify (.ifThen span condition body) =
      simplify (.ifElse span condition body []) := by
    simp only [simplify, simplifyAll]
  rw [hSame] at hDefined
  rw [hSame, hSimple]
  exact executeAll_simplify_ifElse hBody (fun _ _ _ => rfl) hDefined

private theorem executeAll_simplify_whileLoop {span : Source.Span} {condition : Condition}
    (hDefined : execute bases bound scope (.whileLoop span condition body) state ≠
      .uninitialized) :
    executeAll bases bound scope (simplify (.whileLoop span condition body)) state =
      execute bases bound scope (.whileLoop span condition body) state := by
  simp only [simplify]
  split
  · rename_i hStatic
    cases hHolds : condition.holds? bases (state.valuation scope) with
    | none =>
        unfold execute Outcome.repeatWhile at hDefined
        simp [hHolds] at hDefined
    | some holds =>
        obtain rfl := Condition.eq_of_static?_simplify hStatic hHolds
        unfold execute
        rw [Outcome.repeatWhile_of_false hHolds]
        rfl
  · rw [executeAll_singleton]
    unfold execute at hDefined ⊢
    exact Outcome.repeatWhile_congr (fun state holds hHolds => Condition.holds?_simplify hHolds)
      (hBody scope) bound state hDefined

private theorem executeAll_simplify_forLoop {span : Source.Span} {iterator : String}
    {first last : Atom} {direction : Direction}
    (hDefined : execute bases bound scope (.forLoop span iterator first last direction body)
      state ≠ .uninitialized) :
    executeAll bases bound scope (simplify (.forLoop span iterator first last direction body))
        state =
      execute bases bound scope (.forLoop span iterator first last direction body) state := by
  cases hFirst : first.value? bases (state.valuation scope) with
  | none => simp [execute, hFirst] at hDefined
  | some start =>
      cases hLast : last.value? bases (state.valuation scope) with
      | none => simp [execute, hFirst, hLast] at hDefined
      | some stop =>
          simp only [simplify]
          split
          · rename_i hEmpty
            simp only [execute, hFirst, hLast, Direction.rounds_of_isEmpty hEmpty hFirst hLast]
            rfl
          · rw [executeAll_singleton]
            simp only [execute, hFirst, hLast] at hDefined ⊢
            exact Outcome.countRounds_congr
              (fun value state hState => hBody ((iterator, value) :: scope) state hState)
              _ _ state hDefined

end Cases

mutual

theorem executeAll_simplify (bases : Bases) (bound : Nat) (scope : Scope) (command : Command)
    (state : SourceState) (hDefined : execute bases bound scope command state ≠ .uninitialized) :
    executeAll bases bound scope command.simplify state =
      execute bases bound scope command state := by
  cases command with
  | assign span target value => exact executeAll_simplify_assign hDefined
  | read span target => exact executeAll_singleton bases bound scope _ state
  | write span value => exact executeAll_singleton bases bound scope _ state
  | skip span => exact executeAll_singleton bases bound scope _ state
  | ifThen span condition body =>
      exact executeAll_simplify_ifThen
        (fun scope state => executeAll_simplifyAll bases bound scope body state) hDefined
  | ifElse span condition body orElse =>
      exact executeAll_simplify_ifElse
        (fun scope state => executeAll_simplifyAll bases bound scope body state)
        (fun scope state => executeAll_simplifyAll bases bound scope orElse state) hDefined
  | whileLoop span condition body =>
      exact executeAll_simplify_whileLoop
        (fun scope state => executeAll_simplifyAll bases bound scope body state) hDefined
  | forLoop span iterator first last direction body =>
      exact executeAll_simplify_forLoop
        (fun scope state => executeAll_simplifyAll bases bound scope body state) hDefined

theorem executeAll_simplifyAll (bases : Bases) (bound : Nat) (scope : Scope)
    (commands : List Command) (state : SourceState)
    (hDefined : executeAll bases bound scope commands state ≠ .uninitialized) :
    executeAll bases bound scope (simplifyAll commands) state =
      executeAll bases bound scope commands state := by
  cases commands with
  | nil => rfl
  | cons command rest =>
      unfold executeAll at hDefined
      rw [simplifyAll, executeAll_append,
        executeAll_simplify bases bound scope command state
          (Outcome.ne_uninitialized_of_andThen hDefined)]
      exact Outcome.andThen_congr_of_defined hDefined fun after hAfter =>
        executeAll_simplifyAll bases bound scope rest after hAfter

end

end Command

namespace Program

/-- Under every bound that leads to no unwritten cell, simplifying keeps the
outcome. -/
theorem execute_simplify {program : Program} {bases : Bases} {input : Option Feed} {bound : Nat}
    (hDefined : program.execute bases input bound ≠ .uninitialized) :
    program.simplify.execute bases input bound = program.execute bases input bound :=
  Command.executeAll_simplifyAll bases bound [] program.body _ hDefined

/-- A program that never reads an unwritten cell behaves the same after
simplifying: it ends in the same cells with the same input left and the same
output, or blocks there, or goes on forever. -/
theorem simplify_preserves_behaviour (program : Program) (bases : Bases) (input : Option Feed)
    (hInitialized : program.Initialized bases input) :
    program.simplify.Initialized bases input ∧
      (∀ state, program.simplify.Ends bases input state ↔ program.Ends bases input state) ∧
      (∀ cause state,
        program.simplify.Blocks bases input cause state ↔
          program.Blocks bases input cause state) ∧
      (program.simplify.Diverges bases input ↔ program.Diverges bases input) ∧
      ∀ bound, program.simplify.execute bases input bound = program.execute bases input bound := by
  have hSame : ∀ bound,
      program.simplify.execute bases input bound = program.execute bases input bound :=
    fun bound => execute_simplify (hInitialized bound)
  refine ⟨?_, ?_, ?_, ?_, hSame⟩
  · intro bound
    rw [hSame bound]
    exact hInitialized bound
  · intro state
    simp only [Ends, hSame]
  · intro cause state
    simp only [Blocks, hSame]
  · simp only [Diverges, hSame]

/-- Reads a number and writes it back, among commands that simplifying removes. -/
def echo : Program :=
  let cell : Reference := ⟨default, "n", none⟩
  let operand : Atom := .reference cell
  ⟨default, [⟨default, "n", none⟩],
    [ .read default cell,
      .assign default cell (.operation default operand .add (.number default 0)),
      .ifThen default ⟨default, operand, .equal, operand⟩ [.write default operand],
      .whileLoop default ⟨default, operand, .less, operand⟩ [.skip default] ]⟩

def sevenOnly : Option Feed := some ⟨[.word [⟨'7', [55]⟩]], false⟩

private theorem execute_echo (bound : Nat) :
    echo.execute (fun _ => 0) sevenOnly bound =
      .finished ⟨Function.update (fun _ => none) "n" (some 7), fun _ => none,
        some ⟨[], false⟩, [7]⟩ := by
  simp only [echo, sevenOnly, Program.execute, Command.executeAll, Command.execute]
  simp [takeNumber, Text.integer?, Text.natural?, Text.isDigit, Text.digitsValue,
    Text.digitValue, Option.filter, SourceState.write?, SourceState.initial,
    SourceState.valuation, Outcome.andThen, Outcome.ofWrite, Expression.value?, Atom.value?,
    Reference.value?, Condition.holds?, Operator.eval, Relation.holds]
  rw [Outcome.repeatWhile_of_false (by simp)]

theorem echo_simplify_preserves_behaviour :
    echo.Initialized (fun _ => 0) sevenOnly ∧ echo.simplify.body.length = 2 ∧
      ∃ state, state.output = [7] ∧ echo.Ends (fun _ => 0) sevenOnly state ∧
        echo.simplify.Ends (fun _ => 0) sevenOnly state := by
  have hInitialized : echo.Initialized (fun _ => 0) sevenOnly := by
    intro bound
    rw [execute_echo]
    exact Outcome.noConfusion
  have hBehaviour := simplify_preserves_behaviour echo (fun _ => 0) sevenOnly hInitialized
  refine ⟨hInitialized, rfl, _, rfl, ⟨0, execute_echo 0⟩, ?_⟩
  exact (hBehaviour.2.1 _).mpr ⟨0, execute_echo 0⟩

end Program

end RegisterCompiler
