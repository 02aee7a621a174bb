/-
The rewrites of a program.

A relation lists the rewrites that may be made anywhere in a program.  Simplifying a program
makes a chain of them, then gives every conditional an ELSE part; in what it returns none of
them applies any more.  So a second pass finds nothing to do.
-/

import Mathlib.Logic.Relation
import RegisterCompiler.Program.Simplify

set_option autoImplicit false

namespace RegisterCompiler

open Source (Span)

/-! ### Cells -/

/-- References to the same cell: to one scalar, or to one array at the same number or the same
name. -/
inductive Reference.Same : Reference → Reference → Prop where
  | scalar (left right : Span) (name : String) : Same ⟨left, name, none⟩ ⟨right, name, none⟩
  | numbered (left right leftIndex rightIndex : Span) (name : String) (value : Nat) :
      Same ⟨left, name, some (.number leftIndex value)⟩
        ⟨right, name, some (.number rightIndex value)⟩
  | named (left right leftIndex rightIndex : Span) (name index : String) :
      Same ⟨left, name, some (.name leftIndex index)⟩
        ⟨right, name, some (.name rightIndex index)⟩

private theorem Reference.sameCell_iff {left right : Reference} :
    left.sameCell right = true ↔ left.Same right := by
  constructor
  · intro hSame
    obtain ⟨leftSpan, leftName, leftIndex⟩ := left
    obtain ⟨rightSpan, rightName, rightIndex⟩ := right
    rw [sameCell, Bool.and_eq_true, beq_iff_eq] at hSame
    obtain ⟨rfl, hIndex⟩ := hSame
    rcases leftIndex with _ | ⟨leftIndex, leftValue⟩ | ⟨leftIndex, leftValue⟩ <;>
      rcases rightIndex with _ | ⟨rightIndex, rightValue⟩ | ⟨rightIndex, rightValue⟩ <;>
      simp only [beq_iff_eq, reduceCtorEq] at hIndex
    · exact .scalar _ _ _
    · subst hIndex
      exact .numbered _ _ _ _ _ _
    · subst hIndex
      exact .named _ _ _ _ _ _
  · intro hSame
    cases hSame <;> simp [sameCell]

inductive Atom.Same : Atom → Atom → Prop where
  | reference {left right : Reference} (hSame : left.Same right) :
      Same (.reference left) (.reference right)

private theorem Atom.sameCell_iff {left right : Atom} :
    left.sameCell right = true ↔ left.Same right := by
  constructor
  · intro hSame
    cases left with
    | number span value => exact absurd hSame Bool.false_ne_true
    | reference left =>
        cases right with
        | number span value => exact absurd hSame Bool.false_ne_true
        | reference right => exact .reference (Reference.sameCell_iff.mp hSame)
  · intro hSame
    cases hSame with
    | reference hSame => exact Reference.sameCell_iff.mpr hSame

private theorem Atom.isNumber_iff {atom : Atom} {value : Nat} :
    atom.isNumber value = true ↔ ∃ span, atom = .number span value := by
  cases atom <;> simp [isNumber, number?]

/-! ### Expressions -/

/-- The rewrites of an operation: two numbers are calculated, a neutral operand is dropped, an
absorbing one leaves zero, and so does a cell taken from itself. -/
inductive Expression.Folds : Expression → Expression → Prop where
  | numbers (span leftSpan rightSpan : Span) (left right : Nat) (operator : Operator) :
      Folds (.operation span (.number leftSpan left) operator (.number rightSpan right))
        (.atom span (.number span (operator.eval left right)))
  | addZero (span zero : Span) (value : Atom) :
      Folds (.operation span value .add (.number zero 0)) (.atom span value)
  | zeroAdd (span zero : Span) (value : Atom) :
      Folds (.operation span (.number zero 0) .add value) (.atom span value)
  | subZero (span zero : Span) (value : Atom) :
      Folds (.operation span value .sub (.number zero 0)) (.atom span value)
  | mulOne (span one : Span) (value : Atom) :
      Folds (.operation span value .mul (.number one 1)) (.atom span value)
  | oneMul (span one : Span) (value : Atom) :
      Folds (.operation span (.number one 1) .mul value) (.atom span value)
  | divOne (span one : Span) (value : Atom) :
      Folds (.operation span value .div (.number one 1)) (.atom span value)
  | zeroSub (span zero : Span) (value : Atom) :
      Folds (.operation span (.number zero 0) .sub value) (.atom span (.number span 0))
  | mulZero (span zero : Span) (value : Atom) :
      Folds (.operation span value .mul (.number zero 0)) (.atom span (.number span 0))
  | zeroMul (span zero : Span) (value : Atom) :
      Folds (.operation span (.number zero 0) .mul value) (.atom span (.number span 0))
  | divZero (span zero : Span) (value : Atom) :
      Folds (.operation span value .div (.number zero 0)) (.atom span (.number span 0))
  | zeroDiv (span zero : Span) (value : Atom) :
      Folds (.operation span (.number zero 0) .div value) (.atom span (.number span 0))
  | modZero (span zero : Span) (value : Atom) :
      Folds (.operation span value .mod (.number zero 0)) (.atom span (.number span 0))
  | modOne (span one : Span) (value : Atom) :
      Folds (.operation span value .mod (.number one 1)) (.atom span (.number span 0))
  | zeroMod (span zero : Span) (value : Atom) :
      Folds (.operation span (.number zero 0) .mod value) (.atom span (.number span 0))
  | subSelf (span : Span) {left right : Atom} (hSame : left.Same right) :
      Folds (.operation span left .sub right) (.atom span (.number span 0))

namespace Expression

private theorem simplify_folds (value : Expression) :
    value.simplify = value ∨ value.Folds value.simplify := by
  cases value with
  | atom span value => exact .inl rfl
  | operation span left operator right =>
      dsimp only [simplify]
      split
      · exact .inr (.numbers ..)
      · cases operator with
        | add =>
            dsimp only
            split
            · rename_i hZero
              obtain ⟨zero, rfl⟩ := Atom.isNumber_iff.mp hZero
              exact .inr (.addZero ..)
            · split
              · rename_i hZero
                obtain ⟨zero, rfl⟩ := Atom.isNumber_iff.mp hZero
                exact .inr (.zeroAdd ..)
              · exact .inl rfl
        | sub =>
            dsimp only
            split
            · rename_i hZero
              obtain ⟨zero, rfl⟩ := Atom.isNumber_iff.mp hZero
              exact .inr (.subZero ..)
            · split
              · rename_i hEither
                rcases Bool.or_eq_true_iff.mp hEither with hZero | hSame
                · obtain ⟨zero, rfl⟩ := Atom.isNumber_iff.mp hZero
                  exact .inr (.zeroSub ..)
                · exact .inr (.subSelf span (Atom.sameCell_iff.mp hSame))
              · exact .inl rfl
        | mul =>
            dsimp only
            split
            · rename_i hEither
              rcases Bool.or_eq_true_iff.mp hEither with hZero | hZero
              · obtain ⟨zero, rfl⟩ := Atom.isNumber_iff.mp hZero
                exact .inr (.zeroMul ..)
              · obtain ⟨zero, rfl⟩ := Atom.isNumber_iff.mp hZero
                exact .inr (.mulZero ..)
            · split
              · rename_i hOne
                obtain ⟨one, rfl⟩ := Atom.isNumber_iff.mp hOne
                exact .inr (.mulOne ..)
              · split
                · rename_i hOne
                  obtain ⟨one, rfl⟩ := Atom.isNumber_iff.mp hOne
                  exact .inr (.oneMul ..)
                · exact .inl rfl
        | div =>
            dsimp only
            split
            · rename_i hEither
              rcases Bool.or_eq_true_iff.mp hEither with hZero | hZero
              · obtain ⟨zero, rfl⟩ := Atom.isNumber_iff.mp hZero
                exact .inr (.divZero ..)
              · obtain ⟨zero, rfl⟩ := Atom.isNumber_iff.mp hZero
                exact .inr (.zeroDiv ..)
            · split
              · rename_i hOne
                obtain ⟨one, rfl⟩ := Atom.isNumber_iff.mp hOne
                exact .inr (.divOne ..)
              · exact .inl rfl
        | mod =>
            dsimp only
            split
            · rename_i hAny
              simp only [Bool.or_eq_true] at hAny
              rcases hAny with (hZero | hOne) | hZero
              · obtain ⟨zero, rfl⟩ := Atom.isNumber_iff.mp hZero
                exact .inr (.modZero ..)
              · obtain ⟨one, rfl⟩ := Atom.isNumber_iff.mp hOne
                exact .inr (.modOne ..)
              · obtain ⟨zero, rfl⟩ := Atom.isNumber_iff.mp hZero
                exact .inr (.zeroMod ..)
            · exact .inl rfl

private theorem simplify_of_folds {value result : Expression} (hFolds : value.Folds result) :
    ∃ span atom, value.simplify = .atom span atom := by
  cases hFolds with
  | numbers span leftSpan rightSpan left right operator => exact ⟨_, _, rfl⟩
  | subSelf span hSame =>
      cases hSame with
      | reference hSame =>
          refine ⟨span, .number span 0, ?_⟩
          simp [simplify, Atom.isNumber, Atom.number?, Atom.sameCell,
            Reference.sameCell_iff.mpr hSame]
  | _ span number value => cases value <;> exact ⟨_, _, rfl⟩

private theorem not_folds_atom {span : Span} {atom : Atom} {result : Expression} :
    ¬ (Expression.atom span atom).Folds result := by
  intro hFolds
  cases hFolds

theorem not_folds_simplify (value : Expression) {result : Expression} :
    ¬ value.simplify.Folds result := by
  intro hFolds
  rcases simplify_folds value with hSame | hFolded
  · rw [hSame] at hFolds
    obtain ⟨span, atom, hAtom⟩ := simplify_of_folds hFolds
    rw [← hSame, hAtom] at hFolds
    exact not_folds_atom hFolds
  · obtain ⟨span, atom, hAtom⟩ := simplify_of_folds hFolded
    rw [hAtom] at hFolds
    exact not_folds_atom hFolds

private theorem isCell_iff {value : Expression} {target : Reference} :
    value.isCell target = true ↔
      ∃ span cell, value = .atom span (.reference cell) ∧ target.Same cell := by
  constructor
  · intro hCell
    unfold isCell at hCell
    split at hCell
    · exact ⟨_, _, rfl, Reference.sameCell_iff.mp hCell⟩
    · exact absurd hCell Bool.false_ne_true
  · rintro ⟨span, cell, rfl, hSame⟩
    exact Reference.sameCell_iff.mpr hSame

end Expression

/-! ### Conditions -/

inductive Condition.Folds : Condition → Condition → Prop where
  | holds (span : Span) {left right : Atom} {relation : Relation} (hSame : left.Same right)
      (hRelation : relation = .equal ∨ relation = .lessEqual ∨ relation = .greaterEqual) :
      Folds ⟨span, left, relation, right⟩ ⟨span, .number span 0, .equal, .number span 0⟩
  | fails (span : Span) {left right : Atom} {relation : Relation} (hSame : left.Same right)
      (hRelation : relation = .notEqual ∨ relation = .less ∨ relation = .greater) :
      Folds ⟨span, left, relation, right⟩ ⟨span, .number span 0, .notEqual, .number span 0⟩

namespace Condition

private theorem simplify_of_same {condition : Condition}
    (hSame : condition.left.Same condition.right) :
    condition.Folds condition.simplify := by
  obtain ⟨span, left, relation, right⟩ := condition
  rw [simplify, if_pos (Atom.sameCell_iff.mpr hSame)]
  cases relation with
  | equal => exact .holds span hSame (.inl rfl)
  | lessEqual => exact .holds span hSame (.inr (.inl rfl))
  | greaterEqual => exact .holds span hSame (.inr (.inr rfl))
  | notEqual => exact .fails span hSame (.inl rfl)
  | less => exact .fails span hSame (.inr (.inl rfl))
  | greater => exact .fails span hSame (.inr (.inr rfl))

private theorem same_of_folds {condition result : Condition} (hFolds : condition.Folds result) :
    condition.left.Same condition.right := by
  cases hFolds with
  | holds span hSame hRelation => exact hSame
  | fails span hSame hRelation => exact hSame

private theorem simplify_folds (condition : Condition) :
    condition.simplify = condition ∨ condition.Folds condition.simplify := by
  by_cases hSame : condition.left.Same condition.right
  · exact .inr (simplify_of_same hSame)
  · exact .inl (if_neg (mt Atom.sameCell_iff.mp hSame))

theorem not_folds_simplify (condition : Condition) {result : Condition} :
    ¬ condition.simplify.Folds result := by
  intro hFolds
  have hSame := same_of_folds hFolds
  by_cases hBefore : condition.left.Same condition.right
  · -- the two sides are zeros by then, which are no cells
    rw [simplify, if_pos (Atom.sameCell_iff.mpr hBefore)] at hSame
    cases hSame
  · rw [simplify, if_neg (mt Atom.sameCell_iff.mp hBefore)] at hSame
    exact hBefore hSame

end Condition

/-! ### Commands -/

namespace Command

mutual

inductive Rewrites : Command → List Command → Prop where
  | value (span : Span) (target : Reference) {value result : Expression}
      (hFolds : value.Folds result) :
      Rewrites (.assign span target value) [.assign span target result]
  | selfAssignment (span valueSpan : Span) {target cell : Reference} (hSame : target.Same cell) :
      Rewrites (.assign span target (.atom valueSpan (.reference cell))) []
  | ifThenCondition (span : Span) {condition result : Condition} (body : List Command)
      (hFolds : condition.Folds result) :
      Rewrites (.ifThen span condition body) [.ifThen span result body]
  | ifElseCondition (span : Span) {condition result : Condition} (body orElse : List Command)
      (hFolds : condition.Folds result) :
      Rewrites (.ifElse span condition body orElse) [.ifElse span result body orElse]
  | whileCondition (span : Span) {condition result : Condition} (body : List Command)
      (hFolds : condition.Folds result) :
      Rewrites (.whileLoop span condition body) [.whileLoop span result body]
  | ifThenHolds (span : Span) {condition : Condition} (body : List Command)
      (hStatic : condition.static? = some true) : Rewrites (.ifThen span condition body) body
  | ifThenFails (span : Span) {condition : Condition} (body : List Command)
      (hStatic : condition.static? = some false) : Rewrites (.ifThen span condition body) []
  | ifElseHolds (span : Span) {condition : Condition} (body orElse : List Command)
      (hStatic : condition.static? = some true) :
      Rewrites (.ifElse span condition body orElse) body
  | ifElseFails (span : Span) {condition : Condition} (body orElse : List Command)
      (hStatic : condition.static? = some false) :
      Rewrites (.ifElse span condition body orElse) orElse
  | whileFails (span : Span) {condition : Condition} (body : List Command)
      (hStatic : condition.static? = some false) : Rewrites (.whileLoop span condition body) []
  | emptyUp (span firstSpan lastSpan : Span) (iterator : String) {first last : Nat}
      (body : List Command) (hEmpty : last < first) :
      Rewrites (.forLoop span iterator (.number firstSpan first) (.number lastSpan last) .up body)
        []
  | emptyDown (span firstSpan lastSpan : Span) (iterator : String) {first last : Nat}
      (body : List Command) (hEmpty : first < last) :
      Rewrites (.forLoop span iterator (.number firstSpan first) (.number lastSpan last) .down body)
        []
  | ifThenBody (span : Span) (condition : Condition) {body result : List Command}
      (hBody : RewritesAll body result) :
      Rewrites (.ifThen span condition body) [.ifThen span condition result]
  | ifElseBody (span : Span) (condition : Condition) {body result : List Command}
      (orElse : List Command) (hBody : RewritesAll body result) :
      Rewrites (.ifElse span condition body orElse) [.ifElse span condition result orElse]
  | ifElseOrElse (span : Span) (condition : Condition) (body : List Command)
      {orElse result : List Command} (hElse : RewritesAll orElse result) :
      Rewrites (.ifElse span condition body orElse) [.ifElse span condition body result]
  | whileBody (span : Span) (condition : Condition) {body result : List Command}
      (hBody : RewritesAll body result) :
      Rewrites (.whileLoop span condition body) [.whileLoop span condition result]
  | forBody (span : Span) (iterator : String) (first last : Atom) (direction : Direction)
      {body result : List Command} (hBody : RewritesAll body result) :
      Rewrites (.forLoop span iterator first last direction body)
        [.forLoop span iterator first last direction result]

/-- The rewrites of a command list: one of its commands is rewritten. -/
inductive RewritesAll : List Command → List Command → Prop where
  | here {command : Command} {result : List Command} (rest : List Command)
      (hRewrites : Rewrites command result) : RewritesAll (command :: rest) (result ++ rest)
  | later (command : Command) {rest result : List Command} (hRest : RewritesAll rest result) :
      RewritesAll (command :: rest) (command :: result)

end

/-! ### Chains of rewrites -/

theorem RewritesAll.append_right {first result : List Command}
    (hRewrites : RewritesAll first result) (second : List Command) :
    RewritesAll (first ++ second) (result ++ second) := by
  induction first generalizing result with
  | nil => cases hRewrites
  | cons command rest inductionHypothesis =>
      cases hRewrites with
      | here _ hRewrites =>
          rw [List.append_assoc]
          exact .here _ hRewrites
      | later _ hRest => exact .later command (inductionHypothesis hRest)

private theorem RewritesAll.append_left {second result : List Command}
    (hRewrites : RewritesAll second result) (first : List Command) :
    RewritesAll (first ++ second) (first ++ result) := by
  induction first with
  | nil => exact hRewrites
  | cons command rest inductionHypothesis => exact .later command inductionHypothesis

def Chain : List Command → List Command → Prop :=
  Relation.ReflTransGen RewritesAll

namespace Chain

private theorem refl (commands : List Command) : Chain commands commands :=
  Relation.ReflTransGen.refl

private theorem trans {first second third : List Command} (hFirst : Chain first second)
    (hSecond : Chain second third) : Chain first third :=
  Relation.ReflTransGen.trans hFirst hSecond

/-- A chain goes through in every place in which each of its rewrites does. -/
theorem map (place : List Command → List Command)
    (hPlace : ∀ before after, RewritesAll before after → RewritesAll (place before) (place after))
    {commands result : List Command} (hChain : Chain commands result) :
    Chain (place commands) (place result) :=
  Relation.ReflTransGen.lift place hPlace _ _ hChain

private theorem append {first second firstResult secondResult : List Command}
    (hFirst : Chain first firstResult) (hSecond : Chain second secondResult) :
    Chain (first ++ second) (firstResult ++ secondResult) := by
  have hLeft : Chain (first ++ second) (firstResult ++ second) :=
    map (· ++ second) (fun _ _ hRewrites => hRewrites.append_right second) hFirst
  have hRight : Chain (firstResult ++ second) (firstResult ++ secondResult) :=
    map (firstResult ++ ·) (fun _ _ hRewrites => hRewrites.append_left firstResult) hSecond
  exact hLeft.trans hRight

private theorem of_rewrites {command : Command} {result : List Command}
    (hRewrites : Rewrites command result) : Chain [command] result := by
  have hHere := RewritesAll.here [] hRewrites
  rw [List.append_nil] at hHere
  exact .single hHere

private theorem inside {frame : List Command → Command}
    (hFrame : ∀ {before after}, RewritesAll before after → Rewrites (frame before) [frame after])
    {body result : List Command} (hBody : Chain body result) :
    Chain [frame body] [frame result] :=
  map (fun body => [frame body]) (fun _ _ hRewrites => .here [] (hFrame hRewrites)) hBody

private theorem condition {frame : Condition → Command}
    (hFrame : ∀ {before after}, before.Folds after → Rewrites (frame before) [frame after])
    (condition : Condition) : Chain [frame condition] [frame condition.simplify] := by
  rcases condition.simplify_folds with hSame | hFolds
  · rw [hSame]
    exact .refl _
  · exact .of_rewrites (hFrame hFolds)

end Chain

/-! ### ELSE parts -/

mutual

/-- A command in which every conditional without an ELSE part has got an empty one. -/
def complete : Command → Command
  | .ifThen span condition body => .ifElse span condition (completeAll body) []
  | .ifElse span condition body orElse =>
      .ifElse span condition (completeAll body) (completeAll orElse)
  | .whileLoop span condition body => .whileLoop span condition (completeAll body)
  | .forLoop span iterator first last direction body =>
      .forLoop span iterator first last direction (completeAll body)
  | .assign span target value => .assign span target value
  | .read span target => .read span target
  | .write span value => .write span value
  | .skip span => .skip span

def completeAll : List Command → List Command
  | [] => []
  | command :: rest => complete command :: completeAll rest

end

private theorem completeAll_append (first second : List Command) :
    completeAll (first ++ second) = completeAll first ++ completeAll second := by
  induction first with
  | nil => rfl
  | cons command rest inductionHypothesis =>
      rw [List.cons_append, completeAll, inductionHypothesis]
      rfl

mutual

theorem complete_complete (command : Command) : command.complete.complete = command.complete := by
  cases command with
  | assign span target value => rfl
  | read span target => rfl
  | write span value => rfl
  | skip span => rfl
  | ifThen span condition body =>
      rw [complete, complete, completeAll_completeAll body]
      rfl
  | ifElse span condition body orElse =>
      rw [complete, complete, completeAll_completeAll body, completeAll_completeAll orElse]
  | whileLoop span condition body => rw [complete, complete, completeAll_completeAll body]
  | forLoop span iterator first last direction body =>
      rw [complete, complete, completeAll_completeAll body]

theorem completeAll_completeAll (commands : List Command) :
    completeAll (completeAll commands) = completeAll commands := by
  cases commands with
  | nil => rfl
  | cons command rest =>
      rw [completeAll, completeAll, complete_complete command, completeAll_completeAll rest]

end

/-! ### Simplifying as a chain of rewrites -/

theorem rewrites_of_isEmpty (span : Span) (iterator : String) {first last : Atom}
    {direction : Direction} (body : List Command) (hEmpty : direction.isEmpty first last = true) :
    Rewrites (.forLoop span iterator first last direction body) [] := by
  cases first with
  | reference cell => exact absurd hEmpty Bool.false_ne_true
  | number firstSpan first =>
      cases last with
      | reference cell => exact absurd hEmpty Bool.false_ne_true
      | number lastSpan last =>
          cases direction with
          | up => exact .emptyUp span firstSpan lastSpan iterator body (of_decide_eq_true hEmpty)
          | down =>
              exact .emptyDown span firstSpan lastSpan iterator body (of_decide_eq_true hEmpty)

mutual

theorem exists_chain_simplify (command : Command) :
    ∃ result, Chain [command] result ∧ command.simplify = completeAll result := by
  cases command with
  | assign span target value =>
      have hValue : Chain [.assign span target value] [.assign span target value.simplify] := by
        rcases value.simplify_folds with hSame | hFolds
        · rw [hSame]
          exact .refl _
        · exact .of_rewrites (.value span target hFolds)
      rw [simplify]
      split
      · rename_i hCell
        obtain ⟨valueSpan, cell, hAtom, hSame⟩ := Expression.isCell_iff.mp hCell
        rw [hAtom] at hValue
        exact ⟨[], hValue.trans (.of_rewrites (.selfAssignment span valueSpan hSame)), rfl⟩
      · exact ⟨_, hValue, rfl⟩
  | read span target => exact ⟨_, .refl _, rfl⟩
  | write span value => exact ⟨_, .refl _, rfl⟩
  | skip span => exact ⟨_, .refl _, rfl⟩
  | ifThen span condition body =>
      obtain ⟨result, hBody, hResult⟩ := exists_chain_simplifyAll body
      have hChain : Chain [.ifThen span condition body] [.ifThen span condition.simplify result] :=
        (Chain.condition (.ifThenCondition span body) condition).trans
          (Chain.inside (.ifThenBody span condition.simplify) hBody)
      rw [simplify]
      split
      · rename_i hStatic
        exact ⟨result, hChain.trans (.of_rewrites (.ifThenHolds span result hStatic)), hResult⟩
      · rename_i hStatic
        exact ⟨[], hChain.trans (.of_rewrites (.ifThenFails span result hStatic)), rfl⟩
      · rw [hResult]
        exact ⟨_, hChain, rfl⟩
  | ifElse span condition body orElse =>
      obtain ⟨result, hBody, hResult⟩ := exists_chain_simplifyAll body
      obtain ⟨elseResult, hElse, hElseResult⟩ := exists_chain_simplifyAll orElse
      have hChain : Chain [.ifElse span condition body orElse]
          [.ifElse span condition.simplify result elseResult] :=
        (Chain.condition (.ifElseCondition span body orElse) condition).trans
          ((Chain.inside (.ifElseBody span condition.simplify orElse) hBody).trans
            (Chain.inside (.ifElseOrElse span condition.simplify result) hElse))
      rw [simplify]
      split
      · rename_i hStatic
        exact ⟨result, hChain.trans (.of_rewrites (.ifElseHolds span result elseResult hStatic)),
          hResult⟩
      · rename_i hStatic
        exact ⟨elseResult,
          hChain.trans (.of_rewrites (.ifElseFails span result elseResult hStatic)), hElseResult⟩
      · rw [hResult, hElseResult]
        exact ⟨_, hChain, rfl⟩
  | whileLoop span condition body =>
      obtain ⟨result, hBody, hResult⟩ := exists_chain_simplifyAll body
      have hChain : Chain [.whileLoop span condition body]
          [.whileLoop span condition.simplify result] :=
        (Chain.condition (.whileCondition span body) condition).trans
          (Chain.inside (.whileBody span condition.simplify) hBody)
      rw [simplify]
      split
      · rename_i hStatic
        exact ⟨[], hChain.trans (.of_rewrites (.whileFails span result hStatic)), rfl⟩
      · rw [hResult]
        exact ⟨_, hChain, rfl⟩
  | forLoop span iterator first last direction body =>
      obtain ⟨result, hBody, hResult⟩ := exists_chain_simplifyAll body
      rw [simplify]
      split
      · rename_i hEmpty
        exact ⟨[], .of_rewrites (rewrites_of_isEmpty span iterator body hEmpty), rfl⟩
      · rw [hResult]
        exact ⟨_, Chain.inside (.forBody span iterator first last direction) hBody, rfl⟩

/-- Simplifying makes the listed rewrites and no others, then completes the conditionals. -/
theorem exists_chain_simplifyAll (commands : List Command) :
    ∃ result, Chain commands result ∧ simplifyAll commands = completeAll result := by
  cases commands with
  | nil => exact ⟨[], .refl _, rfl⟩
  | cons command rest =>
      obtain ⟨head, hHead, hHeadResult⟩ := exists_chain_simplify command
      obtain ⟨tail, hTail, hTailResult⟩ := exists_chain_simplifyAll rest
      refine ⟨head ++ tail, Chain.append hHead hTail, ?_⟩
      rw [simplifyAll, hHeadResult, hTailResult, completeAll_append]

end

/-! ### Commands no rewrite applies to -/

/-- Commands no rewrite applies to, however deep inside. -/
def Settled (commands : List Command) : Prop :=
  ∀ result, ¬ RewritesAll commands result

namespace Settled

private theorem eq_of_chain {commands result : List Command} (hSettled : Settled commands)
    (hChain : Chain commands result) : result = commands := by
  rcases Relation.ReflTransGen.cases_head hChain with hSame | ⟨next, hRewrites, -⟩
  · exact hSame.symm
  · exact absurd hRewrites (hSettled next)

theorem nil : Settled [] := by
  intro result hRewrites
  cases hRewrites

theorem singleton {command : Command} (hCommand : ∀ result, ¬ Rewrites command result) :
    Settled [command] := by
  intro result hRewrites
  cases hRewrites with
  | here _ hRewrites => exact hCommand _ hRewrites
  | later _ hRest => exact nil _ hRest

theorem append {first second : List Command} (hFirst : Settled first) (hSecond : Settled second) :
    Settled (first ++ second) := by
  induction first with
  | nil => exact hSecond
  | cons command rest inductionHypothesis =>
      intro result hRewrites
      cases hRewrites with
      | here _ hRewrites => exact hFirst _ (.here rest hRewrites)
      | later _ hRest =>
          exact inductionHypothesis (fun _ hRest => hFirst _ (.later command hRest)) _ hRest

variable {span : Span} {body orElse : List Command}

theorem assign {target : Reference} {value : Expression} (hValue : ∀ result, ¬ value.Folds result)
    (hCell : value.isCell target = false) : Settled [.assign span target value] := by
  apply singleton
  intro result hRewrites
  cases hRewrites with
  | value _ _ hFolds => exact hValue _ hFolds
  | selfAssignment _ valueSpan hSame =>
      rw [Expression.isCell_iff.mpr ⟨valueSpan, _, rfl, hSame⟩] at hCell
      cases hCell

theorem ifThen {condition : Condition} (hCondition : ∀ result, ¬ condition.Folds result)
    (hStatic : condition.static? = none) (hBody : Settled body) :
    Settled [.ifThen span condition body] := by
  apply singleton
  intro result hRewrites
  cases hRewrites with
  | ifThenCondition _ _ hFolds => exact hCondition _ hFolds
  | ifThenHolds _ _ hHolds => cases hStatic.symm.trans hHolds
  | ifThenFails _ _ hFails => cases hStatic.symm.trans hFails
  | ifThenBody _ _ hRewrites => exact hBody _ hRewrites

theorem ifElse {condition : Condition} (hCondition : ∀ result, ¬ condition.Folds result)
    (hStatic : condition.static? = none) (hBody : Settled body) (hElse : Settled orElse) :
    Settled [.ifElse span condition body orElse] := by
  apply singleton
  intro result hRewrites
  cases hRewrites with
  | ifElseCondition _ _ _ hFolds => exact hCondition _ hFolds
  | ifElseHolds _ _ _ hHolds => cases hStatic.symm.trans hHolds
  | ifElseFails _ _ _ hFails => cases hStatic.symm.trans hFails
  | ifElseBody _ _ _ hRewrites => exact hBody _ hRewrites
  | ifElseOrElse _ _ _ hRewrites => exact hElse _ hRewrites

theorem whileLoop {condition : Condition} (hCondition : ∀ result, ¬ condition.Folds result)
    (hStatic : condition.static? ≠ some false) (hBody : Settled body) :
    Settled [.whileLoop span condition body] := by
  apply singleton
  intro result hRewrites
  cases hRewrites with
  | whileCondition _ _ hFolds => exact hCondition _ hFolds
  | whileFails _ _ hFails => exact hStatic hFails
  | whileBody _ _ hRewrites => exact hBody _ hRewrites

theorem forLoop {iterator : String} {first last : Atom} {direction : Direction}
    (hRounds : ¬ direction.isEmpty first last = true) (hBody : Settled body) :
    Settled [.forLoop span iterator first last direction body] := by
  apply singleton
  intro result hRewrites
  cases hRewrites with
  | emptyUp _ _ _ _ _ hEmpty => exact hRounds (decide_eq_true hEmpty)
  | emptyDown _ _ _ _ _ hEmpty => exact hRounds (decide_eq_true hEmpty)
  | forBody _ _ _ _ _ hRewrites => exact hBody _ hRewrites

end Settled

mutual

theorem settled_simplify (command : Command) : Settled command.simplify := by
  cases command with
  | assign span target value =>
      rw [simplify]
      split
      · exact .nil
      · rename_i hCell
        exact .assign (fun _ => value.not_folds_simplify) (Bool.eq_false_iff.mpr hCell)
  | read span target => exact .singleton fun _ hRewrites => by cases hRewrites
  | write span value => exact .singleton fun _ hRewrites => by cases hRewrites
  | skip span => exact .singleton fun _ hRewrites => by cases hRewrites
  | ifThen span condition body =>
      rw [simplify]
      split
      · exact settled_simplifyAll body
      · exact .nil
      · rename_i hStatic
        exact .ifElse (fun _ => condition.not_folds_simplify) hStatic (settled_simplifyAll body)
          .nil
  | ifElse span condition body orElse =>
      rw [simplify]
      split
      · exact settled_simplifyAll body
      · exact settled_simplifyAll orElse
      · rename_i hStatic
        exact .ifElse (fun _ => condition.not_folds_simplify) hStatic (settled_simplifyAll body)
          (settled_simplifyAll orElse)
  | whileLoop span condition body =>
      rw [simplify]
      split
      · exact .nil
      · rename_i hStatic
        exact .whileLoop (fun _ => condition.not_folds_simplify) hStatic (settled_simplifyAll body)
  | forLoop span iterator first last direction body =>
      rw [simplify]
      split
      · exact .nil
      · rename_i hRounds
        exact .forLoop hRounds (settled_simplifyAll body)

/-- Simplified commands are settled: one pass makes every rewrite there is. -/
theorem settled_simplifyAll (commands : List Command) : Settled (simplifyAll commands) := by
  cases commands with
  | nil => exact .nil
  | cons command rest =>
      rw [simplifyAll]
      exact (settled_simplify command).append (settled_simplifyAll rest)

end

/-- Where no rewrite applies, simplifying completes the conditionals and does nothing else. -/
theorem simplifyAll_of_settled {commands : List Command} (hSettled : Settled commands) :
    simplifyAll commands = completeAll commands := by
  obtain ⟨result, hChain, hResult⟩ := exists_chain_simplifyAll commands
  rw [hResult, hSettled.eq_of_chain hChain]

private theorem completeAll_simplifyAll (commands : List Command) :
    completeAll (simplifyAll commands) = simplifyAll commands := by
  obtain ⟨result, -, hResult⟩ := exists_chain_simplifyAll commands
  rw [hResult, completeAll_completeAll]

end Command

/-- No rewrite applies to a simplified program, and simplifying it again changes nothing. -/
theorem Program.simplify_idempotent (program : Program) :
    Command.Settled program.simplify.body ∧ program.simplify.simplify = program.simplify := by
  have hSettled := Command.settled_simplifyAll program.body
  have hBody : Command.simplifyAll (Command.simplifyAll program.body) =
      Command.simplifyAll program.body :=
    (Command.simplifyAll_of_settled hSettled).trans (Command.completeAll_simplifyAll program.body)
  constructor
  · exact hSettled
  · simp only [simplify, hBody]

end RegisterCompiler
