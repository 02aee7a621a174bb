/-
Simplifying programs.

Operations on numbers are carried out, neutral and absorbing operands are
dropped, comparisons of a cell with itself are decided, and commands whose
effect is decided beforehand are removed or replaced by the chosen branch.
A conditional always leaves with an ELSE part, empty if it had none.
-/

import RegisterCompiler.Program

set_option autoImplicit false

namespace RegisterCompiler

namespace Expression

def simplify : Expression → Expression
  | .atom span value => .atom span value
  | .operation span left operator right =>
      let same := Expression.operation span left operator right
      let zero := Expression.atom span (.number span 0)
      match left, right with
      | .number _ leftValue, .number _ rightValue =>
          .atom span (.number span (operator.eval leftValue rightValue))
      | _, _ =>
          match operator with
          | .add =>
              if right.isNumber 0 then .atom span left
              else if left.isNumber 0 then .atom span right
              else same
          | .sub =>
              if right.isNumber 0 then .atom span left
              else if left.isNumber 0 || left.sameCell right then zero
              else same
          | .mul =>
              if left.isNumber 0 || right.isNumber 0 then zero
              else if right.isNumber 1 then .atom span left
              else if left.isNumber 1 then .atom span right
              else same
          | .div =>
              if right.isNumber 0 || left.isNumber 0 then zero
              else if right.isNumber 1 then .atom span left
              else same
          | .mod =>
              if right.isNumber 0 || right.isNumber 1 || left.isNumber 0 then zero
              else same

end Expression

namespace Condition

/-- Replaces a comparison of a cell with itself by a comparison of zeros with
the same outcome. -/
def simplify (condition : Condition) : Condition :=
  if condition.left.sameCell condition.right then
    let zero := Atom.number condition.span 0
    let relation :=
      match condition.relation with
      | .equal | .lessEqual | .greaterEqual => Relation.equal
      | .notEqual | .less | .greater => Relation.notEqual
    ⟨condition.span, zero, relation, zero⟩
  else condition

end Condition

def Expression.isCell (value : Expression) (cell : Reference) : Bool :=
  match value with
  | .atom _ (.reference other) => cell.sameCell other
  | _ => false

def Direction.isEmpty (direction : Direction) (first last : Atom) : Bool :=
  match first.number?, last.number? with
  | some firstValue, some lastValue =>
      match direction with
      | .up => lastValue < firstValue
      | .down => firstValue < lastValue
  | _, _ => false

namespace Command

mutual

def simplify : Command → List Command
  | .assign span target value =>
      let simple := value.simplify
      if simple.isCell target then [] else [.assign span target simple]
  | .read span target => [.read span target]
  | .write span value => [.write span value]
  | .skip span => [.skip span]
  | .ifThen span condition body =>
      let simple := condition.simplify
      match simple.static? with
      | some true => simplifyAll body
      | some false => []
      | none => [.ifElse span simple (simplifyAll body) []]
  | .ifElse span condition body orElse =>
      let simple := condition.simplify
      match simple.static? with
      | some true => simplifyAll body
      | some false => simplifyAll orElse
      | none => [.ifElse span simple (simplifyAll body) (simplifyAll orElse)]
  | .whileLoop span condition body =>
      let simple := condition.simplify
      match simple.static? with
      | some false => []
      | _ => [.whileLoop span simple (simplifyAll body)]
  | .forLoop span iterator first last direction body =>
      if direction.isEmpty first last then []
      else [.forLoop span iterator first last direction (simplifyAll body)]

def simplifyAll : List Command → List Command
  | [] => []
  | command :: rest => simplify command ++ simplifyAll rest

end

end Command

def Program.simplify (program : Program) : Program :=
  { program with body := Command.simplifyAll program.body }

end RegisterCompiler
