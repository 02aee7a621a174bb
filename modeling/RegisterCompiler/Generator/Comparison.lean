/-
Code for conditions.

A condition is tested by a difference that is zero exactly when the relation
holds, or exactly when it fails.
-/

import RegisterCompiler.Generator.Calculation

set_option autoImplicit false

namespace RegisterCompiler

namespace Generating

/-- The sum of the differences of two operands both ways round, which is zero
exactly when they are equal. -/
def distance (left right : Operand) : Generating Int := do
  if right.constant? = some 0 then
    take left
  else if left.constant? = some 0 then
    take right
  else
    let first ← operate .sub left right
    let second ← operate .sub right left
    let cell ← takeScratch 1
    pointTo cell.toNat
    emitAll [.unary .store second, .unary .add first]
    onStore (StoreAction.release second)
    returnScratch cell 1
    return first

/-- Leaves in a register a number that decides a relation, and says whether the
relation holds when that number is zero. -/
def compareOperands (relation : Relation) (left right : Operand) : Generating (Int × Bool) :=
  match relation with
  | .equal => return (← distance left right, true)
  | .notEqual => return (← distance left right, false)
  | .less => return (← operate .sub right left, false)
  | .greater => return (← operate .sub left right, false)
  | .lessEqual => return (← operate .sub left right, true)
  | .greaterEqual => return (← operate .sub right left, true)

def decided (holds : Bool) : Generating Unit := do
  clearCache
  if holds then
    openLabel .fake (← nextLine)
  else
    openLabel .whenFalse (← emitJump .jump [])
  tidyUp

/-- Tests operands at run time and opens the label of the jump that is taken when
the relation fails. -/
def tested (relation : Relation) (left right : Operand) : Generating Unit := do
  let (register, zeroHolds) ← compareOperands relation left right
  clearCache
  if zeroHolds then
    openLabel .whenTrue (← emitJump .jzero [register])
    let exit ← emitJump .jump []
    resolveLabel
    openLabel .whenFalse exit
  else
    openLabel .whenFalse (← emitJump .jzero [register])
  forgetPointer
  tidyUp

/-- Tests a condition.  One more label is open afterwards: that of the jump that
leaves the guarded code, or a fake one if the condition always holds. -/
def testCondition (condition : Condition) : Generating Unit := do
  let left ← resolve condition.left
  let right ← resolve condition.right
  match left, right with
  | .constant first, .constant second => decided (condition.relation.holds first second)
  | _, _ => tested condition.relation left right

end Generating

end RegisterCompiler
