/-
Code for expressions.

Sums and differences use the machine's own instructions.  A product or quotient
by a power of two is a shift; the general ones are loops over the bits of an
operand.
-/

import RegisterCompiler.Generator.Operand

set_option autoImplicit false

namespace RegisterCompiler

/-- The greatest number that is added or subtracted by single steps. -/
def mostSteps : Nat := 16

namespace Operand

def steps? (operand : Operand) : Option Nat :=
  operand.constant?.filter (· ≤ mostSteps)

def exponent? (operand : Operand) : Option Nat :=
  (operand.constant?.filter fun value => value = Nat.pow 2 value.log2).map Nat.log2

end Operand

/-- Multiplies, when it starts at line `start` with the product register zero and
the pointer on a scratch cell: while the second factor is not zero, the first is
added to the product if the second is odd, and then the first is doubled and the
second halved. -/
def productLoop (start : Nat) (first second product : Int) : List Instruction :=
  [ .branch .jzero second (start + 8),
    .branch .jodd second (start + 3),
    .jump (start + 5),
    .unary .store first,
    .unary .add product,
    .unary .shl first,
    .unary .shr second,
    .jump start ]

/-- Doubles the divisor until it exceeds the remainder, counting the doublings,
when it starts at line `start` with the pointer on the first of two scratch
cells. -/
def doublingLoop (start : Nat) (remainder divisor count : Int) : List Instruction :=
  [ .unary .store remainder,
    .unary .inc pointerRegister,
    .unary .store divisor,
    .unary .dec pointerRegister,
    .unary .sub divisor,
    .branch .jzero divisor (start + 10),
    .unary .inc pointerRegister,
    .unary .load divisor,
    .unary .dec pointerRegister,
    .jump (start + 16),
    .unary .inc pointerRegister,
    .unary .load divisor,
    .unary .dec pointerRegister,
    .unary .shl divisor,
    .unary .inc count,
    .jump start ]

/-- Halves the divisor as often as it was doubled, and subtracts it from the
remainder where it fits, when it starts at line `start`. -/
def halvingLoop (start : Nat) (remainder divisor quotient count : Int) : List Instruction :=
  [ .branch .jzero count (start + 20),
    .unary .dec count,
    .unary .shr divisor,
    .unary .shl quotient,
    .unary .store remainder,
    .unary .inc pointerRegister,
    .unary .store divisor,
    .unary .dec pointerRegister,
    .unary .sub divisor,
    .branch .jzero divisor (start + 14),
    .unary .inc pointerRegister,
    .unary .load divisor,
    .unary .dec pointerRegister,
    .jump start,
    .unary .inc pointerRegister,
    .unary .load divisor,
    .unary .sub remainder,
    .unary .dec pointerRegister,
    .unary .inc quotient,
    .jump start ]

/-- Divides, when it starts at line `start` with the quotient and the count zero
and the pointer on the first of two scratch cells.  By zero both results are
zero. -/
def divisionLoop (start : Nat) (remainder divisor quotient count : Int) : List Instruction :=
  [ .branch .jzero divisor (start + 2),
    .jump (start + 4),
    .unary .zero remainder,
    .jump (start + 40) ] ++
  doublingLoop (start + 4) remainder divisor count ++
  halvingLoop (start + 20) remainder divisor quotient count

namespace Generating

def repeatUnary (opcode : Opcode) (register : Int) (count : Nat) : Generating Unit :=
  emitAll (List.replicate count (.unary opcode register))

def freeBorrowed : Option Address → Generating Unit
  | none => return
  | some cell => returnScratch cell 1

def increaseBy (register : Int) (operand : Operand) : Generating Unit := do
  match operand.steps? with
  | some count => repeatUnary .inc register count
  | none =>
      let cell ← aimAt operand
      emit (.unary .add register)
      freeBorrowed cell

/-- Subtracts an operand from a register, down to zero at most. -/
def decreaseBy (register : Int) (operand : Operand) : Generating Unit := do
  match operand.steps? with
  | some count => repeatUnary .dec register count
  | none =>
      let cell ← aimAt operand
      emit (.unary .sub register)
      freeBorrowed cell

def addTo (first second : Operand) : Generating Int := do
  let register ← take first
  increaseBy register second
  return register

def sum (left right : Operand) : Generating Int := do
  let (first, second) := if left.constant?.isSome then (right, left) else (left, right)
  if first.same second then
    let register ← take first
    emit (.unary .shl register)
    return register
  if second.constant?.isSome && second.steps?.isNone then addTo second first
  else addTo first second

def difference (left right : Operand) : Generating Int := do
  if left.same right then
    take (.constant 0)
  else
    let register ← take left
    decreaseBy register right
    return register

def generalProduct (left right : Operand) : Generating Int := do
  let first ← take left
  let second ← take right
  let product ← acquire
  let cell ← takeScratch 1
  emit (.unary .zero product)
  pointTo cell.toNat
  emitAll (productLoop (← nextLine) first second product)
  releaseAll [first, second]
  returnScratch cell 1
  return product

def product (left right : Operand) : Generating Int := do
  let (first, second) := if left.constant?.isSome then (right, left) else (left, right)
  if second.constant? = some 0 then
    take (.constant 0)
  else
    match second.exponent? with
    | some exponent =>
        let register ← take first
        repeatUnary .shl register exponent
        return register
    | none => generalProduct first second

def selfQuotient (operand : Operand) (remainder : Bool) : Generating Int := do
  let register ← take operand
  if remainder then
    emit (.unary .zero register)
  else
    let line ← nextLine
    emitAll [.branch .jzero register (line + 3), .unary .zero register, .unary .inc register]
  return register

def generalQuotient (left right : Operand) (remainder : Bool) : Generating Int := do
  let rest ← take left
  let divisor ← take right
  let quotient ← acquire
  let count ← acquire
  let cells ← takeScratch 2
  emitAll [.unary .zero quotient, .unary .zero count]
  pointTo cells.toNat
  emitAll (divisionLoop (← nextLine) rest divisor quotient count)
  returnScratch cells 2
  if remainder then
    releaseAll [quotient, divisor, count]
    return rest
  else
    releaseAll [rest, divisor, count]
    return quotient

def quotient (left right : Operand) (remainder : Bool) : Generating Int := do
  match if remainder then none else right.exponent? with
  | some exponent =>
      let register ← take left
      repeatUnary .shr register exponent
      return register
  | none =>
      if left.same right then selfQuotient left remainder
      else generalQuotient left right remainder

def operate (operator : Operator) (left right : Operand) : Generating Int :=
  match left, right with
  | .constant first, .constant second => take (.constant (operator.eval first second))
  | _, _ =>
      match operator with
      | .add => sum left right
      | .sub => difference left right
      | .mul => product left right
      | .div => quotient left right false
      | .mod => quotient left right true

end Generating

inductive Calculation where
  | operand (value : Operand)
  | operation (left : Operand) (operator : Operator) (right : Operand)
deriving Repr, DecidableEq, Inhabited

namespace Calculation

def constant? : Calculation → Option Nat
  | operand value => value.constant?
  | operation (.constant left) operator (.constant right) => some (operator.eval left right)
  | operation _ _ _ => none

end Calculation

namespace Generating

def resolveExpression : Expression → Generating Calculation
  | .atom _ value => return .operand (← resolve value)
  | .operation _ left operator right => do
      let first ← resolve left
      let second ← resolve right
      return .operation first operator second

def calculate : Calculation → Generating Int
  | .operand value => take value
  | .operation left operator right => operate operator left right

end Generating

end RegisterCompiler
