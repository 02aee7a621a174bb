/-
Operands during code generation.

An operand is a number, a scalar with a memory cell, an array element at a fixed
address, or an array element whose index is in a scalar.  A scalar whose value is
known is a number.
-/

import RegisterCompiler.Generator.Registers
import RegisterCompiler.Program

set_option autoImplicit false

namespace RegisterCompiler

open Source (Position)

structure ScalarCell where
  name : String
  handle : Handle
  address : Nat
deriving Repr, DecidableEq, Inhabited

inductive ScalarView where
  | known (value : Nat)
  | cell (cell : ScalarCell)
deriving Repr, DecidableEq, Inhabited

inductive Operand where
  | constant (value : Nat)
  | scalar (cell : ScalarCell)
  | element (address : Nat)
  | dynamic (base : Nat) (index : ScalarCell)
deriving Repr, DecidableEq, Inhabited

namespace Operand

def constant? : Operand → Option Nat
  | constant value => some value
  | _ => none

/-- Whether two operands always have the same value. -/
def same : Operand → Operand → Bool
  | constant left, constant right => left == right
  | scalar left, scalar right => left.address == right.address
  | element left, element right => left == right
  | dynamic leftBase leftIndex, dynamic rightBase rightIndex =>
      leftBase == rightBase && leftIndex.handle == rightIndex.handle
  | _, _ => false

end Operand

namespace ScalarView

def operand : ScalarView → Operand
  | .known value => .constant value
  | .cell place => .scalar place

end ScalarView

namespace Generating

/-! ### Names -/

def declared (position : Position) (name : String) : Generating SymbolEntry := do
  match (← get).store.symbols.lookup? name with
  | none => refuse position (.undeclared name)
  | some entry => return entry

/-- The known value of a scalar.  Values are only known outside all constructs,
and only when they are to be propagated. -/
def known? (entry : SymbolEntry) (handle : Handle) : Generating (Option Nat) := do
  let context ← get
  if context.options.propagate && context.depth == 0 && entry.kind == .scalar then
    match context.store.arena.get? handle with
    | none => return none
    | some value =>
        if value.isSymbolic then return none
        else return (value.plain?.bind PlainVariable.current).map Int.toNat
  else return none

def scalarCell (position : Position) (name : String) (handle : Handle) :
    Generating ScalarCell := do
  let value ← onStore (StoreAction.value handle)
  match value.chunk with
  | none => refuse position (.noCell name)
  | some address => return ⟨name, handle, address.toNat⟩

def viewScalar (position : Position) (entry : SymbolEntry) (handle : Handle) :
    Generating ScalarView := do
  match ← known? entry handle with
  | some value => return .known value
  | none => return .cell (← scalarCell position entry.name handle)

def viewIndex (position : Position) (name : String) : Generating ScalarView := do
  let entry ← declared position name
  match entry.binding with
  | .value handle => viewScalar position entry handle
  | .array _ | .nothing => refuse position (.missingIndex name)

def resolveElement (position : Position) (ref : ArrayRef) (offset : Nat) : Generating Operand := do
  let info := (← get).store.arena.array ref
  if info.inRange offset then
    let _ ← onStore (StoreAction.element ref offset)
    return .element (info.base.getD 0 + offset)
  else refuse position (.indexOutOfRange offset info.name info.length)

def resolveDynamic (ref : ArrayRef) (index : ScalarCell) : Generating Operand := do
  let handle ← onStore (StoreAction.dynamicElement ref index.name)
  modify fun context => { context with dynamics := context.dynamics ++ [handle] }
  return .dynamic (((← get).store.arena.array ref).base.getD 0) index

def resolveArray (cell : Reference) (ref : ArrayRef) : Generating Operand := do
  match cell.index with
  | none => refuse cell.span.first (.missingIndex cell.name)
  | some (.number _ offset) => resolveElement cell.span.first ref offset
  | some (.name span name) =>
      match ← viewIndex span.first name with
      | .known offset => resolveElement cell.span.first ref offset
      | .cell index => resolveDynamic ref index

def resolveSource (cell : Reference) : Generating Operand := do
  let entry ← declared cell.span.first cell.name
  match entry.binding with
  | .value handle =>
      if cell.isElement then
        refuse cell.span.first (.notArray cell.name)
      return (← viewScalar cell.span.first entry handle).operand
  | .array ref => resolveArray cell ref
  | .nothing => refuse cell.span.first (.noCell cell.name)

def resolveTarget (cell : Reference) : Generating Operand := do
  let entry ← declared cell.span.first cell.name
  match entry.binding with
  | .value handle =>
      if cell.isElement then
        refuse cell.span.first (.notArray cell.name)
      if entry.kind = .iterator then
        refuse cell.span.first (.iteratorAssigned cell.name)
      return .scalar (← scalarCell cell.span.first cell.name handle)
  | .array ref => resolveArray cell ref
  | .nothing => refuse cell.span.first (.noCell cell.name)

def resolve : Atom → Generating Operand
  | .number _ value => return .constant value
  | .reference cell => resolveSource cell

/-! ### Reading and writing -/

def refresh (cell : ScalarCell) : Generating Unit := do
  if (← get).store.symbols.isFresh cell.name then
    return
  let value ← onStore (StoreAction.value cell.handle)
  match value.register with
  | none => onStore (StoreAction.setFresh cell.name true)
  | some register => saveOccupant register cell.handle value

/-- Leaves the address of a dynamic element in a register and in the pointer. -/
def computeAddress (register : Int) (base : Nat) (index : ScalarCell) : Generating Unit := do
  refresh index
  buildConstant register base
  pointTo index.address
  emitAll [.unary .add register, .unary .copy register]
  forgetPointer

def loadInto (register : Int) (address : Nat) : Generating Unit := do
  pointTo address
  emit (.unary .load register)

def loadCell (address : Nat) : Generating Int := do
  let register ← acquire
  loadInto register address
  return register

/-- Leaves the pointer on a cell that holds the value of an operand.  A number is
put into a scratch cell, whose address is returned. -/
def aimAt : Operand → Generating (Option Address)
  | .constant value => do
      let register ← acquire
      buildConstant register value
      let cell ← takeScratch 1
      pointTo cell.toNat
      emit (.unary .store register)
      onStore (StoreAction.release register)
      return some cell
  | .scalar cell => do
      refresh cell
      pointTo cell.address
      return none
  | .element address => do
      pointTo address
      return none
  | .dynamic base index => do
      let register ← acquire
      computeAddress register base index
      onStore (StoreAction.release register)
      return none

/-- Loads a scalar into a held register that may be overwritten.  A register
that caches the scalar is handed over. -/
def takeScalar (cell : ScalarCell) : Generating Int := do
  let value ← onStore (StoreAction.value cell.handle)
  match value.register with
  | none => loadCell cell.address
  | some register =>
      saveOccupant register cell.handle value
      if (← get).store.registerState register = .busy then
        onStore (StoreAction.release register)
        onStore (StoreAction.reserve register)
        return register
      loadCell cell.address

/-- Loads an operand into a held register that may be overwritten. -/
def take : Operand → Generating Int
  | .constant value => do
      let register ← acquire
      buildConstant register value
      return register
  | .scalar cell => takeScalar cell
  | .element address => loadCell address
  | .dynamic base index => do
      let register ← acquire
      computeAddress register base index
      emit (.unary .load register)
      return register

/-- Loads an operand into a register that must not be overwritten.  A scalar
stays cached there. -/
def readOperand (operand : Operand) : Generating Int := do
  match operand with
  | .scalar cell =>
      let value ← onStore (StoreAction.value cell.handle)
      match value.register with
      | some register =>
          onStore (StoreAction.setState register .inUse)
          return register
      | none =>
          let register ← loadCell cell.address
          onStore (StoreAction.bind register cell.handle)
          onStore (StoreAction.setState register .inUse)
          return register
  | other => take other

/-- Writes a held register to an operand.  A scalar keeps the register as its
cache and its memory cell becomes out of date. -/
def storeOperand (operand : Operand) (register : Int) : Generating Unit := do
  match operand with
  | .constant _ => return
  | .scalar cell =>
      let value ← onStore (StoreAction.value cell.handle)
      if let some previous := value.register then
        if previous ≠ register then
          onStore (StoreAction.release previous)
      onStore (StoreAction.bind register cell.handle)
      onStore (StoreAction.setFresh cell.name false)
  | .element address =>
      pointTo address
      emit (.unary .store register)
      onStore (StoreAction.release register)
  | .dynamic base index =>
      let pointing ← acquire
      computeAddress pointing base index
      emit (.unary .store register)
      releaseAll [pointing, register]

/-- Records what is known about an operand after it was written: outside all
constructs a number makes it known, everything else leaves the expression it came
from. -/
def learnValue (operand : Operand) (value : Option Nat) (text : String) : Generating Unit := do
  match operand with
  | .scalar cell =>
      onStore (StoreAction.forgetSymbolic cell.handle)
      let update (known : Value) : Value :=
        ((known.setCurrent none).extendExpression text).markSymbolic
      match value with
      | some number =>
          if (← get).depth = 0 then
            let _ ← onStore (StoreAction.change cell.handle (·.setCurrent (some (number : Int))))
          else
            let _ ← onStore (StoreAction.change cell.handle update)
      | none =>
          let _ ← onStore (StoreAction.change cell.handle update)
  | _ => return

end Generating

end RegisterCompiler
