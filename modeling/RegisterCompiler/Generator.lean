/-
Code generation.

Declared names get memory cells, then every command is compiled in order.  The
registers are a cache of the scalars that is empty at every jump target, so that
code reached on several ways finds all values in memory.
-/

import RegisterCompiler.Generator.Comparison

set_option autoImplicit false

namespace RegisterCompiler

open Source (Position)

namespace Generating

/-! ### Declarations -/

def declareScalar (name : String) : Generating Unit := do
  let handle ← onStore (StoreAction.create (.plain (.unknown name)))
  let address ← placing name (StoreAction.allocate .scalars handle)
  onStore (StoreAction.declare name .scalar (.value handle))
  modify fun context =>
    { context with placements := context.placements.push ⟨name, .scalars, address.toNat, none⟩ }

def declareArray (name : String) (length : Nat) : Generating Unit := do
  let ref ← onStore (StoreAction.createArray name length)
  let head ← onStore (StoreAction.element ref 0)
  placing name (StoreAction.allocateArray ref head)
  let info := (← get).store.arena.array ref
  if info.kind = .big then
    let _ ← onStore (StoreAction.change head (·.setBig true))
  onStore (StoreAction.declare name .array (.array ref))
  let segment : Segment := if info.kind = .big then .oversized else .arrays
  modify fun context =>
    { context with
      placements := context.placements.push ⟨name, segment, info.base.getD 0, some length⟩ }

def declareName (declaration : Declaration) : Generating Unit := do
  let position := declaration.span.first
  if ((← get).store.symbols.lookup? declaration.name).isSome then
    refuse position (.declaredTwice declaration.name)
  match declaration.length with
  | none => declareScalar declaration.name
  | some length =>
      if length = 0 then
        refuse position (.emptyArray declaration.name)
      declareArray declaration.name length

def declareAll : List Declaration → Generating Unit
  | [] => return
  | declaration :: rest => do
      declareName declaration
      declareAll rest

/-! ### Simple commands -/

def assign (target : Reference) (value : Expression) : Generating Unit := do
  let destination ← resolveTarget target
  let calculation ← resolveExpression value
  let register ← calculate calculation
  storeOperand destination register
  learnValue destination calculation.constant? value.text

def readInput (target : Reference) : Generating Unit := do
  let destination ← resolveTarget target
  let register ← acquire
  emit (.unary .get register)
  storeOperand destination register
  learnValue destination none "input"

def writeOutput (value : Atom) : Generating Unit := do
  let operand ← resolve value
  let register ← readOperand operand
  emit (.unary .put register)

/-! ### Counting loops -/

/-- A counting loop being compiled: the cells of its iterator and of the number of
rounds that are left. -/
structure LoopCells where
  iterator : Address
  counter : Address
deriving Repr, DecidableEq, Inhabited

/-- Stores a held register in a cell and frees the register. -/
def storeCell (cell : Address) (register : Int) : Generating Unit := do
  pointTo cell.toNat
  emit (.unary .store register)
  onStore (StoreAction.release register)

/-- Leaves the number of rounds in a held register: the distance of the bounds
plus one, zero if they are in the wrong order. -/
def countRounds (first last : Operand) (direction : Direction) : Generating Int := do
  let (low, high) := if direction = .down then (last, first) else (first, last)
  let register ← take high
  emit (.unary .inc register)
  decreaseBy register low
  return register

def placeIterator (handle : Handle) : Generating Address := do
  try
    onStore (StoreAction.allocate .loop handle)
  catch fault =>
    let _ ← onStore (StoreAction.free handle)
    throw fault

def openLoop (position : Position) (iterator : String) (first last : Atom)
    (direction : Direction) : Generating LoopCells := do
  if ((← get).store.symbols.lookup? iterator).isSome then
    refuse position (.iteratorTaken iterator)
  let start ← resolve first
  let stop ← resolve last
  let rounds ← countRounds start stop direction
  let counterCell ← takeScratch 1
  storeCell counterCell rounds
  let handle ← onStore (StoreAction.create (.plain (.unknown iterator)))
  let iteratorCell ← placeIterator handle
  let initial ← take start
  storeCell iteratorCell initial
  onStore (StoreAction.declare iterator .iterator (.value handle))
  tidyUp
  modify fun context => { context with loops := context.loops + 1 }
  return ⟨iteratorCell, counterCell⟩

def testLoop (cells : LoopCells) : Generating Unit := do
  let register ← acquire
  loadInto register cells.counter.toNat
  openLabel .returning (← emitJump .jzero [register])
  onStore (StoreAction.release register)

/-- Moves the iterator on, counts a round off and jumps back. -/
def stepLoop (cells : LoopCells) (direction : Direction) (start : Nat) : Generating Unit := do
  let register ← acquire
  loadInto register cells.iterator.toNat
  emitAll [.unary (if direction = .down then .dec else .inc) register, .unary .store register]
  loadInto register cells.counter.toNat
  emitAll [.unary .dec register, .unary .store register, .jump start]
  onStore (StoreAction.release register)

def freeLoopCells : Generating Unit := do
  let ((_, fault), store) := StoreAction.freeLoopCells.run (← get).store
  modify fun context => { context with store := store }
  match fault with
  | none => return
  | some fault => throw (.store fault)

/-- Removes an iterator and gives the cells of its loop back.  The outermost loop
leaves no loop cell used. -/
def closeLoop (iterator : String) (cells : LoopCells) : Generating Unit := do
  onStore (StoreAction.undeclare iterator)
  let _ ← onStore (StoreAction.freeAt cells.iterator)
  let _ ← onStore (StoreAction.freeAt cells.counter)
  modify fun context => { context with loops := context.loops - 1 }
  if (← get).loops = 0 then
    freeLoopCells

/-! ### Commands -/

mutual

def compileCommand : Command → Generating Unit
  | .assign _ target value => assign target value
  | .read _ target => readInput target
  | .write _ value => writeOutput value
  | .skip _ => return
  | .ifThen _ condition body => do
      testCondition condition
      nested do
        compileCommands body
        clearCache
        landHere
  | .ifElse _ condition body orElse => do
      testCondition condition
      nested do
        compileCommands body
        clearCache
        let leave ← emitJump .jump []
        landHere
        openLabel .ending leave
        compileCommands orElse
        clearCache
        landHere
  | .whileLoop _ condition body => do
      clearCache
      forgetPointer
      let start ← nextLine
      nested do
        testCondition condition
        compileCommands body
        clearCache
        emit (.jump start)
        landHere
  | .forLoop span iterator first last direction body => do
      let cells ← openLoop span.first iterator first last direction
      clearCache
      forgetPointer
      let start ← nextLine
      nested do
        testLoop cells
        compileCommands body
        clearCache
        stepLoop cells direction start
        landHere
        closeLoop iterator cells

def compileCommands : List Command → Generating Unit
  | [] => return
  | command :: rest => do
      compileCommand command
      tidyUp
      compileCommands rest

end

def compileProgram (program : Program) : Generating Unit := do
  declareAll program.declarations
  compileCommands program.body
  emit .stop
  let opened := (← get).labels.length
  if opened ≠ 0 then
    throw (.labelsOpen opened)

end Generating

namespace Context

/-- Compiles a program in a context; the context is changed even if it fails. -/
def generate (context : Context) (program : Program) : Except GeneratorFault Unit × Context :=
  (Generating.compileProgram program).run.run context

end Context

end RegisterCompiler
