/-
The state of code generation.

A context holds the store, the listing under construction, the labels that wait
for their target, and what is known about the pointer register.  Generating code
changes the context, and keeps the changes made so far when it fails.
-/

import RegisterCompiler.Label
import RegisterCompiler.Program.Misuse
import RegisterCompiler.Store.Registers
import RegisterCompiler.Store.Space
import RegisterCompiler.Store.Symbols

set_option autoImplicit false

namespace RegisterCompiler

open Source (Position)

structure GeneratorOptions where
  registers : Int
  layout : Layout
  propagate : Bool
deriving Repr, DecidableEq, Inhabited

namespace GeneratorOptions

def standard : GeneratorOptions where
  registers := 8
  layout := .standard
  propagate := true

/-- The pointer and the four registers a division needs. -/
def leastRegisters : Int := 5

end GeneratorOptions

structure Placement where
  name : String
  segment : Segment
  address : Nat
  length : Option Nat
deriving Repr, DecidableEq, Inhabited

/-- What is known just before a line is added: the number in the pointer register, if
any, and the store. -/
structure Emission where
  line : Nat
  pointer : Option Nat
  store : Store
deriving Repr, DecidableEq, Inhabited

/-- The state of code generation.  The pointer is the number known to be in the
pointer register, the depth counts the enclosing constructs and `loops` the
enclosing counting loops.  The dynamic elements are those of the command being
compiled.  The emissions say in which states lines were added; no code depends on
them. -/
structure Context where
  options : GeneratorOptions
  store : Store
  labels : LabelStack
  listing : Listing
  pointer : Option Nat
  depth : Nat
  loops : Nat
  dynamics : List Handle
  placements : Array Placement
  emissions : Emission → Prop
deriving Inhabited

inductive ContextRefusal where
  | fewRegisters (count : Int)
  | layout (fault : LayoutFault)
deriving Repr, DecidableEq

namespace ContextRefusal

def message : ContextRefusal → String
  | fewRegisters count =>
      s!"codegen needs at least {GeneratorOptions.leastRegisters} registers, got {count}"
  | layout fault => fault.message

end ContextRefusal

namespace Context

def empty (options : GeneratorOptions) : Context where
  options := options
  store := .empty options.layout options.registers.toNat
  labels := []
  listing := .empty
  pointer := none
  depth := 0
  loops := 0
  dynamics := []
  placements := #[]
  emissions := fun _ => False

def emission (context : Context) : Emission :=
  ⟨context.listing.size, context.pointer, context.store⟩

def add (context : Context) (block : List Instruction) : Context :=
  { context with
    listing := context.listing.addAll block
    emissions := fun found =>
      context.emissions found ∨ block ≠ [] ∧ found = context.emission }

def addJump (context : Context) (opcode : Opcode) (operands : List Int) : Context :=
  { context with
    listing := context.listing.emitJump opcode operands
    emissions := fun found => context.emissions found ∨ found = context.emission }

def create (options : GeneratorOptions) : Except ContextRefusal Context :=
  if options.registers < GeneratorOptions.leastRegisters then
    .error (.fewRegisters options.registers)
  else
    match options.layout.fault? with
    | some fault => .error (.layout fault)
    | none => .ok (.empty options)

end Context

inductive GeneratorFault where
  | misuse (complaint : Complaint)
  | store (fault : StoreFault)
  | placing (name : String) (fault : StoreFault)
  | registersHeld (count : Nat)
  | unplaced (value : String)
  | label (fault : LabelFault)
  | labelsOpen (count : Nat)
deriving Repr, DecidableEq

namespace GeneratorFault

def message : GeneratorFault → String
  | misuse complaint => complaint.message
  | store fault => fault.message
  | placing name fault => s!"placing {name}: {fault.message}"
  | registersHeld count => s!"register exhaustion: {count} registers all hold temporaries"
  | unplaced value => s!"{value} has no memory cell"
  | label fault => fault.message
  | labelsOpen count => s!"control flow imbalance: {count} labels left open"

end GeneratorFault

abbrev Generating := ExceptT GeneratorFault (StateM Context)

namespace Generating

def refuse {α : Type} (position : Position) (misuse : Misuse) : Generating α :=
  throw (.misuse ⟨position, misuse⟩)

def onStore {α : Type} (action : StoreAction α) : Generating α := do
  let (result, store) := action.run.run (← get).store
  modify fun context => { context with store := store }
  match result with
  | .ok value => return value
  | .error fault => throw (.store fault)

def placing {α : Type} (name : String) (action : StoreAction α) : Generating α := do
  let (result, store) := action.run.run (← get).store
  modify fun context => { context with store := store }
  match result with
  | .ok value => return value
  | .error fault => throw (.placing name fault)

def emitAll (code : List Instruction) : Generating Unit :=
  modify fun context => context.add code

def emit (instruction : Instruction) : Generating Unit :=
  emitAll [instruction]

def nextLine : Generating Nat := do
  return (← get).listing.size

def emitJump (opcode : Opcode) (operands : List Int) : Generating Nat := do
  let line ← nextLine
  modify fun context => context.addJump opcode operands
  return line

def openLabel (kind : LabelKind) (line : Nat) : Generating Unit :=
  modify fun context => { context with labels := ⟨kind, line⟩ :: context.labels }

def resolveLabel : Generating Unit := do
  let line ← nextLine
  let context ← get
  let (result, labels, listing) := context.labels.resolve context.listing line
  set { context with labels := labels, listing := listing }
  match result with
  | .ok _ => return
  | .error fault => throw (.label fault)

def nested {α : Type} (action : Generating α) : Generating α := do
  modify fun context => { context with depth := context.depth + 1 }
  let result ← action
  modify fun context => { context with depth := context.depth - 1 }
  return result

end Generating

namespace Context

/-- What is wrong with a context between two commands: registers and values that
do not name each other, or registers still held. -/
def disorder? (context : Context) : Option String :=
  match context.store.asymmetry? with
  | some fault => some fault.message
  | none =>
      match context.store.heldRegisters with
      | [] => none
      | held =>
          let numbers := String.intercalate " " (held.map toString)
          some s!"registers [{numbers}] still in use"

end Context

end RegisterCompiler
