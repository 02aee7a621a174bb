/-
What is known about the values of one compilation.

A store holds the values, the memory cells they own, the registers that hold
them and the names that stand for them.  An operation either succeeds or fails
with a cause; in both cases it leaves a store behind.
-/

import RegisterCompiler.OrderedMap
import RegisterCompiler.Store.Arena

set_option autoImplicit false

namespace RegisterCompiler

/-- The memory cells of a compilation: the owner of each used address, how many
cells of the scalar and array segments are given away, the total length of the
arrays in the oversized plane, and the arrays by the address of their head. -/
structure Space where
  layout : Layout
  chunks : OrderedMap Address Handle
  scalars : UInt64
  arrays : UInt64
  oversized : Nat
  heads : OrderedMap Address ArrayRef
deriving Repr, DecidableEq, Inhabited

/-- The use of a register: free, holding a value that may be given up, or held
for the instruction being built.  Numbers beyond these have no name. -/
inductive RegisterState where
  | free
  | busy
  | inUse
  | unnamed (number : Nat)
deriving Repr, DecidableEq, Inhabited

namespace RegisterState

def ofNumber : Nat → RegisterState
  | 0 => free
  | 1 => busy
  | 2 => inUse
  | number => unnamed number

def name : RegisterState → String
  | free => "free"
  | busy => "busy"
  | inUse => "in-use"
  | unnamed number => s!"State({number})"

end RegisterState

structure Register where
  state : RegisterState
  occupant : Option Handle
deriving Repr, DecidableEq, Inhabited

/-- What a name is declared as.  Numbers beyond these have no name. -/
inductive SymbolKind where
  | scalar
  | array
  | iterator
  | unnamed (number : Nat)
deriving Repr, DecidableEq, Inhabited

namespace SymbolKind

def ofNumber : Nat → SymbolKind
  | 0 => scalar
  | 1 => array
  | 2 => iterator
  | number => unnamed number

def name : SymbolKind → String
  | scalar => "scalar"
  | array => "array"
  | iterator => "iterator"
  | unnamed number => s!"Type({number})"

end SymbolKind

inductive Binding where
  | value (handle : Handle)
  | array (ref : ArrayRef)
  | nothing
deriving Repr, DecidableEq, Inhabited

/-- A declared name.  It is fresh while its memory cell holds its value. -/
structure SymbolEntry where
  name : String
  kind : SymbolKind
  binding : Binding
  fresh : Bool
deriving Repr, DecidableEq, Inhabited

namespace SymbolEntry

def handle? (entry : SymbolEntry) : Option Handle :=
  match entry.binding with
  | .value handle => some handle
  | _ => none

def array? (entry : SymbolEntry) : Option ArrayRef :=
  match entry.binding with
  | .array ref => some ref
  | _ => none

end SymbolEntry

/-- The declared names, and the name declared last for each value and array. -/
structure SymbolTable where
  byName : OrderedMap String SymbolEntry
  byValue : List (Handle × String)
  byArray : List (ArrayRef × String)
deriving Repr, DecidableEq, Inhabited

structure Store where
  arena : Arena
  space : Space
  registers : Array Register
  symbols : SymbolTable
deriving Repr, DecidableEq, Inhabited

inductive StoreFault where
  | staleHandle (handle : Handle)
  | missingSlot (array : String)
  | missingPayload
  | notVariable (value : String)
  | offsetOutOfRange (offset : Int) (name : String) (length : Int)
  | segmentFull (segment : Segment) (range : AddressRange)
  | noRun (range : AddressRange) (count : Nat)
  | arraysFull (needed left : Nat)
  | noChunks (segment : Segment)
  | runOutsideLoop (segment : Segment)
  | emptyRun
  | emptyArray (name : String) (length : Int)
  | addressInUse (address : Address)
  | unknownAddress (address : Address)
  | alreadyPlaced (value : String) (address : Address)
  | loopCell (address : Address) (cause : StoreFault)
  | notAllocatable (register : Int)
  | registerFree (register : Int)
  | registerOutside (register : Int)
  | staleOccupant (register : Nat) (handle : Handle)
  | strayOccupant (register : Nat) (value : String) (named : Int)
  | strayBinding (value : String) (register : Int)
  | emptyName
  | duplicateName (name : String)
deriving Repr, DecidableEq

namespace StoreFault

def message : StoreFault → String
  | staleHandle handle => s!"stale value handle: {handle.text}"
  | missingSlot array => s!"corrupt value payload: element of {array} has no slot"
  | missingPayload => "corrupt value payload: payload <nil>"
  | notVariable value => s!"{value} is not a variable"
  | offsetOutOfRange offset name length => s!"index {offset} out of range for {name}[{length}]"
  | segmentFull segment range => s!"segment exhausted: {segment.name} {range.text}"
  | noRun range count => s!"segment exhausted: loop {range.text} has no run of {count}"
  | arraysFull needed left => s!"segment exhausted: arrays needs {needed} cells, {left} left"
  | noChunks segment => s!"cannot allocate a chunk in the {segment.name} segment"
  | runOutsideLoop segment =>
      s!"runs are only allocated in the loop segment, not {segment.name}"
  | emptyRun => "empty run"
  | emptyArray name length => s!"array {name} has length {length}"
  | addressInUse address => s!"address already in use: {address.toNat}"
  | unknownAddress address => s!"unknown address: {address.toNat}"
  | alreadyPlaced value address => s!"value already has a chunk: {value} at {address.toNat}"
  | loopCell address cause => s!"loop cell {address.toNat}: {cause.message}"
  | notAllocatable register => s!"register {register} is not allocatable"
  | registerFree register => s!"register {register} is free"
  | registerOutside register => s!"register {register} is outside the file"
  | staleOccupant register handle => s!"register {register}: stale value handle: {handle.text}"
  | strayOccupant register value named =>
      s!"register {register} holds {value}, which names register {named}"
  | strayBinding value register =>
      s!"{value} names register {register}, which does not hold it"
  | emptyName => "empty name"
  | duplicateName name => s!"duplicate name: {name}"

end StoreFault

abbrev StoreAction := ExceptT StoreFault (StateM Store)

inductive StoreRefusal where
  | layout (fault : LayoutFault)
  | fewRegisters (count : Int)
deriving Repr, DecidableEq

namespace StoreRefusal

def message : StoreRefusal → String
  | layout fault => fault.message
  | fewRegisters count => s!"register file needs at least 2 registers, got {count}"

end StoreRefusal

namespace Store

def empty (layout : Layout) (registers : Nat) : Store where
  arena := .empty
  space := ⟨layout, .empty, 0, 0, 0, .empty⟩
  registers := Array.replicate registers ⟨.free, none⟩
  symbols := ⟨.empty, [], []⟩

def create (layout : Layout) (registers : Int) : Except StoreRefusal Store :=
  match layout.fault? with
  | some fault => .error (.layout fault)
  | none =>
      if registers < 2 then .error (.fewRegisters registers)
      else .ok (.empty layout registers.toNat)

end Store

namespace StoreAction

def modifyArena (change : Arena → Arena) : StoreAction Unit :=
  modify fun store => { store with arena := change store.arena }

def modifySpace (change : Space → Space) : StoreAction Unit :=
  modify fun store => { store with space := change store.space }

def value (handle : Handle) : StoreAction Value := do
  match (← get).arena.get? handle with
  | some value => return value
  | none => throw (.staleHandle handle)

def create (payload : Payload) : StoreAction Handle := do
  let (handle, arena) := (← get).arena.create payload
  modifyArena fun _ => arena
  return handle

def free (handle : Handle) : StoreAction Value := do
  match (← get).arena.free? handle with
  | some (value, arena) =>
      modifyArena fun _ => arena
      return value
  | none => throw (.staleHandle handle)

def copy (handle : Handle) : StoreAction Handle := do
  let source ← value handle
  create source.payload

def createArray (name : String) (length : Int) : StoreAction ArrayRef := do
  let (ref, arena) := (← get).arena.createArray name length
  modifyArena fun _ => arena
  return ref

/-- The element of an array at an offset, created at its first use. -/
def element (ref : ArrayRef) (offset : Int) : StoreAction Handle := do
  let arena := (← get).arena
  match arena.element? ref offset with
  | some (handle, arena) =>
      modifyArena fun _ => arena
      return handle
  | none =>
      let info := arena.array ref
      throw (.offsetOutOfRange offset info.name info.length)

def dynamicElement (ref : ArrayRef) (index : String) : StoreAction Handle := do
  let (handle, arena) := (← get).arena.dynamicElement ref index
  modifyArena fun _ => arena
  return handle

def elementThrough (ref : ArrayRef) (index : Handle) : StoreAction Handle := do
  let found ← value index
  match found.plain? with
  | some scalar => dynamicElement ref scalar.name
  | none => throw (.notVariable ((← get).arena.describe found))

def change (handle : Handle) (update : Value → Value) : StoreAction Value := do
  let found ← value handle
  modifyArena fun arena => arena.modify handle update
  return update found

/-- Forgets the expression a value came from and calls it known. -/
def forgetSymbolic (handle : Handle) : StoreAction Unit := do
  let found ← value handle
  match found.payload with
  | .constant _ => return
  | .missing => throw .missingPayload
  | .element element =>
      if element.slot.isNone then
        throw (.missingSlot ((← get).arena.arrayName element))
  | .plain _ => pure ()
  modifyArena fun arena => arena.modify handle Value.forgetExpression

end StoreAction

end RegisterCompiler
