/-
The owner of all values and arrays of one compilation.

Values live in slots.  A slot that was freed is used again, last freed first, and
every use has a new generation, so that a handle to a freed value never refers to
a later one.
-/

import RegisterCompiler.Store.Value

set_option autoImplicit false

namespace RegisterCompiler

/-- A slot: the generation of its last use, and the value while it lives. -/
structure Slot where
  generation : Nat
  value : Option Value
deriving Repr, DecidableEq, Inhabited

/-- The owner of values and arrays.  It counts the values that live. -/
structure Arena where
  slots : Array Slot
  freeSlots : List Nat
  live : Nat
  arrays : Array ArrayInfo
deriving Repr, DecidableEq, Inhabited

namespace Arena

def empty : Arena := ⟨#[], [], 0, #[]⟩

def create (arena : Arena) (payload : Payload) : Handle × Arena :=
  let value := Value.ofPayload payload
  match arena.freeSlots with
  | [] =>
      (⟨arena.slots.size, 1⟩,
        { arena with
          slots := arena.slots.push ⟨1, some value⟩
          live := arena.live + 1 })
  | index :: rest =>
      let generation := (arena.slots.getD index default).generation + 1
      (⟨index, generation⟩,
        { arena with
          slots := arena.slots.set! index ⟨generation, some value⟩
          freeSlots := rest
          live := arena.live + 1 })

def get? (arena : Arena) (handle : Handle) : Option Value :=
  if handle.isNil then none
  else
    match arena.slots[handle.index]? with
    | none => none
    | some slot => if slot.generation = handle.generation then slot.value else none

def free? (arena : Arena) (handle : Handle) : Option (Value × Arena) :=
  (arena.get? handle).map fun value =>
    (value,
      { arena with
        slots := arena.slots.set! handle.index ⟨handle.generation, none⟩
        freeSlots := handle.index :: arena.freeSlots
        live := arena.live - 1 })

def copy? (arena : Arena) (handle : Handle) : Option (Handle × Arena) :=
  (arena.get? handle).map fun value => arena.create value.payload

def modify (arena : Arena) (handle : Handle) (change : Value → Value) : Arena :=
  match arena.get? handle with
  | none => arena
  | some value =>
      { arena with
        slots := arena.slots.set! handle.index ⟨handle.generation, some (change value)⟩ }

/-- The living values with their handles, in the order of the slots. -/
def entries (arena : Arena) : List (Handle × Value) :=
  arena.slots.toList.zipIdx.filterMap fun (slot, index) =>
    slot.value.map fun value => (⟨index, slot.generation⟩, value)

/-! ### Arrays -/

def createArray (arena : Arena) (name : String) (length : Int) : ArrayRef × Arena :=
  (arena.arrays.size, { arena with arrays := arena.arrays.push (.unplaced name length) })

def array (arena : Arena) (ref : ArrayRef) : ArrayInfo :=
  arena.arrays.getD ref default

def modifyArray (arena : Arena) (ref : ArrayRef) (change : ArrayInfo → ArrayInfo) : Arena :=
  { arena with arrays := arena.arrays.modify ref change }

def arrayName (arena : Arena) (element : ArrayElement) : String :=
  match element.array with
  | none => "?"
  | some ref => (arena.array ref).name

def elementAddress? (arena : Arena) (element : ArrayElement) : Option Int := do
  if element.index.isSome then none
  let ref ← element.array
  let base ← (arena.array ref).base
  let offset ← element.offset
  return (base : Int) + offset

/-- Whether an element of a placed array cannot tell its address: it is at a fixed
place but has no offset. -/
def lacksOffset (arena : Arena) (element : ArrayElement) : Bool :=
  element.index.isNone && element.offset.isNone &&
    (element.array.bind fun ref => (arena.array ref).base).isSome

/-- A value as shown in messages. -/
def describe (arena : Arena) (value : Value) : String :=
  match value.payload with
  | .constant constant => toString constant
  | .plain scalar => scalar.name
  | .element element =>
      let place :=
        match element.index, element.offset with
        | some name, _ => name
        | none, some offset => toString offset
        | none, none => "<nil>"
      s!"{arena.arrayName element}[{place}]"
  | .missing => "<invalid>"

/-- The element of an array at an offset that was used before and still lives. -/
def usedElement? (arena : Arena) (ref : ArrayRef) (offset : Int) : Option Handle :=
  (arena.array ref).elements.find? fun handle =>
    match (arena.get? handle).bind Value.element? with
    | some element => element.offset == some offset
    | none => false

/-- The element of an array at an offset, created at its first use.  There is
none outside the array. -/
def element? (arena : Arena) (ref : ArrayRef) (offset : Int) : Option (Handle × Arena) :=
  let info := arena.array ref
  if info.inRange offset then
    match arena.usedElement? ref offset with
    | some handle => some (handle, arena)
    | none =>
        let slot := info.newSlot (toString offset)
        let (handle, grown) := arena.create (.element ⟨some slot, some offset, none, some ref⟩)
        some (handle, grown.modifyArray ref fun info =>
          { info with elements := info.elements ++ [handle] })
  else none

def dynamicElement (arena : Arena) (ref : ArrayRef) (index : String) : Handle × Arena :=
  let slot := (arena.array ref).newSlot index
  arena.create (.element ⟨some slot, some 0, some index, some ref⟩)

end Arena

end RegisterCompiler
