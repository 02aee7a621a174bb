/-
The registers and the values they hold.

Register 0 is the pointer and is never given away.  A register and the value it
holds name each other.
-/

import RegisterCompiler.Store

set_option autoImplicit false

namespace RegisterCompiler

def pointerRegister : Nat := 0

namespace Store

def registerCount (store : Store) : Nat :=
  store.registers.size

def register? (store : Store) (register : Int) : Option Register :=
  if register < 0 then none else store.registers[register.toNat]?

def registerState (store : Store) (register : Int) : RegisterState :=
  ((store.register? register).map Register.state).getD .free

def occupant? (store : Store) (register : Int) : Option Handle :=
  (store.register? register).bind Register.occupant

/-- The registers other than the pointer in a given state, lowest first. -/
def registersIn (store : Store) (state : RegisterState) : List Nat :=
  (store.registers.toList.zipIdx.filter fun (register, number) =>
    number != pointerRegister && register.state == state).map Prod.snd

def freeRegister? (store : Store) : Option Nat :=
  (store.registersIn .free).head?

/-- The registers whose values may be given up, lowest first. -/
def busyRegisters (store : Store) : List Nat :=
  store.registersIn .busy

/-- The registers held for the instruction being built, lowest first. -/
def heldRegisters (store : Store) : List Nat :=
  store.registersIn .inUse

def setRegister (store : Store) (register : Int) (entry : Register) : Store :=
  { store with registers := store.registers.set! register.toNat entry }

def markRegister (store : Store) (register : Int) (state : RegisterState) : Store :=
  let registers := store.registers.modify register.toNat fun entry => { entry with state := state }
  { store with registers := registers }

/-- Parts a register from the value it holds.  The value forgets the register if
it names it. -/
def unlink (store : Store) (register : Int) : Store :=
  match store.occupant? register with
  | none => store
  | some handle =>
      let arena := store.arena.modify handle fun value =>
        if value.register = some register then { value with register := none } else value
      let registers := store.registers.modify register.toNat fun entry =>
        { entry with occupant := none }
      { store with arena := arena, registers := registers }

end Store

namespace StoreAction

def checkAllocatable (register : Int) : StoreAction Unit := do
  if register ≤ 0 || (← get).registerCount ≤ register then
    throw (.notAllocatable register)

/-- Lets a register hold a value.  What the register held and where the value was
held are parted first. -/
def bind (register : Int) (handle : Handle) : StoreAction Unit := do
  checkAllocatable register
  let _ ← value handle
  modify fun store => store.unlink register
  let found ← value handle
  if let some previous := found.register then
    if ((← get).register? previous).isNone then
      throw (.registerOutside previous)
    modify fun store => (store.unlink previous).markRegister previous .free
  modify fun store => store.setRegister register ⟨.busy, some handle⟩
  modifyArena fun arena => arena.modify handle fun value => value.noteRegister register

def reserve (register : Int) : StoreAction Unit := do
  checkAllocatable register
  modify fun store => (store.unlink register).setRegister register ⟨.inUse, none⟩

def release (register : Int) : StoreAction Unit := do
  checkAllocatable register
  modify fun store => (store.unlink register).setRegister register ⟨.free, none⟩

def setState (register : Int) (state : RegisterState) : StoreAction Unit := do
  checkAllocatable register
  if state = .free then
    release register
  else if (← get).registerState register = .free then
    throw (.registerFree register)
  else
    modify fun store => store.markRegister register state

def resetRegisters : StoreAction Unit :=
  modify fun store =>
    (List.range (store.registerCount - 1)).foldl
      (fun store step => (store.unlink (step + 1)).setRegister (step + 1) ⟨.free, none⟩) store

end StoreAction

namespace Store

def occupantFault? (store : Store) (register : Register) (number : Nat) : Option StoreFault := do
  let handle ← register.occupant
  match store.arena.get? handle with
  | none => return .staleOccupant number handle
  | some value =>
      if value.register = some (number : Int) then none
      else return .strayOccupant number (store.arena.describe value) (value.register.getD (-1))

def bindingFault? (store : Store) (handle : Handle) (value : Value) : Option StoreFault := do
  let register ← value.register
  if 0 < register && store.occupant? register == some handle then none
  else return .strayBinding (store.arena.describe value) register

/-- The first register and value that do not name each other. -/
def asymmetry? (store : Store) : Option StoreFault :=
  (store.registers.toList.zipIdx.findSome? fun (register, number) =>
      store.occupantFault? register number).or
    (store.arena.entries.findSome? fun (handle, value) => store.bindingFault? handle value)

end Store

end RegisterCompiler
