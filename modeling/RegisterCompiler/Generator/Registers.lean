/-
Registers during code generation.

A register is free, caches the value of a variable, or is held for the command
being compiled.  A cached value may be newer than its memory cell, which the
symbol table knows; it is written back before the register is given to another
value.
-/

import RegisterCompiler.Generator.Pointer

set_option autoImplicit false

namespace RegisterCompiler

namespace Generating

/-- Writes a cached value to its memory cell unless the cell holds it already. -/
def saveOccupant (register : Int) (handle : Handle) (value : Value) : Generating Unit := do
  let store := (← get).store
  let entry := store.symbols.lookupValue? store.arena handle
  if (entry.map fun entry => store.symbols.isFresh entry.name) = some true then
    return
  match value.chunk with
  | none => throw (.unplaced (store.arena.describe value))
  | some address =>
      pointTo address.toNat
      emit (.unary .store register)
      if let some entry := entry then
        onStore (StoreAction.setFresh entry.name true)

/-- Frees a register; its value is kept in memory, in a loop cell if it has no
cell of its own. -/
def evict (register : Int) : Generating Unit := do
  match (← get).store.occupant? register with
  | none => onStore (StoreAction.release register)
  | some handle =>
      let value ← onStore (StoreAction.value handle)
      if value.chunk.isNone then
        let _ ← onStore (StoreAction.allocate .loop handle)
      let placed ← onStore (StoreAction.value handle)
      saveOccupant register handle placed
      onStore (StoreAction.release register)

def acquire : Generating Int := do
  let store := (← get).store
  match store.freeRegister? with
  | some register =>
      onStore (StoreAction.reserve register)
      return register
  | none =>
      match store.busyRegisters with
      | [] => throw (.registersHeld (store.registerCount - 1))
      | victim :: _ =>
          evict victim
          onStore (StoreAction.reserve victim)
          return victim

def releaseAll : List Int → Generating Unit
  | [] => return
  | register :: rest => do
      onStore (StoreAction.release register)
      releaseAll rest

def clearRegister (register : Nat) : Generating Unit := do
  match (← get).store.occupant? register with
  | none => return
  | some handle =>
      let value ← onStore (StoreAction.value handle)
      saveOccupant register handle value
      onStore (StoreAction.release register)

def clearRegisters : List Nat → Generating Unit
  | [] => return
  | register :: rest => do
      clearRegister register
      clearRegisters rest

/-- Writes all cached values back and frees their registers.  Registers without
a value are left alone. -/
def clearCache : Generating Unit := do
  clearRegisters (List.range' 1 ((← get).store.registerCount - 1))

/-- Lets held registers go: those with a value cache it from now on. -/
def tidyRegisters : List Nat → Generating Unit
  | [] => return
  | register :: rest => do
      match (← get).store.occupant? register with
      | some _ => onStore (StoreAction.setState register .busy)
      | none => onStore (StoreAction.release register)
      tidyRegisters rest

def freeAll : List Handle → Generating Unit
  | [] => return
  | handle :: rest => do
      let _ ← onStore (StoreAction.free handle)
      freeAll rest

/-- Ends a command: no register stays held and no dynamic element is left. -/
def tidyUp : Generating Unit := do
  tidyRegisters (← get).store.heldRegisters
  freeAll (← get).dynamics
  modify fun context => { context with dynamics := [] }

/-! ### Scratch cells -/

def createScratch : Nat → Generating (List Handle)
  | 0 => return []
  | count + 1 => do
      let handle ← onStore (StoreAction.create (.constant 0))
      return handle :: (← createScratch count)

def takeScratch (count : Nat) : Generating Address := do
  let handles ← createScratch count
  try
    onStore (StoreAction.allocateRun .loop handles)
  catch fault =>
    freeAll handles
    throw fault

def returnScratch (address : Address) : Nat → Generating Unit
  | 0 => return
  | count + 1 => do
      let _ ← onStore (StoreAction.freeAt address)
      returnScratch (address + 1) count

end Generating

end RegisterCompiler
