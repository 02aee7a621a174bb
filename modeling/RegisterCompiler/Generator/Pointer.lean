/-
Numbers in registers.

A number is built from its bits: the register is cleared, then doubled and
incremented as the bits require, the highest first.  When the number in the
pointer register is known and close to the wanted address, counting up or down
from it is shorter.
-/

import RegisterCompiler.Generator.Context

set_option autoImplicit false

namespace RegisterCompiler

/-- Builds a number in a register, in front of other code. -/
def constantCodeBefore (register : Int) (value : Nat) (rest : List Instruction) :
    List Instruction :=
  if value = 0 then .unary .zero register :: rest
  else if value = 1 then .unary .zero register :: .unary .inc register :: rest
  else
    constantCodeBefore register (value / 2) <| .unary .shl register ::
      if value % 2 = 1 then .unary .inc register :: rest else rest
termination_by value

def constantCode (register : Int) (value : Nat) : List Instruction :=
  constantCodeBefore register value []

def oneBits (value : Nat) : Nat :=
  if value = 0 then 0 else value % 2 + oneBits (value / 2)
termination_by value

/-- The number of instructions that build a number: one clears the register, one is for each bit
behind the highest, and one for each bit that is set. -/
def constantCost (value : Nat) : Nat :=
  if value = 0 then 1 else 1 + value.log2 + oneBits value

/-- Moves the pointer register to an address, given the number it is known to
hold: by single steps when they are fewer than the instructions that build the
address. -/
def pointerCode (known : Option Nat) (address : Nat) : List Instruction :=
  match known with
  | none => constantCode pointerRegister address
  | some place =>
      if place ≤ address then
        if address - place < constantCost address then
          List.replicate (address - place) (.unary .inc pointerRegister)
        else constantCode pointerRegister address
      else if place - address < constantCost address then
        List.replicate (place - address) (.unary .dec pointerRegister)
      else constantCode pointerRegister address

namespace Generating

def notePointer (value : Nat) : Generating Unit :=
  modify fun context => { context with pointer := some value }

def buildConstant (register : Int) (value : Nat) : Generating Unit := do
  emitAll (constantCode register value)
  if register = pointerRegister then
    notePointer value

theorem buildConstant_of_ne {register : Int} (hRegister : register ≠ pointerRegister) (value : Nat) :
    buildConstant register value = emitAll (constantCode register value) := by
  unfold buildConstant
  rw [if_neg hRegister]
  rfl

def pointTo (address : Nat) : Generating Unit := do
  emitAll (pointerCode (← get).pointer address)
  notePointer address

/-- Forgets what is in the pointer register, as at every jump target. -/
def forgetPointer : Generating Unit :=
  modify fun context => { context with pointer := none }

/-- Lets the newest label lead to the next line, which other code may now jump
to. -/
def landHere : Generating Unit := do
  resolveLabel
  forgetPointer

end Generating

end RegisterCompiler
