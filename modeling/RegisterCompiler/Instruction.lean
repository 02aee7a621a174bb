/-
Instructions of the target machine.

The machine has registers that hold naturals; register 0 is the pointer, through
which memory is addressed.  An instruction has an opcode and, depending on the
opcode, a register operand, a jump target or both.
-/

import RegisterCompiler.Text.Hex

set_option autoImplicit false

namespace RegisterCompiler

inductive Opcode where
  | get
  | put
  | load
  | store
  | add
  | sub
  | copy
  | shr
  | shl
  | inc
  | dec
  | zero
  | jump
  | jzero
  | jodd
  | halt
  | undefined (byte : UInt8)
deriving Repr, DecidableEq, Inhabited

inductive Shape where
  | none
  | register
  | target
  | registerTarget
deriving Repr, DecidableEq, Inhabited

namespace Shape

def number : Shape → Nat
  | none => 0
  | register => 1
  | target => 2
  | registerTarget => 3

def arity : Shape → Nat
  | none => 0
  | register => 1
  | target => 1
  | registerTarget => 2

end Shape

namespace Opcode

def all : List Opcode :=
  [get, put, load, store, add, sub, copy, shr, shl, inc, dec, zero, jump, jzero, jodd, halt]

def toByte : Opcode → UInt8
  | get => 0
  | put => 1
  | load => 2
  | store => 3
  | add => 4
  | sub => 5
  | copy => 6
  | shr => 7
  | shl => 8
  | inc => 9
  | dec => 10
  | zero => 11
  | jump => 12
  | jzero => 13
  | jodd => 14
  | halt => 15
  | undefined byte => byte

def ofByte (byte : UInt8) : Opcode :=
  (all[byte.toNat]?).getD (undefined byte)

def isDefined : Opcode → Bool
  | undefined _ => false
  | _ => true

def name : Opcode → String
  | get => "GET"
  | put => "PUT"
  | load => "LOAD"
  | store => "STORE"
  | add => "ADD"
  | sub => "SUB"
  | copy => "COPY"
  | shr => "SHR"
  | shl => "SHL"
  | inc => "INC"
  | dec => "DEC"
  | zero => "ZERO"
  | jump => "JUMP"
  | jzero => "JZERO"
  | jodd => "JODD"
  | halt => "HALT"
  | undefined byte => s!"UNKNOWN({Text.hexByte byte})"

def ofName? (name : String) : Option Opcode :=
  all.find? fun opcode => opcode.name == name

def shape : Opcode → Shape
  | get | put | load | store | add | sub | copy | shr | shl | inc | dec | zero => .register
  | jump => .target
  | jzero | jodd => .registerTarget
  | halt | undefined _ => .none

def cost : Opcode → UInt64
  | get | put => 100
  | load | store => 20
  | add | sub => 10
  | copy => 5
  | shr | shl | inc | dec | zero | jump | jzero | jodd => 1
  | halt | undefined _ => 0

def isJump : Opcode → Bool
  | jump | jzero | jodd => true
  | _ => false

def usesPointer : Opcode → Bool
  | load | store | add | sub => true
  | _ => false

theorem ofByte_toByte {opcode : Opcode} (hDefined : opcode.isDefined = true) :
    ofByte opcode.toByte = opcode := by
  cases opcode <;> simp_all [isDefined, ofByte, toByte, all]

end Opcode

structure Instruction where
  opcode : Opcode
  register : Int
  target : Int
deriving Repr, DecidableEq, Inhabited

namespace Instruction

def unary (opcode : Opcode) (register : Int) : Instruction :=
  ⟨opcode, register, 0⟩

def jump (target : Int) : Instruction :=
  ⟨.jump, 0, target⟩

def branch (opcode : Opcode) (register target : Int) : Instruction :=
  ⟨opcode, register, target⟩

def stop : Instruction :=
  ⟨.halt, 0, 0⟩

def words (opcode : Opcode) (operands : List Int) : String :=
  operands.foldl (fun text operand => text ++ " " ++ toString operand) opcode.name

def operands (instruction : Instruction) : List Int :=
  match instruction.opcode.shape with
  | .none => []
  | .register => [instruction.register]
  | .target => [instruction.target]
  | .registerTarget => [instruction.register, instruction.target]

def text (instruction : Instruction) : String :=
  words instruction.opcode instruction.operands

end Instruction

def staticCost (code : List Instruction) : UInt64 :=
  code.foldr (fun instruction total => instruction.opcode.cost + total) 0

end RegisterCompiler
