/-
Reading instructions from text.

A line holds one instruction: a mnemonic and its operands, divided by blanks.
An operand is a nonnegative number that fits a signed 64-bit word.  A jump that
lacks only its target is told apart from other lines with missing operands.
-/

import RegisterCompiler.Instruction
import RegisterCompiler.Text.Blank
import RegisterCompiler.Text.Decimal
import RegisterCompiler.Text.Quoted

set_option autoImplicit false

namespace RegisterCompiler

inductive DecodeFault where
  | empty
  | unknownOpcode (name : String)
  | unresolved (line : String)
  | wrongArity (opcode : Opcode) (found : Nat)
  | badOperand (operand line : String)
deriving Repr, DecidableEq

namespace DecodeFault

def message : DecodeFault → String
  | empty => "empty instruction"
  | unknownOpcode name => s!"unknown opcode {Text.quote name}"
  | unresolved line => s!"unresolved jump: {Text.quote line}"
  | wrongArity opcode found =>
      s!"{opcode.name} takes {opcode.shape.arity} operands, got {found}"
  | badOperand operand line => s!"bad operand {Text.quote operand} in {Text.quote line}"

end DecodeFault

namespace Instruction

def operand? (word : String) : Option Int :=
  (Text.signed64? word.toList).filter (0 ≤ ·)

/-- The values of the operands of a line, or the first word that has none. -/
def operandValues (line : String) : List String → Except DecodeFault (List Int)
  | [] => .ok []
  | word :: rest =>
      match operand? word with
      | none => .error (.badOperand word line)
      | some value => (operandValues line rest).map (value :: ·)

def ofOperands (opcode : Opcode) (operands : List Int) : Instruction :=
  match opcode.shape, operands with
  | .register, [register] => ⟨opcode, register, 0⟩
  | .target, [target] => ⟨opcode, 0, target⟩
  | .registerTarget, [register, target] => ⟨opcode, register, target⟩
  | _, _ => ⟨opcode, 0, 0⟩

def decode (line : String) : Except DecodeFault Instruction :=
  match Text.words line with
  | [] => .error .empty
  | name :: operands =>
      match Opcode.ofName? name with
      | none => .error (.unknownOpcode name)
      | some opcode =>
          if operands.length = opcode.shape.arity then
            (operandValues line operands).map (ofOperands opcode)
          else if operands.length + 1 = opcode.shape.arity && opcode.isJump then
            .error (.unresolved line)
          else
            .error (.wrongArity opcode operands.length)

end Instruction

structure NumberedFault where
  line : Nat
  fault : DecodeFault
deriving Repr, DecidableEq

namespace NumberedFault

def message (numbered : NumberedFault) : String :=
  s!"line {numbered.line}: {numbered.fault.message}"

end NumberedFault

def decodeLines (first : Nat) : List String → Except NumberedFault (List Instruction)
  | [] => .ok []
  | line :: rest =>
      match Instruction.decode line with
      | .error fault => .error ⟨first, fault⟩
      | .ok instruction => (decodeLines (first + 1) rest).map (instruction :: ·)

def assembleLines (first : Nat) : List String → Except NumberedFault (List Instruction)
  | [] => .ok []
  | line :: rest =>
      if (Text.words line).isEmpty then assembleLines (first + 1) rest
      else
        match Instruction.decode line with
        | .error fault => .error ⟨first, fault⟩
        | .ok instruction => (assembleLines (first + 1) rest).map (instruction :: ·)

/-- Reads a program text with one instruction on each line that is not blank.
Lines count from one. -/
def assemble (text : String) : Except NumberedFault (List Instruction) :=
  assembleLines 1 (Text.lines text)

end RegisterCompiler
