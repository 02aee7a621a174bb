/-
The target machine.

The machine runs a list of instructions from line zero until HALT.  Registers
and memory cells hold naturals of any size; a cell has no value before it is
written.  Every executed instruction counts as one step, and a run may take
only so many.  An instruction that fails is counted, and leaves registers and
memory as they were.
-/

import RegisterCompiler.Instruction
import RegisterCompiler.Text.Blank
import RegisterCompiler.Text.Decimal
import RegisterCompiler.Text.Quoted
import Std.Data.HashMap

set_option autoImplicit false

namespace RegisterCompiler

open Text (Bytes Glyph)

inductive Intake where
  | word (glyphs : List Glyph)
  | overflow
deriving Repr, DecidableEq

/-- The input of a machine: the words still to come, and whether a word that is
too long ends it. -/
structure Feed where
  pending : List Intake
  jammed : Bool
deriving Repr, DecidableEq

namespace Feed

/-- How many bytes of the input are looked at together. -/
def window : Nat := 65536

def byteLength (word : List Glyph) : Nat :=
  word.foldr (fun glyph total => glyph.bytes.length + total) 0

/-- The bytes that show where a word ends: those of the blank behind it, and as much
as one byte at the end of the input. -/
def endLength (blank : Option Glyph) : Nat :=
  blank.elim 1 fun glyph => glyph.bytes.length

/-- The feed of words with the blanks behind them.  A word whose end is not in sight
fails once; behind it only what is in sight of it can still be taken. -/
def ofWords : List (List Glyph × Option Glyph) → Feed
  | [] => ⟨[], false⟩
  | (word, blank) :: rest =>
      if window < byteLength word + endLength blank then
        let start := ((word ++ blank.toList).flatMap Glyph.bytes).take window
        ⟨[.overflow, .word (Text.glyphs start)], true⟩
      else
        let feed := ofWords rest
        ⟨.word word :: feed.pending, feed.jammed⟩

def ofBytes (bytes : Bytes) : Feed :=
  ofWords (Text.glyphWords bytes)

end Feed

/-- Where the numbers that are put go: nowhere, to a list without end, or to a
list that takes only so many more. -/
inductive Sink where
  | discard
  | unbounded
  | bounded (room : Nat)
deriving Repr, DecidableEq

inductive ExecutionFault where
  | badRegister (register : Int)
  | uninitialized (address : Nat)
  | endOfInput
  | wordTooLong
  | notNatural (word : List Glyph)
  | outputClosed
  | unknownOpcode (byte : UInt8)
deriving Repr, DecidableEq

namespace ExecutionFault

def message : ExecutionFault → String
  | badRegister register => s!"register outside the register file: r{register}"
  | uninitialized address => s!"read of uninitialized memory at {address}"
  | endOfInput => "bad input: end of input"
  | wordTooLong => "bad input: bufio.Scanner: token too long"
  | notNatural word => s!"bad input: {Text.quoteGlyphs word} is not a natural number"
  | outputClosed => "output closed"
  | unknownOpcode byte => s!"unknown opcode {byte.toNat}"

end ExecutionFault

inductive RunFault where
  | noHalt
  | badJump (line : Int)
  | stepLimit (limit : Nat)
  | cancelled
  | execution (line : Int) (instruction : Instruction) (cause : ExecutionFault)
deriving Repr, DecidableEq

namespace RunFault

def message : RunFault → String
  | noHalt => "program ended without HALT"
  | badJump line => s!"jump target outside the program: {line}"
  | stepLimit limit => s!"step limit exceeded: {limit} steps"
  | cancelled => "context canceled"
  | execution line instruction cause =>
      s!"line {line} ({instruction.text}): {cause.message}"

end RunFault

structure MachineConfig where
  registers : Int
  stepLimit : Nat
  input : Option Bytes
  sink : Sink
  profile : Bool
  cancelled : Bool
deriving Repr

structure TooFewRegisters where
  found : Int
deriving Repr, DecidableEq

namespace TooFewRegisters

def message (fault : TooFewRegisters) : String :=
  s!"machine needs at least one register, got {fault.found}"

end TooFewRegisters

structure Machine where
  code : Array Instruction
  registers : Array Nat
  memory : Std.HashMap Nat Nat
  limit : Nat
  input : Option Feed
  sink : Sink
  output : Array Nat
  steps : Nat
  cost : UInt64
  profile : Option (Array Nat)
  cancelled : Bool

namespace Machine

def defaultStepLimit : Nat := 100000000

/-- How many steps run between two looks at whether the run was cancelled. -/
def cancelInterval : Nat := 4096

def create (code : List Instruction) (config : MachineConfig) : Except TooFewRegisters Machine :=
  if config.registers < 1 then .error ⟨config.registers⟩
  else .ok {
    code := code.toArray
    registers := Array.replicate config.registers.toNat 0
    memory := ∅
    limit := if config.stepLimit = 0 then defaultStepLimit else config.stepLimit
    input := config.input.map Feed.ofBytes
    sink := config.sink
    output := #[]
    steps := 0
    cost := 0
    profile := if config.profile then some (Array.replicate code.length 0) else none
    cancelled := config.cancelled }

def instruction? (machine : Machine) (line : Int) : Option Instruction :=
  if line < 0 then none else machine.code[line.toNat]?

def register? (machine : Machine) (register : Int) : Option Nat :=
  if register < 0 then none else machine.registers[register.toNat]?

def setRegister (machine : Machine) (register : Int) (value : Nat) : Machine :=
  { machine with registers := machine.registers.set! register.toNat value }

def pointer (machine : Machine) : Nat :=
  machine.registers[0]?.getD 0

def cell? (machine : Machine) : Option Nat :=
  machine.memory[machine.pointer]?

/-- Takes a number from the input.  The word is used up even if it spells no
natural number. -/
def take (machine : Machine) : Except ExecutionFault Nat × Machine :=
  match machine.input with
  | none => (.error .endOfInput, machine)
  | some feed =>
      match feed.pending with
      | [] => (.error (if feed.jammed then .wordTooLong else .endOfInput), machine)
      | .overflow :: rest =>
          (.error .wordTooLong, { machine with input := some { feed with pending := rest } })
      | .word word :: rest =>
          let used := { machine with input := some { feed with pending := rest } }
          match (Text.integer? (word.map Glyph.char)).filter (0 ≤ ·) with
          | some value => (.ok value.toNat, used)
          | none => (.error (.notNatural word), used)

def isClosed (machine : Machine) : Bool :=
  match machine.sink with
  | .bounded 0 => true
  | _ => false

def give (machine : Machine) (value : Nat) : Machine :=
  match machine.sink with
  | .discard | .bounded 0 => machine
  | .unbounded => { machine with output := machine.output.push value }
  | .bounded (room + 1) =>
      { machine with output := machine.output.push value, sink := .bounded room }

def combine (machine : Machine) (line register : Int) (value : Nat) (operation : Nat → Nat → Nat) :
    Except ExecutionFault Int × Machine :=
  match machine.cell? with
  | none => (.error (.uninitialized machine.pointer), machine)
  | some cell => (.ok (line + 1), machine.setRegister register (operation value cell))

/-- Executes an instruction other than HALT and JUMP whose register holds
`value`, and gives the line to go on with. -/
def executeOn (machine : Machine) (line : Int) (instruction : Instruction) (value : Nat) :
    Except ExecutionFault Int × Machine :=
  let register := instruction.register
  let next := line + 1
  match instruction.opcode with
  | .get =>
      match machine.take with
      | (.ok taken, used) => (.ok next, used.setRegister register taken)
      | (.error cause, used) => (.error cause, used)
  | .put =>
      if machine.isClosed then (.error .outputClosed, machine)
      else (.ok next, machine.give value)
  | .load => machine.combine line register value fun _ cell => cell
  | .store => (.ok next, { machine with memory := machine.memory.insert machine.pointer value })
  | .add => machine.combine line register value (· + ·)
  | .sub => machine.combine line register value (· - ·)
  | .copy => (.ok next, machine.setRegister 0 value)
  | .shr => (.ok next, machine.setRegister register (value / 2))
  | .shl => (.ok next, machine.setRegister register (value * 2))
  | .inc => (.ok next, machine.setRegister register (value + 1))
  | .dec => (.ok next, machine.setRegister register (value - 1))
  | .zero => (.ok next, machine.setRegister register 0)
  | .jzero => (.ok (if value = 0 then instruction.target else next), machine)
  | .jodd => (.ok (if value % 2 = 1 then instruction.target else next), machine)
  | opcode => (.error (.unknownOpcode opcode.toByte), machine)

def execute (machine : Machine) (line : Int) (instruction : Instruction) :
    Except ExecutionFault Int × Machine :=
  if instruction.opcode = .jump then (.ok instruction.target, machine)
  else
    match machine.register? instruction.register with
    | none => (.error (.badRegister instruction.register), machine)
    | some value => machine.executeOn line instruction value

def charge (machine : Machine) (line : Int) (instruction : Instruction) : Machine :=
  { machine with
    steps := machine.steps + 1
    cost := machine.cost + instruction.opcode.cost
    profile := machine.profile.map fun counts => counts.modify line.toNat (· + 1) }

def stopsCancelled (machine : Machine) : Bool :=
  machine.cancelled && machine.steps % cancelInterval == 0

def runFrom : Nat → Machine → Int → Except RunFault Unit × Machine
  | budget, machine, line =>
      match machine.instruction? line with
      | none =>
          (.error (if line = machine.code.size then .noHalt else .badJump line), machine)
      | some instruction =>
          match budget with
          | 0 => (.error (.stepLimit machine.limit), machine)
          | budget + 1 =>
              if machine.stopsCancelled then (.error .cancelled, machine)
              else
                let charged := machine.charge line instruction
                if instruction.opcode = .halt then (.ok (), charged)
                else
                  match charged.execute line instruction with
                  | (.ok next, after) => runFrom budget after next
                  | (.error cause, after) => (.error (.execution line instruction cause), after)

/-- Runs from line zero.  Registers, memory, input and counters carry on from
what the machine did before. -/
def run (machine : Machine) : Except RunFault Unit × Machine :=
  runFrom (machine.limit - machine.steps) machine 0

def outputText (machine : Machine) : String :=
  String.join (machine.output.toList.map fun value => s!"{value}\n")

/-! ### Profiles -/

/-- How often a line was executed; never for a line outside the program or
without a profile. -/
def count (machine : Machine) (line : Int) : Nat :=
  if line < 0 then 0
  else ((machine.profile.bind fun counts => counts[line.toNat]?)).getD 0

/-- The executed lines with their counts, the most executed first and equal
counts by line, at most `limit` of them unless it is negative. -/
def hotLines (machine : Machine) (limit : Int) : List (Nat × Nat) :=
  let counts := (machine.profile.getD #[]).toList
  let executed := counts.zipIdx.filterMap fun (count, line) =>
    if 0 < count then some (line, count) else none
  let sorted := executed.mergeSort fun left right => right.2 ≤ left.2
  if limit < 0 then sorted else sorted.take limit.toNat

end Machine

end RegisterCompiler
