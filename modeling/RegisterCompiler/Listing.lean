/-
The program text under construction.

A listing is a list of lines; the number of a line is its address for jumps.
Lines are instructions, complete or still lacking the target of a jump, and
lines to which other text was appended.  Whatever a line is made of, appending
to it appends to its text.
-/

import RegisterCompiler.Instruction.Decode

set_option autoImplicit false

namespace RegisterCompiler

inductive Line where
  | complete (opcode : Opcode) (operands : List Int)
  | pending (opcode : Opcode) (operands : List Int)
  | edited (text : String)
deriving Repr, DecidableEq, Inhabited

namespace Line

/-- The text of a line.  A pending jump ends in a blank, behind which its target
belongs. -/
def text : Line → String
  | complete opcode operands => Instruction.words opcode operands
  | pending opcode operands => Instruction.words opcode operands ++ " "
  | edited text => text

def append (line : Line) (more : String) : Line :=
  edited (line.text ++ more)

/-- Appends a number to a line: a pending jump becomes complete. -/
def appendTarget : Line → Int → Line
  | pending opcode operands, target => complete opcode (operands ++ [target])
  | line, target => edited (line.text ++ toString target)

@[simp]
theorem text_append (line : Line) (more : String) : (line.append more).text = line.text ++ more :=
  rfl

@[simp]
theorem text_appendTarget (line : Line) (target : Int) :
    (line.appendTarget target).text = line.text ++ toString target := by
  cases line with
  | complete opcode operands => rfl
  | pending opcode operands => simp [appendTarget, text, Instruction.words, List.foldl_append]
  | edited text => rfl

end Line

structure Listing where
  lines : Array Line
deriving Repr, DecidableEq, Inhabited

structure NoSuchLine where
  slot : Int
deriving Repr, DecidableEq

namespace NoSuchLine

def message (fault : NoSuchLine) : String :=
  s!"no instruction at line {fault.slot}"

end NoSuchLine

namespace Listing

def empty : Listing := ⟨#[]⟩

/-- The number of lines, which is the number of the next line. -/
def size (listing : Listing) : Nat :=
  listing.lines.size

def emit (listing : Listing) (opcode : Opcode) (operands : List Int) : Listing :=
  ⟨listing.lines.push (.complete opcode operands)⟩

def add (listing : Listing) (instruction : Instruction) : Listing :=
  listing.emit instruction.opcode instruction.operands

def addAll (listing : Listing) (code : List Instruction) : Listing :=
  code.foldl add listing

def emitJump (listing : Listing) (opcode : Opcode) (operands : List Int) : Listing :=
  ⟨listing.lines.push (.pending opcode operands)⟩

def line? (listing : Listing) (slot : Int) : Option Line :=
  if slot < 0 then none else listing.lines[slot.toNat]?

def change (listing : Listing) (slot : Int) (edit : Line → Line) : Except NoSuchLine Listing :=
  match listing.line? slot with
  | none => .error ⟨slot⟩
  | some line => .ok ⟨listing.lines.set! slot.toNat (edit line)⟩

def append (listing : Listing) (slot : Int) (more : String) : Except NoSuchLine Listing :=
  listing.change slot (·.append more)

def patch (listing : Listing) (slot target : Int) : Except NoSuchLine Listing :=
  listing.change slot (·.appendTarget target)

def texts (listing : Listing) : List String :=
  listing.lines.toList.map Line.text

def text (listing : Listing) : String :=
  String.join (listing.texts.map (· ++ "\n"))

def decode (listing : Listing) : Except NumberedFault (List Instruction) :=
  decodeLines 0 listing.texts

def lineCost (line : String) : UInt64 :=
  match Opcode.ofName? (String.ofList (line.toList.takeWhile (· != ' '))) with
  | some opcode => opcode.cost
  | none => 0

def staticCost (listing : Listing) : UInt64 :=
  listing.texts.foldr (fun line total => lineCost line + total) 0

def ofCode (code : List Instruction) : Listing :=
  ⟨(code.map fun instruction => Line.complete instruction.opcode instruction.operands).toArray⟩

@[simp]
theorem size_emit (listing : Listing) (opcode : Opcode) (operands : List Int) :
    (listing.emit opcode operands).size = listing.size + 1 := by
  simp [emit, size]

@[simp]
theorem size_add (listing : Listing) (instruction : Instruction) :
    (listing.add instruction).size = listing.size + 1 := by
  simp [add]

@[simp]
theorem size_addAll (listing : Listing) (code : List Instruction) :
    (listing.addAll code).size = listing.size + code.length := by
  unfold addAll
  induction code generalizing listing with
  | nil => rfl
  | cons instruction rest inductionHypothesis =>
      rw [List.foldl_cons, inductionHypothesis, size_add, List.length_cons]
      omega

@[simp]
theorem size_emitJump (listing : Listing) (opcode : Opcode) (operands : List Int) :
    (listing.emitJump opcode operands).size = listing.size + 1 := by
  simp [emitJump, size]

end Listing

end RegisterCompiler
