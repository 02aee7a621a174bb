/-
Compiled programs in binary form.

An image is written as a map from the numbers 1 to 5 to its parts.  Operands
that are zero and a source that is empty are left out.
-/

import RegisterCompiler.Cbor
import RegisterCompiler.Listing

set_option autoImplicit false

namespace RegisterCompiler

open Text (Bytes)

/-- A compiled program.  A program without code is told apart from one whose
code is empty. -/
structure Image where
  version : Nat
  id : String
  registers : Int
  code : Option (List Instruction)
  source : Bytes
deriving Repr, DecidableEq, Inhabited

inductive ImageFault where
  | malformed
  | unsupportedVersion (version : Nat)
  | invalidOpcode (byte : UInt8) (position : Nat)
deriving Repr, DecidableEq

namespace ImageFault

def message : ImageFault → String
  | malformed => "isa: unmarshal image"
  | unsupportedVersion version => s!"isa: unsupported image version {version}"
  | invalidOpcode byte position => s!"isa: invalid opcode {Text.hexByte byte} at {position}"

end ImageFault

namespace Image

def currentVersion : Nat := 1

def instructions (image : Image) : List Instruction :=
  image.code.getD []

def ofListing (id : String) (registers : Int) (listing : Listing) : Except NumberedFault Image :=
  listing.decode.map fun code => ⟨currentVersion, id, registers, some code, []⟩

def text (image : Image) : String :=
  (Listing.ofCode image.instructions).text

/-! ### Writing -/

def encodeInstruction (instruction : Instruction) : Bytes :=
  let operand (key : Nat) (value : Int) : List (Nat × Bytes) :=
    if value = 0 then [] else [(key, Cbor.encodeInt value)]
  Cbor.encodeMap ((1, Cbor.encodeHead 0 instruction.opcode.toByte.toNat) ::
    operand 2 instruction.register ++ operand 3 instruction.target)

def encode (image : Image) : Bytes :=
  let code :=
    match image.code with
    | none => Cbor.encodeNull
    | some code => Cbor.encodeArray (code.map encodeInstruction)
  let source := if image.source.isEmpty then [] else [(5, Cbor.encodeText image.source)]
  Cbor.encodeMap ([(1, Cbor.encodeHead 0 image.version), (2, Cbor.encodeText (Text.encode image.id)),
    (3, Cbor.encodeInt image.registers), (4, code)] ++ source)

/-! ### Reading -/

/-- The instruction and the image before any member is read. -/
def blankInstruction : Instruction := ⟨.get, 0, 0⟩

/-- A member of a map, which keeps a default when the map says nothing. -/
def member {α : Type} (entries : List (Nat × Cbor.Item)) (key : Nat)
    (read : Cbor.Item → Cbor.Member α) (absent : α) : Option α :=
  match entries.lookup key with
  | none => some absent
  | some item => (read item).map (·.getD absent)

def readInstruction (item : Cbor.Item) : Option Instruction :=
  match Cbor.untag item with
  | some (.map entries) => do
      let members ← Cbor.members entries
      let byte ← member members 1 (Cbor.toUnsigned 255) 0
      let register ← member members 2 Cbor.toSigned 0
      let target ← member members 3 Cbor.toSigned 0
      return ⟨Opcode.ofByte byte.toUInt8, register, target⟩
  | some .null | some .undefined => some blankInstruction
  | _ => none

def readCode (item : Cbor.Item) : Cbor.Member (Option (List Instruction)) :=
  match Cbor.untag item with
  | some (.array items) => (items.mapM readInstruction).map fun code => some (some code)
  | some .null | some .undefined => some (some none)
  | _ => none

def ofItem (item : Cbor.Item) : Option Image :=
  match Cbor.untag item with
  | some (.map entries) => do
      let members ← Cbor.members entries
      let version ← member members 1 (Cbor.toUnsigned (UInt64.size - 1)) 0
      let id ← member members 2 Cbor.toText []
      let registers ← member members 3 Cbor.toSigned 0
      let code ← member members 4 readCode none
      let source ← member members 5 Cbor.toText []
      return ⟨version, Text.decodeLossy id, registers, code, source⟩
  | some .null | some .undefined => some ⟨0, "", 0, none, []⟩
  | _ => none

def firstUndefined? (code : List Instruction) : Option (UInt8 × Nat) :=
  code.zipIdx.findSome? fun (instruction, position) =>
    match instruction.opcode with
    | .undefined byte => some (byte, position)
    | _ => none

def decode (bytes : Bytes) : Except ImageFault Image :=
  match (Cbor.decode bytes).bind ofItem with
  | none => .error .malformed
  | some image =>
      if image.version = currentVersion then
        match firstUndefined? image.instructions with
        | some (byte, position) => .error (.invalidOpcode byte position)
        | none => .ok image
      else .error (.unsupportedVersion image.version)

end Image

end RegisterCompiler
