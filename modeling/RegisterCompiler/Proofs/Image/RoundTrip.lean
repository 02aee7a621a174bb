/-
Images as bytes and back.

An image is written as a data item that leaves out operands that are zero and a source that
is empty.  Reading the bytes gives the image again, with those members at their defaults,
unless the reader refuses: a source that is no text, more instructions than an array may
have, another version, or an opcode without a meaning.
-/

import RegisterCompiler.Image
import RegisterCompiler.Proofs.Cbor.Reading

set_option autoImplicit false

namespace RegisterCompiler

open Text (Bytes)
open Cbor (Item Spells SpellsEntry)

/-! ### Members -/

namespace Cbor

private theorem filter_ne_eq_self {α : Type} {number : Nat} {entries : List (Nat × α)}
    (hOther : number ∉ entries.map Prod.fst) :
    (entries.filter fun entry => entry.1 != number) = entries := by
  rw [List.filter_eq_self]
  intro entry hEntry
  rw [bne_iff_ne]
  rintro rfl
  exact hOther (List.mem_map_of_mem hEntry)

private theorem members_unsigned {entries : List (Nat × Item)}
    (hNodup : (entries.map Prod.fst).Nodup) :
    members (entries.map fun entry => (.unsigned entry.1, entry.2)) = some entries := by
  induction entries with
  | nil => rfl
  | cons entry entries inductionHypothesis =>
      rw [List.map_cons, List.nodup_cons] at hNodup
      rw [List.map_cons, members, keyNumber]
      simp only [inductionHypothesis hNodup.2, Option.map_some, filter_ne_eq_self hNodup.1]

private theorem toUnsigned_unsigned {greatest value : Nat} (hValue : value ≤ greatest) :
    toUnsigned greatest (.unsigned value) = some (some value) := by
  simp only [toUnsigned, untag, hValue, if_true]

private theorem toSigned_ofInt {value : Int} (hFits : Text.fitsSigned64 value = true) :
    toSigned (.ofInt value) = some (some value) := by
  simp only [Text.fitsSigned64, Bool.and_eq_true, decide_eq_true_eq] at hFits
  cases value with
  | ofNat value =>
      have hSmall : value < signedLimit := by
        have hHigh : (value : Int) ≤ 9223372036854775807 := hFits.2
        unfold signedLimit
        omega
      simp only [Item.ofInt, toSigned, untag, hSmall, if_true]
  | negSucc value =>
      have hSmall : value < signedLimit := by
        unfold signedLimit
        omega
      simp only [Item.ofInt, toSigned, untag, hSmall, if_true]

private theorem toText_text (text : Bytes) :
    toText (.text [text]) = if Text.isWellFormed text then some (some text) else none := by
  simp [toText, untag]

/-- A member that is left out when it is zero. -/
def operandEntry (key : Nat) (value : Int) : List (Nat × Item) :=
  if value = 0 then [] else [(key, .ofInt value)]

private theorem spells_operand {key : Nat} (hKey : key < UInt64.size) {value : Int}
    (hFits : Text.fitsSigned64 value = true) :
    List.Forall₂ (SpellsEntry 0) (if value = 0 then [] else [(key, encodeInt value)])
      (operandEntry key value) := by
  simp only [Text.fitsSigned64, Bool.and_eq_true, decide_eq_true_eq] at hFits
  unfold operandEntry
  split
  · exact .nil
  · exact .cons ⟨rfl, hKey, spells_int hFits.1 hFits.2⟩ .nil

end Cbor

/-! ### Instructions -/

namespace Instruction

def entries (instruction : Instruction) : List (Nat × Item) :=
  (1, .unsigned instruction.opcode.toByte.toNat) ::
    (Cbor.operandEntry 2 instruction.register ++ Cbor.operandEntry 3 instruction.target)

def item (instruction : Instruction) : Item :=
  .map (instruction.entries.map fun entry => (.unsigned entry.1, entry.2))

/-- Operands that fit a machine word, and an opcode that is undefined only if its byte has no
meaning. -/
structure Fits (instruction : Instruction) : Prop where
  register : Text.fitsSigned64 instruction.register = true
  target : Text.fitsSigned64 instruction.target = true
  opcode : Opcode.ofByte instruction.opcode.toByte = instruction.opcode

variable {instruction : Instruction}

private theorem spells_encode (hFits : instruction.Fits) :
    Spells 1 (Image.encodeInstruction instruction) instruction.item := by
  have hByte : instruction.opcode.toByte.toNat < UInt64.size :=
    Nat.lt_trans instruction.opcode.toByte.toNat_lt (by decide)
  have hOpcode : SpellsEntry 0 (1, Cbor.encodeHead 0 instruction.opcode.toByte.toNat)
      (1, .unsigned instruction.opcode.toByte.toNat) :=
    ⟨rfl, (by decide : 1 < UInt64.size), Cbor.spells_unsigned hByte⟩
  refine Cbor.spells_map (.cons hOpcode (List.rel_append
    (Cbor.spells_operand (by decide) hFits.register)
    (Cbor.spells_operand (by decide) hFits.target))) ?_
  unfold entries Cbor.operandEntry
  split <;> split <;> exact Nat.le_of_ble_eq_true rfl

private theorem nodup_entries (instruction : Instruction) :
    (instruction.entries.map Prod.fst).Nodup := by
  unfold entries Cbor.operandEntry
  split <;> split <;> simp

/-- A written instruction is read back, operands that were left out as zero. -/
theorem readInstruction_item (hFits : instruction.Fits) :
    Image.readInstruction instruction.item = some instruction := by
  have hByte : instruction.opcode.toByte.toNat ≤ 255 :=
    Nat.le_of_lt_succ instruction.opcode.toByte.toNat_lt
  have hOpcode : Image.member instruction.entries 1 (Cbor.toUnsigned 255) 0 =
      some instruction.opcode.toByte.toNat := by
    rw [Image.member, entries, List.lookup_cons_self]
    simp only [Cbor.toUnsigned_unsigned hByte, Option.map_some, Option.getD_some]
  have hRegister : Image.member instruction.entries 2 Cbor.toSigned 0 =
      some instruction.register := by
    unfold Image.member entries Cbor.operandEntry
    by_cases hRegister : instruction.register = 0
    · by_cases hTarget : instruction.target = 0
      · simp [hRegister, hTarget, List.lookup_cons]
      · simp [hRegister, hTarget, List.lookup_cons]
    · simp [hRegister, List.lookup_cons, Cbor.toSigned_ofInt hFits.register]
  have hTarget : Image.member instruction.entries 3 Cbor.toSigned 0 =
      some instruction.target := by
    unfold Image.member entries Cbor.operandEntry
    by_cases hTarget : instruction.target = 0
    · by_cases hRegister : instruction.register = 0
      · simp [hRegister, hTarget, List.lookup_cons]
      · simp [hRegister, hTarget, List.lookup_cons]
    · by_cases hRegister : instruction.register = 0
      · simp [hRegister, hTarget, List.lookup_cons, Cbor.toSigned_ofInt hFits.target]
      · simp [hRegister, hTarget, List.lookup_cons, Cbor.toSigned_ofInt hFits.target]
  unfold item Image.readInstruction
  simp only [Cbor.untag, Cbor.members_unsigned (nodup_entries instruction), Option.bind_eq_bind,
    Option.bind_some, hOpcode, hRegister, hTarget, Nat.toUInt8, UInt8.ofNat_toNat, hFits.opcode]
  rfl

end Instruction

/-! ### Images -/

namespace Image

def codeItem (image : Image) : Item :=
  match image.code with
  | none => .null
  | some code => .array (code.map Instruction.item)

def entries (image : Image) : List (Nat × Item) :=
  [(1, .unsigned image.version), (2, .text [Text.encode image.id]), (3, .ofInt image.registers),
    (4, image.codeItem)] ++
    if image.source.isEmpty then [] else [(5, .text [image.source])]

def item (image : Image) : Item :=
  .map (image.entries.map fun entry => (.unsigned entry.1, entry.2))

structure Fits (image : Image) : Prop where
  version : image.version < UInt64.size
  id : (Text.encode image.id).length < UInt64.size
  registers : Text.fitsSigned64 image.registers = true
  source : image.source.length < UInt64.size
  code : image.instructions.length < UInt64.size
  instructions : ∀ instruction ∈ image.instructions, instruction.Fits

variable {image : Image}

private theorem spells_front (hFits : image.Fits) :
    List.Forall₂ (SpellsEntry 2)
      [(1, Cbor.encodeHead 0 image.version), (2, Cbor.encodeText (Text.encode image.id)),
        (3, Cbor.encodeInt image.registers)]
      [(1, .unsigned image.version), (2, .text [Text.encode image.id]),
        (3, .ofInt image.registers)] := by
  have hRegisters := hFits.registers
  simp only [Text.fitsSigned64, Bool.and_eq_true, decide_eq_true_eq] at hRegisters
  refine .cons ?_ (.cons ?_ (.cons ?_ .nil))
  · exact ⟨rfl, (by decide : 1 < UInt64.size), (Cbor.spells_unsigned hFits.version).mono (by decide)⟩
  · exact ⟨rfl, (by decide : 2 < UInt64.size), (Cbor.spells_text hFits.id).mono (by decide)⟩
  · exact ⟨rfl, (by decide : 3 < UInt64.size),
      (Cbor.spells_int hRegisters.1 hRegisters.2).mono (by decide)⟩

private theorem spells_instructions {code : List Instruction}
    (hFits : ∀ instruction ∈ code, instruction.Fits) :
    List.Forall₂ (Spells 1) (code.map encodeInstruction) (code.map Instruction.item) := by
  rw [List.forall₂_map_left_iff, List.forall₂_map_right_iff, List.forall₂_same]
  exact fun instruction hInstruction => Instruction.spells_encode (hFits instruction hInstruction)

private theorem spells_encode (hFits : image.Fits)
    (hMembers : image.instructions.length ≤ Cbor.memberLimit) :
    Spells 3 image.encode image.item := by
  have hCode : Spells 2 (match image.code with
      | none => Cbor.encodeNull
      | some code => Cbor.encodeArray (code.map encodeInstruction)) image.codeItem := by
    have hInstructions := hFits.instructions
    unfold instructions at hMembers hInstructions
    unfold codeItem
    cases hCode : image.code with
    | none => exact Cbor.spells_null.mono (by decide)
    | some code =>
        rw [hCode] at hMembers hInstructions
        exact Cbor.spells_array (spells_instructions hInstructions) (by rwa [List.length_map])
  have hSource : List.Forall₂ (SpellsEntry 2)
      (if image.source.isEmpty then [] else [(5, Cbor.encodeText image.source)])
      (if image.source.isEmpty then [] else [(5, .text [image.source])]) := by
    split
    · exact .nil
    · exact .cons ⟨rfl, (by decide : 5 < UInt64.size),
        (Cbor.spells_text hFits.source).mono (by decide)⟩ .nil
  have hEntry : SpellsEntry 2 (4, match image.code with
      | none => Cbor.encodeNull
      | some code => Cbor.encodeArray (code.map encodeInstruction)) (4, image.codeItem) :=
    ⟨rfl, (by decide : 4 < UInt64.size), hCode⟩
  refine Cbor.spells_map (List.rel_append (List.rel_append (spells_front hFits)
    (.cons hEntry .nil)) hSource) ?_
  unfold entries
  split <;> exact Nat.le_of_ble_eq_true rfl

private theorem cborDecode_encode (hFits : image.Fits)
    (hMembers : image.instructions.length ≤ Cbor.memberLimit) :
    Cbor.decode image.encode = some image.item := by
  have hRead := (spells_encode hFits hMembers).reads (2 * image.encode.length + 2) 0 []
    (by omega) (by decide)
  rw [List.append_nil] at hRead
  rw [Cbor.decode, hRead]

private theorem cborDecode_eq_none (hFits : image.Fits)
    (hMembers : Cbor.memberLimit < image.instructions.length) :
    Cbor.decode image.encode = none := by
  have hLength := hFits.code
  have hFront := spells_front hFits
  unfold instructions at hMembers hLength
  cases hCode : image.code with
  | none =>
      rw [hCode] at hMembers
      contradiction
  | some code =>
      rw [hCode, Option.getD_some] at hMembers hLength
      have hRefused : Cbor.Refused (Cbor.encodeArray (code.map encodeInstruction)) :=
        Cbor.refused_array (by rwa [List.length_map]) (by rwa [List.length_map])
      have hBytes : image.encode = Cbor.encodeMap
          ([(1, Cbor.encodeHead 0 image.version), (2, Cbor.encodeText (Text.encode image.id)),
            (3, Cbor.encodeInt image.registers)] ++
            (4, Cbor.encodeArray (code.map encodeInstruction)) ::
              if image.source.isEmpty then [] else [(5, Cbor.encodeText image.source)]) := by
        unfold encode
        rw [hCode]
        rfl
      rw [Cbor.decode, hBytes, Cbor.readItem_of_refused hFront (by decide) hRefused _ ?_ (by omega)
        (by decide)]
      split <;> exact Nat.le_of_ble_eq_true rfl

private theorem nodup_entries (image : Image) : (image.entries.map Prod.fst).Nodup := by
  unfold entries
  split <;> simp

private theorem mapM_readInstruction {code : List Instruction}
    (hFits : ∀ instruction ∈ code, instruction.Fits) :
    (code.map Instruction.item).mapM readInstruction = some code := by
  induction code with
  | nil => rfl
  | cons instruction code inductionHypothesis =>
      obtain ⟨hHead, hTail⟩ := List.forall_mem_cons.mp hFits
      rw [List.map_cons, List.mapM_cons, Instruction.readInstruction_item hHead,
        inductionHypothesis hTail]
      rfl

private theorem readCode_codeItem (hFits : image.Fits) :
    readCode image.codeItem = some (some image.code) := by
  have hInstructions := hFits.instructions
  unfold instructions at hInstructions
  unfold codeItem readCode
  cases hCode : image.code with
  | none => rfl
  | some code =>
      rw [hCode, Option.getD_some] at hInstructions
      simp only [Cbor.untag, mapM_readInstruction hInstructions, Option.map_some]

private theorem ofItem_item (hFits : image.Fits) :
    ofItem image.item = if Text.isWellFormed image.source then some image else none := by
  have hVersion : member image.entries 1 (Cbor.toUnsigned (UInt64.size - 1)) 0 =
      some image.version := by
    simp only [member, entries, List.cons_append, List.lookup_cons_self,
      Cbor.toUnsigned_unsigned (Nat.le_sub_one_of_lt hFits.version), Option.map_some,
      Option.getD_some]
  have hId : member image.entries 2 Cbor.toText [] = some (Text.encode image.id) := by
    simp [member, entries, List.lookup_cons, Cbor.toText_text]
  have hRegisters : member image.entries 3 Cbor.toSigned 0 = some image.registers := by
    simp [member, entries, List.lookup_cons, Cbor.toSigned_ofInt hFits.registers]
  have hCode : member image.entries 4 readCode none = some image.code := by
    simp [member, entries, List.lookup_cons, readCode_codeItem hFits]
  have hSource : member image.entries 5 Cbor.toText [] =
      if Text.isWellFormed image.source then some image.source else none := by
    cases hEmpty : image.source with
    | nil => simp [member, entries, List.lookup_cons, hEmpty, Text.isWellFormed, Text.glyphs,
        Text.glyphsAfter]
    | cons byte rest =>
        simp only [member, entries, hEmpty, List.isEmpty_cons, Bool.false_eq_true, if_false,
          List.cons_append, List.nil_append, List.lookup_cons, Nat.reduceBEq, beq_self_eq_true,
          Cbor.toText_text]
        split <;> rfl
  unfold item ofItem
  simp only [Cbor.untag, Cbor.members_unsigned (nodup_entries image), Option.bind_eq_bind,
    Option.bind_some, hVersion, hId, hRegisters, hCode, hSource, Text.decodeLossy_encode]
  split <;> rfl

/-! ### Reading the bytes of an image -/

theorem firstUndefined?_eq_none_iff {code : List Instruction} :
    firstUndefined? code = none ↔ ∀ instruction ∈ code, instruction.opcode.isDefined = true := by
  unfold firstUndefined?
  generalize 0 = start
  induction code generalizing start with
  | nil => simp
  | cons instruction code inductionHypothesis =>
      obtain ⟨opcode, register, target⟩ := instruction
      rw [List.zipIdx_cons, List.findSome?_cons, List.forall_mem_cons]
      cases opcode with
      | undefined byte => simp [Opcode.isDefined]
      | _ => simpa [Opcode.isDefined] using inductionHypothesis (start + 1)

theorem decode_encode_eq (hFits : image.Fits) :
    decode image.encode =
      if Text.isWellFormed image.source = true ∧
          image.instructions.length ≤ Cbor.memberLimit then
        if image.version = currentVersion then
          match firstUndefined? image.instructions with
          | some (byte, position) => .error (.invalidOpcode byte position)
          | none => .ok image
        else .error (.unsupportedVersion image.version)
      else .error .malformed := by
  unfold decode
  by_cases hMembers : image.instructions.length ≤ Cbor.memberLimit
  · rw [cborDecode_encode hFits hMembers, Option.bind_some, ofItem_item hFits]
    by_cases hText : Text.isWellFormed image.source = true
    · rw [if_pos hText]
      exact (if_pos ⟨hText, hMembers⟩).symm
    · rw [if_neg hText, if_neg fun hBoth => hText hBoth.1]
  · rw [cborDecode_eq_none hFits (Nat.lt_of_not_le hMembers), Option.bind_none,
      if_neg fun hBoth => hMembers hBoth.2]

/-- Reading undoes writing.  The bytes of an image hold the data item that leaves out what is
zero or empty; an image of the current version whose opcodes are defined, whose source is a
text and that has no more instructions than an array may have members is read back as it was;
any other version and any undefined opcode are rejected. -/
theorem decode_undoes_encode (image : Image) (hFits : image.Fits) :
    (image.instructions.length ≤ Cbor.memberLimit → Cbor.decode image.encode = some image.item) ∧
    (image.version = currentVersion →
      (∀ instruction ∈ image.instructions, instruction.opcode.isDefined = true) →
      image.instructions.length ≤ Cbor.memberLimit → Text.isWellFormed image.source = true →
      decode image.encode = .ok image) ∧
    ((image.version ≠ currentVersion ∨
        ∃ instruction ∈ image.instructions, instruction.opcode.isDefined = false) →
      ∃ fault, decode image.encode = .error fault) := by
  refine ⟨cborDecode_encode hFits, ?_, ?_⟩
  · intro hVersion hDefined hMembers hText
    rw [decode_encode_eq hFits, if_pos ⟨hText, hMembers⟩, if_pos hVersion,
      firstUndefined?_eq_none_iff.mpr hDefined]
  · intro hBad
    rw [decode_encode_eq hFits]
    split
    · split
      · rename_i hVersion
        obtain ⟨instruction, hMem, hUndefined⟩ := hBad.resolve_left (not_not.mpr hVersion)
        cases hFirst : firstUndefined? image.instructions with
        | some found => exact ⟨_, rfl⟩
        | none =>
            have hDefined := firstUndefined?_eq_none_iff.mp hFirst instruction hMem
            rw [hUndefined] at hDefined
            contradiction
      · exact ⟨_, rfl⟩
    · exact ⟨_, rfl⟩

def accented (version : Nat) (opcode : Opcode) : Image :=
  ⟨version, "é", 8, some [⟨.jzero, 24, 65536⟩, ⟨opcode, 0, -257⟩, ⟨.halt, 0, 0⟩],
    Text.encode "WRITE é"⟩

private theorem fits_accented {version : Nat} (hVersion : version < UInt64.size) {opcode : Opcode}
    (hOpcode : Opcode.ofByte opcode.toByte = opcode) : (accented version opcode).Fits where
  version := hVersion
  id := (by decide : (Text.encode "é").length < UInt64.size)
  registers := rfl
  source := (by decide : (Text.encode "WRITE é").length < UInt64.size)
  code := (by decide : 3 < UInt64.size)
  instructions := by
    have hCode : (accented version opcode).instructions =
        [⟨.jzero, 24, 65536⟩, ⟨opcode, 0, -257⟩, ⟨.halt, 0, 0⟩] := rfl
    rw [hCode]
    simp only [List.forall_mem_cons]
    exact ⟨⟨rfl, rfl, rfl⟩, ⟨rfl, rfl, hOpcode⟩, ⟨rfl, rfl, rfl⟩, List.forall_mem_nil _⟩

theorem accented_decode_undoes_encode :
    decode (accented 1 .jump).encode = .ok (accented 1 .jump) ∧
      (∃ fault, decode (accented 2 .jump).encode = .error fault) ∧
      ∃ fault, decode (accented 1 (.undefined 16)).encode = .error fault := by
  obtain ⟨-, hReads, -⟩ := decode_undoes_encode (accented 1 .jump) (fits_accented (by decide) rfl)
  obtain ⟨-, -, hVersion⟩ := decode_undoes_encode (accented 2 .jump) (fits_accented (by decide) rfl)
  obtain ⟨-, -, hOpcode⟩ := decode_undoes_encode (accented 1 (.undefined 16))
    (fits_accented (by decide) rfl)
  refine ⟨hReads rfl (by decide) (by decide) (by decide), hVersion (.inl (by decide)), hOpcode ?_⟩
  exact .inr ⟨⟨.undefined 16, 0, -257⟩, by decide, rfl⟩

end Image

end RegisterCompiler
