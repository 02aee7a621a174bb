/-
Byte strings and the characters they spell.

A program text is a byte string.  Reading it character by character never
fails: a byte that starts no well-formed UTF-8 sequence stands for itself, as
the replacement character, and takes one byte.
-/

set_option autoImplicit false

namespace RegisterCompiler
namespace Text

abbrev Bytes := List UInt8

/-- A character together with the bytes that spell it. -/
structure Glyph where
  char : Char
  bytes : Bytes
deriving Repr, DecidableEq, Inhabited

/-- The character that stands for a byte outside every well-formed sequence. -/
def replacement : Char := Char.ofNat 0xFFFD

def isContinuation (byte : UInt8) : Bool :=
  0x80 ≤ byte && byte ≤ 0xBF

def isSecondOfThree (lead second : UInt8) : Bool :=
  isContinuation second && (lead != 0xE0 || 0xA0 ≤ second) && (lead != 0xED || second ≤ 0x9F)

/-- The second byte of a four-byte sequence: neither an overlong form nor a
number above the last code point. -/
def isSecondOfFour (lead second : UInt8) : Bool :=
  isContinuation second && (lead != 0xF0 || 0x90 ≤ second) && (lead != 0xF4 || second ≤ 0x8F)

def payload (byte : UInt8) : Nat :=
  byte.toNat % 64

/-- The first character of a nonempty byte string with the number of bytes it
takes, when the string starts with a well-formed sequence. -/
def wellFormedHead : Bytes → Option (Char × Nat)
  | [] => none
  | lead :: rest =>
      if lead < 0x80 then
        some (Char.ofNat lead.toNat, 1)
      else if 0xC2 ≤ lead && lead ≤ 0xDF then
        match rest with
        | second :: _ =>
            if isContinuation second then
              some (Char.ofNat (lead.toNat % 32 * 64 + payload second), 2)
            else none
        | _ => none
      else if 0xE0 ≤ lead && lead ≤ 0xEF then
        match rest with
        | second :: third :: _ =>
            if isSecondOfThree lead second && isContinuation third then
              some (Char.ofNat (lead.toNat % 16 * 4096 + payload second * 64 + payload third), 3)
            else none
        | _ => none
      else if 0xF0 ≤ lead && lead ≤ 0xF4 then
        match rest with
        | second :: third :: fourth :: _ =>
            if isSecondOfFour lead second && isContinuation third && isContinuation fourth then
              some (Char.ofNat (lead.toNat % 8 * 262144 + payload second * 4096 +
                payload third * 64 + payload fourth), 4)
            else none
        | _ => none
      else none

/-- The first character of a byte string and its width; a byte that starts no
sequence is the replacement character of width one. -/
def firstChar (bytes : Bytes) : Char × Nat :=
  (wellFormedHead bytes).getD (replacement, 1)

/-- The glyphs of a byte string, after its first `skip` bytes. -/
def glyphsAfter : Nat → Bytes → List Glyph
  | _, [] => []
  | 0, byte :: rest =>
      let (char, width) := firstChar (byte :: rest)
      ⟨char, (byte :: rest).take width⟩ :: glyphsAfter (width - 1) rest
  | skip + 1, _ :: rest => glyphsAfter skip rest

def glyphs (bytes : Bytes) : List Glyph :=
  glyphsAfter 0 bytes

def encodeChar (char : Char) : Bytes :=
  let code := char.toNat
  if code < 0x80 then
    [code.toUInt8]
  else if code < 0x800 then
    [(0xC0 + code / 64).toUInt8, (0x80 + code % 64).toUInt8]
  else if code < 0x10000 then
    [(0xE0 + code / 4096).toUInt8, (0x80 + code / 64 % 64).toUInt8, (0x80 + code % 64).toUInt8]
  else
    [(0xF0 + code / 262144).toUInt8, (0x80 + code / 4096 % 64).toUInt8,
      (0x80 + code / 64 % 64).toUInt8, (0x80 + code % 64).toUInt8]

def encode (text : String) : Bytes :=
  text.toList.flatMap encodeChar

/-- The text a byte string spells, with the replacement character for every
byte outside a well-formed sequence. -/
def decodeLossy (bytes : Bytes) : String :=
  String.ofList ((glyphs bytes).map Glyph.char)

def isWellFormed (bytes : Bytes) : Bool :=
  (glyphs bytes).all fun glyph => glyph.char != replacement || glyph.bytes.length != 1

def decode? (bytes : Bytes) : Option String :=
  if isWellFormed bytes then some (decodeLossy bytes) else none

/-! ### Widths -/

theorem wellFormedHead_width_pos {bytes : Bytes} {char : Char} {width : Nat}
    (hHead : wellFormedHead bytes = some (char, width)) :
    0 < width := by
  cases bytes with
  | nil => simp [wellFormedHead] at hHead
  | cons lead rest =>
      simp only [wellFormedHead] at hHead
      split at hHead
      · simp_all; omega
      · split at hHead
        · split at hHead
          · split at hHead <;> simp_all; omega
          · simp at hHead
        · split at hHead
          · split at hHead
            · split at hHead <;> simp_all; omega
            · simp at hHead
          · split at hHead
            · split at hHead
              · split at hHead <;> simp_all; omega
              · simp at hHead
            · simp at hHead

theorem firstChar_width_pos (bytes : Bytes) : 0 < (firstChar bytes).2 := by
  unfold firstChar
  cases hHead : wellFormedHead bytes with
  | none => simp
  | some found =>
      obtain ⟨char, width⟩ := found
      simpa using wellFormedHead_width_pos hHead

/-- The glyphs spell exactly the bytes they were read from. -/
theorem flatMap_bytes_glyphsAfter (bytes : Bytes) (skip : Nat) :
    (glyphsAfter skip bytes).flatMap Glyph.bytes = bytes.drop skip := by
  induction bytes generalizing skip with
  | nil => cases skip <;> simp [glyphsAfter]
  | cons byte rest inductionHypothesis =>
      cases skip with
      | succ skip => simp [glyphsAfter, inductionHypothesis]
      | zero =>
          have hWidth := firstChar_width_pos (byte :: rest)
          obtain ⟨width, hSucc⟩ : ∃ width, (firstChar (byte :: rest)).2 = width + 1 :=
            ⟨(firstChar (byte :: rest)).2 - 1, by omega⟩
          simp [glyphsAfter, inductionHypothesis, hSucc]

@[simp]
theorem flatMap_bytes_glyphs (bytes : Bytes) :
    (glyphs bytes).flatMap Glyph.bytes = bytes := by
  simp [glyphs, flatMap_bytes_glyphsAfter]

end Text
end RegisterCompiler
