/-
The CBOR data format, as the package fxamacker/cbor documents it.

A data item is a head, which holds a major type and an argument, and the content
the head announces.  Writing follows the canonical options of the package: every
number and length has the shortest head, every length is announced, and the
members of a map stand in the order of their keys.  Reading follows its default
options: every well-formed item is taken, with text, arrays and maps of announced
or open length, but for more than 32 levels of nesting and more than 131072
members; a text has to be UTF-8, and of members with one key the first counts.
-/

import RegisterCompiler.Text.Utf8

set_option autoImplicit false

namespace RegisterCompiler
namespace Cbor

open Text (Bytes)

/-! ### Writing -/

/-- The lowest `width` bytes of a number, most significant first. -/
def bigEndian : Nat → Nat → Bytes
  | 0, _ => []
  | width + 1, value => bigEndian width (value / 256) ++ [(value % 256).toUInt8]

/-- The number spelled by bytes, most significant first. -/
def ofBigEndian (bytes : Bytes) : Nat :=
  bytes.foldl (fun total byte => total * 256 + byte.toNat) 0

def encodeHead (major argument : Nat) : Bytes :=
  let lead (info : Nat) : UInt8 := (major * 32 + info).toUInt8
  if argument < 24 then [lead argument]
  else if argument < 256 then lead 24 :: bigEndian 1 argument
  else if argument < 65536 then lead 25 :: bigEndian 2 argument
  else if argument < 4294967296 then lead 26 :: bigEndian 4 argument
  else lead 27 :: bigEndian 8 argument

def encodeInt : Int → Bytes
  | .ofNat value => encodeHead 0 value
  | .negSucc value => encodeHead 1 value

def encodeText (text : Bytes) : Bytes :=
  encodeHead 3 text.length ++ text

def encodeArray (items : List Bytes) : Bytes :=
  encodeHead 4 items.length ++ items.flatten

def encodeMap (entries : List (Nat × Bytes)) : Bytes :=
  encodeHead 5 entries.length ++ entries.flatMap fun (key, value) => encodeHead 0 key ++ value

def encodeNull : Bytes := [0xF6]

/-! ### Reading -/

/-- A data item.  A text keeps the chunks it was written in; `negative n` is the
number -1 - n. -/
inductive Item where
  | unsigned (value : Nat)
  | negative (value : Nat)
  | bytes (content : Bytes)
  | text (chunks : List Bytes)
  | array (items : List Item)
  | map (entries : List (Item × Item))
  | tag (number : Nat) (content : Item)
  | simple (value : Nat)
  | boolean (value : Bool)
  | null
  | undefined
  | float
deriving Repr

structure Head where
  major : Nat
  info : Nat
  argument : Nat
deriving Repr, DecidableEq

/-- The additional information of a head without an announced length. -/
def openLength : Nat := 31

def memberLimit : Nat := 131072

def depthLimit : Nat := 32

/-- The magnitudes of the signed 64-bit numbers lie below this. -/
def signedLimit : Nat := 9223372036854775808

def breakByte : UInt8 := 0xFF

def readHead : Bytes → Option (Head × Bytes)
  | [] => none
  | lead :: rest =>
      let major := lead.toNat / 32
      let info := lead.toNat % 32
      if info < 24 then some (⟨major, info, info⟩, rest)
      else if info < 28 then
        let width := Nat.pow 2 (info - 24)
        let field := rest.take width
        if field.length < width then none
        else
          let argument := ofBigEndian field
          if major = 7 ∧ info = 24 ∧ argument < 32 then none
          else some (⟨major, info, argument⟩, rest.drop width)
      else if info = openLength ∧ 2 ≤ major ∧ major ≤ 5 then some (⟨major, info, info⟩, rest)
      else none

def readBytes (count : Nat) (bytes : Bytes) : Option (Bytes × Bytes) :=
  let content := bytes.take count
  if content.length < count then none else some (content, bytes.drop count)

/-- Reads the chunks of a string of open length up to the break.  Each chunk is
a string of the same type with an announced length. -/
def readChunks : Nat → Nat → Bytes → Option (List Bytes × Bytes)
  | 0, _, _ => none
  | fuel + 1, major, bytes =>
      match bytes with
      | [] => none
      | lead :: rest =>
          if lead = breakByte then some ([], rest)
          else
            match readHead bytes with
            | none => none
            | some (head, after) =>
                if head.major = major ∧ head.info ≠ openLength then
                  match readBytes head.argument after with
                  | none => none
                  | some (chunk, after) =>
                      (readChunks fuel major after).map fun (chunks, after) => (chunk :: chunks, after)
                else none

def pairs : List Item → Option (List (Item × Item))
  | [] => some []
  | [_] => none
  | key :: value :: rest => (pairs rest).map ((key, value) :: ·)

def primitive (head : Head) : Item :=
  if head.info < 20 ∨ head.info = 24 then .simple head.argument
  else if head.info = 20 then .boolean false
  else if head.info = 21 then .boolean true
  else if head.info = 22 then .null
  else if head.info = 23 then .undefined
  else .float

def startsTag : Bytes → Bool
  | [] => false
  | lead :: _ => lead.toNat / 32 = 6

mutual

/-- Reads an item inside `depth` others. -/
def readItem : Nat → Nat → Bytes → Option (Item × Bytes)
  | 0, _, _ => none
  | fuel + 1, depth, bytes =>
      match readHead bytes with
      | none => none
      | some (head, rest) =>
          match head.major with
          | 0 => some (.unsigned head.argument, rest)
          | 1 => some (.negative head.argument, rest)
          | 2 =>
              if head.info = openLength then
                (readChunks (rest.length + 1) 2 rest).map fun (chunks, rest) =>
                  (.bytes chunks.flatten, rest)
              else
                (readBytes head.argument rest).map fun (content, rest) => (.bytes content, rest)
          | 3 =>
              if head.info = openLength then
                (readChunks (rest.length + 1) 3 rest).map fun (chunks, rest) =>
                  (.text chunks, rest)
              else
                (readBytes head.argument rest).map fun (content, rest) => (.text [content], rest)
          | 4 =>
              if depthLimit ≤ depth then none
              else if head.info = openLength then
                (readUntilBreak fuel (depth + 1) rest).bind fun (items, rest) =>
                  if memberLimit < items.length then none else some (.array items, rest)
              else if memberLimit < head.argument then none
              else
                (readItems fuel (depth + 1) head.argument rest).map fun (items, rest) =>
                  (.array items, rest)
          | 5 =>
              if depthLimit ≤ depth then none
              else if head.info = openLength then
                (readUntilBreak fuel (depth + 1) rest).bind fun (items, rest) =>
                  if memberLimit < items.length / 2 then none
                  else (pairs items).map fun entries => (.map entries, rest)
              else if memberLimit < head.argument then none
              else
                (readItems fuel (depth + 1) (2 * head.argument) rest).bind fun (items, rest) =>
                  (pairs items).map fun entries => (.map entries, rest)
          | 6 =>
              let inner := if startsTag rest then depth + 1 else depth
              if depthLimit < inner then none
              else
                (readItem fuel inner rest).map fun (content, rest) =>
                  (.tag head.argument content, rest)
          | _ => some (primitive head, rest)

def readItems : Nat → Nat → Nat → Bytes → Option (List Item × Bytes)
  | 0, _, _, _ => none
  | fuel + 1, depth, count, bytes =>
      match count with
      | 0 => some ([], bytes)
      | count + 1 =>
          match readItem fuel depth bytes with
          | none => none
          | some (item, rest) =>
              (readItems fuel depth count rest).map fun (items, rest) => (item :: items, rest)

def readUntilBreak : Nat → Nat → Bytes → Option (List Item × Bytes)
  | 0, _, _ => none
  | fuel + 1, depth, bytes =>
      match bytes with
      | [] => none
      | lead :: after =>
          if lead = breakByte then some ([], after)
          else
            match readItem fuel depth bytes with
            | none => none
            | some (item, rest) =>
                (readUntilBreak fuel depth rest).map fun (items, rest) => (item :: items, rest)

end

/-- Reads a byte string that holds one item and nothing else.  Every second call
takes a byte, which bounds the depth of calls. -/
def decode (bytes : Bytes) : Option Item :=
  match readItem (2 * bytes.length + 2) 0 bytes with
  | some (item, []) => some item
  | _ => none

/-! ### Members -/

/-- The item behind its tags.  Dates have to hold a text or a number, and a big
number its bytes, which count as the number they spell; other tags are dropped. -/
def untag : Item → Option Item
  | .tag 0 content =>
      match content with
      | .text chunks => some (.text chunks)
      | _ => none
  | .tag 1 content =>
      match content with
      | .unsigned value => some (.unsigned value)
      | .negative value => some (.negative value)
      | .float => some .float
      | _ => none
  | .tag 2 content =>
      match content with
      | .bytes digits =>
          let value := ofBigEndian digits
          if value < UInt64.size then some (.unsigned value) else none
      | _ => none
  | .tag 3 content =>
      match content with
      | .bytes digits =>
          let value := ofBigEndian digits
          if value < signedLimit then some (.negative value) else none
      | _ => none
  | .tag _ content => untag content
  | item => some item

/-- What an item says about a member: nothing, so that the member keeps its
value, or a value.  An item of another type is refused. -/
abbrev Member (α : Type) := Option (Option α)

def toUnsigned (greatest : Nat) (item : Item) : Member Nat :=
  match untag item with
  | some (.unsigned value) | some (.simple value) =>
      if value ≤ greatest then some (some value) else none
  | some .null | some .undefined => some none
  | _ => none

def toSigned (item : Item) : Member Int :=
  match untag item with
  | some (.unsigned value) | some (.simple value) =>
      if value < signedLimit then some (some (Int.ofNat value)) else none
  | some (.negative value) => if value < signedLimit then some (some (Int.negSucc value)) else none
  | some .null | some .undefined => some none
  | _ => none

def toText (item : Item) : Member Bytes :=
  match untag item with
  | some (.text chunks) =>
      if chunks.all Text.isWellFormed then some (some chunks.flatten) else none
  | some .null | some .undefined => some none
  | _ => none

/-- The number of the member a key names, if it can name one.  A number may be
written as a text. -/
def keyNumber : Item → Option (Option Nat)
  | .unsigned value => some (some value)
  | .negative value => if value < signedLimit then some none else none
  | .text chunks =>
      if chunks.all Text.isWellFormed then
        match chunks.flatten with
        | [digit] => if 0x31 ≤ digit && digit ≤ 0x39 then some (some (digit.toNat - 0x30)) else some none
        | _ => some none
      else none
  | _ => none

/-- The members of a map by their numbers, the first of each number.  A key that
can name no member is refused. -/
def members : List (Item × Item) → Option (List (Nat × Item))
  | [] => some []
  | (key, value) :: rest =>
      match keyNumber key with
      | none => none
      | some none => members rest
      | some (some number) =>
          (members rest).map fun later => (number, value) :: later.filter fun entry => entry.1 != number

end Cbor
end RegisterCompiler
