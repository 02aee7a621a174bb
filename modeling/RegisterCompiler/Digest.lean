/-
The 128-bit XXH3 digest of byte strings with seed zero, which the package zeebo/xxh3
documents as its `HashString128`.

Short strings are folded in one step.  Strings of more than 240 bytes are read in
stripes of 64 bytes that are added to eight words; after each block of 16 stripes
the words are scrambled.
-/

import RegisterCompiler.Text.Hex

set_option autoImplicit false

namespace RegisterCompiler

structure Digest where
  low : UInt64
  high : UInt64
deriving Repr, DecidableEq, Inhabited

namespace Digest

open Text (Bytes)

/-! ### Words -/

def secret : Array UInt8 :=
  #[
    0xb8, 0xfe, 0x6c, 0x39, 0x23, 0xa4, 0x4b, 0xbe, 0x7c, 0x01, 0x81, 0x2c,
    0xf7, 0x21, 0xad, 0x1c, 0xde, 0xd4, 0x6d, 0xe9, 0x83, 0x90, 0x97, 0xdb,
    0x72, 0x40, 0xa4, 0xa4, 0xb7, 0xb3, 0x67, 0x1f, 0xcb, 0x79, 0xe6, 0x4e,
    0xcc, 0xc0, 0xe5, 0x78, 0x82, 0x5a, 0xd0, 0x7d, 0xcc, 0xff, 0x72, 0x21,
    0xb8, 0x08, 0x46, 0x74, 0xf7, 0x43, 0x24, 0x8e, 0xe0, 0x35, 0x90, 0xe6,
    0x81, 0x3a, 0x26, 0x4c, 0x3c, 0x28, 0x52, 0xbb, 0x91, 0xc3, 0x00, 0xcb,
    0x88, 0xd0, 0x65, 0x8b, 0x1b, 0x53, 0x2e, 0xa3, 0x71, 0x64, 0x48, 0x97,
    0xa2, 0x0d, 0xf9, 0x4e, 0x38, 0x19, 0xef, 0x46, 0xa9, 0xde, 0xac, 0xd8,
    0xa8, 0xfa, 0x76, 0x3f, 0xe3, 0x9c, 0x34, 0x3f, 0xf9, 0xdc, 0xbb, 0xc7,
    0xc7, 0x0b, 0x4f, 0x1d, 0x8a, 0x51, 0xe0, 0x4b, 0xcd, 0xb4, 0x59, 0x31,
    0xc8, 0x9f, 0x7e, 0xc9, 0xd9, 0x78, 0x73, 0x64, 0xea, 0xc5, 0xac, 0x83,
    0x34, 0xd3, 0xeb, 0xc3, 0xc5, 0x81, 0xa0, 0xff, 0xfa, 0x13, 0x63, 0xeb,
    0x17, 0x0d, 0xdd, 0x51, 0xb7, 0xf0, 0xda, 0x49, 0xd3, 0x16, 0x55, 0x26,
    0x29, 0xd4, 0x68, 0x9e, 0x2b, 0x16, 0xbe, 0x58, 0x7d, 0x47, 0xa1, 0xfc,
    0x8f, 0xf8, 0xb8, 0xd1, 0x7a, 0xd0, 0x31, 0xce, 0x45, 0xcb, 0x3a, 0x8f,
    0x95, 0x16, 0x04, 0x28, 0xaf, 0xd7, 0xfb, 0xca, 0xbb, 0x4b, 0x40, 0x7e
  ]

def primeA32 : UInt64 := 0x9E3779B1
def primeB32 : UInt64 := 0x85EBCA77
def primeC32 : UInt64 := 0xC2B2AE3D
def primeA : UInt64 := 0x9E3779B185EBCA87
def primeB : UInt64 := 0xC2B2AE3D27D4EB4F
def primeC : UInt64 := 0x165667B19E3779F9
def primeD : UInt64 := 0x85EBCA77C2B2AE63
def primeE : UInt64 := 0x27D4EB2F165667C5
def mixerA : UInt64 := 0x165667919E3779F9
def mixerB : UInt64 := 0x9FB21C651E98DF25

/-- The number that bytes from `start` on spell, the lowest byte first. -/
def wordOf (count : Nat) (data : Array UInt8) (start : Nat) : UInt64 :=
  (List.range count).foldr
    (fun step word => (word <<< 8) ||| (data.getD (start + step) 0).toUInt64) 0

def word (data : Array UInt8) (start : Nat) : UInt64 :=
  wordOf 8 data start

def halfWord (data : Array UInt8) (start : Nat) : UInt64 :=
  wordOf 4 data start

def lowHalf (value : UInt64) : UInt64 :=
  value &&& 0xFFFFFFFF

def reverseBytes (count : Nat) (value : UInt64) : UInt64 :=
  (List.range count).foldl
    (fun result step => (result <<< 8) ||| ((value >>> (8 * step).toUInt64) &&& 0xFF)) 0

def multiply (left right : UInt64) : Digest :=
  let product := left.toNat * right.toNat
  ⟨product.toUInt64, (product / UInt64.size).toUInt64⟩

def foldProduct (left right : UInt64) : UInt64 :=
  let product := multiply left right
  product.low ^^^ product.high

def avalanche (value : UInt64) : UInt64 :=
  let first := (value ^^^ (value >>> 37)) * mixerA
  first ^^^ (first >>> 32)

def shortAvalanche (value : UInt64) : UInt64 :=
  let first := (value ^^^ (value >>> 33)) * primeB
  let second := (first ^^^ (first >>> 29)) * primeC
  second ^^^ (second >>> 32)

/-! ### Up to 16 bytes -/

def ofNothing : Digest :=
  ⟨shortAvalanche (word secret 64 ^^^ word secret 72),
    shortAvalanche (word secret 80 ^^^ word secret 88)⟩

def ofThree (data : Array UInt8) : Digest :=
  let size := data.size
  let byte (position : Nat) : UInt64 := (data.getD position 0).toUInt64
  let low := (byte 0 <<< 16) ||| (byte (size / 2) <<< 24) ||| byte (size - 1) |||
    (size.toUInt64 <<< 8)
  let swapped := reverseBytes 4 low
  let high := lowHalf ((swapped <<< 13) ||| (swapped >>> 19))
  ⟨shortAvalanche (low ^^^ (halfWord secret 0 ^^^ halfWord secret 4)),
    shortAvalanche (high ^^^ (halfWord secret 8 ^^^ halfWord secret 12))⟩

def ofEight (data : Array UInt8) : Digest :=
  let size := data.size
  let value := halfWord data 0 + (halfWord data (size - 4) <<< 32)
  let product := multiply (value ^^^ (word secret 16 ^^^ word secret 24))
    (primeA + (size.toUInt64 <<< 2))
  let high := product.high + (product.low <<< 1)
  let low := product.low ^^^ (high >>> 3)
  let mixed := (low ^^^ (low >>> 35)) * mixerB
  ⟨mixed ^^^ (mixed >>> 28), avalanche high⟩

def ofSixteen (data : Array UInt8) : Digest :=
  let size := data.size
  let first := word data 0
  let last := word data (size - 8)
  let product := multiply (first ^^^ last ^^^ (word secret 32 ^^^ word secret 40)) primeA
  let flipped := last ^^^ (word secret 48 ^^^ word secret 56)
  let high := product.high + flipped + lowHalf flipped * (primeB32 - 1)
  let low := (product.low + ((size - 1).toUInt64 <<< 54)) ^^^ reverseBytes 8 high
  let mixed := multiply low primeB
  ⟨avalanche mixed.low, avalanche (mixed.high + high * primeB)⟩

/-! ### Up to 240 bytes -/

def mixSixteen (data : Array UInt8) (place key : Nat) : UInt64 :=
  foldProduct (word data place ^^^ word secret key) (word data (place + 8) ^^^ word secret (key + 8))

def mixPair (data : Array UInt8) (state : Digest) (left right key : Nat) : Digest :=
  ⟨(state.low + mixSixteen data left key) ^^^ (word data right + word data (right + 8)),
    (state.high + mixSixteen data right (key + 16)) ^^^ (word data left + word data (left + 8))⟩

def finish (state : Digest) (size : Nat) : Digest :=
  ⟨avalanche (state.low + state.high),
    0 - avalanche (state.low * primeA + state.high * primeD + size.toUInt64 * primeB)⟩

def start (size : Nat) : Digest :=
  ⟨size.toUInt64 * primeA, 0⟩

/-- The digest of 17 to 128 bytes: pairs are taken from both ends, the innermost
first. -/
def ofHundred (data : Array UInt8) : Digest :=
  let size := data.size
  let mixed := [3, 2, 1, 0].foldl
    (fun state round =>
      if 32 * round < size then
        mixPair data state (16 * round) (size - 16 * (round + 1)) (32 * round)
      else state)
    (start size)
  finish mixed size

/-- The digest of 129 to 240 bytes: pairs are taken from the front. -/
def ofMiddle (data : Array UInt8) : Digest :=
  let size := data.size
  let opening := (List.range 4).foldl
    (fun state round => mixPair data state (32 * round) (32 * round + 16) (32 * round))
    (start size)
  let following := (List.range' 4 (size / 32 - 4)).foldl
    (fun state round => mixPair data state (32 * round) (32 * round + 16) (32 * (round - 4) + 3))
    ⟨avalanche opening.low, avalanche opening.high⟩
  finish (mixPair data following (size - 16) (size - 32) 103) size

/-! ### More than 240 bytes -/

def lanes : Array UInt64 :=
  #[primeC32, primeA, primeB, primeC, primeD, primeB32, primeE, primeA32]

def addStripe (data : Array UInt8) (state : Array UInt64) (place key : Nat) : Array UInt64 :=
  (List.range 8).foldl
    (fun state lane =>
      let value := word data (place + 8 * lane)
      let keyed := value ^^^ word secret (key + 8 * lane)
      let neighbour := if lane % 2 = 0 then lane + 1 else lane - 1
      (state.modify neighbour (· + value)).modify lane (· + lowHalf keyed * (keyed >>> 32)))
    state

def addStripes (data : Array UInt8) (state : Array UInt64) (place count : Nat) : Array UInt64 :=
  (List.range count).foldl
    (fun state stripe => addStripe data state (place + 64 * stripe) (8 * stripe)) state

def scramble (state : Array UInt64) : Array UInt64 :=
  state.mapIdx fun (lane : Nat) (value : UInt64) =>
    (value ^^^ (value >>> 47) ^^^ word secret (128 + 8 * lane)) * primeA32

def merge (state : Array UInt64) (key : Nat) (initial : UInt64) : UInt64 :=
  avalanche ((List.range 4).foldl
    (fun result pair => result +
      foldProduct (state.getD (2 * pair) 0 ^^^ word secret (key + 16 * pair))
        (state.getD (2 * pair + 1) 0 ^^^ word secret (key + 16 * pair + 8)))
    initial)

def ofLong (data : Array UInt8) : Digest :=
  let size := data.size
  let blocks := (size - 1) / 1024
  let full := (List.range blocks).foldl
    (fun state block => scramble (addStripes data state (1024 * block) 16)) lanes
  let partly := addStripes data full (1024 * blocks) ((size - 1 - 1024 * blocks) / 64)
  let last := addStripe data partly (size - 64) 121
  ⟨merge last 11 (size.toUInt64 * primeA), merge last 117 (~~~(size.toUInt64 * primeB))⟩

def ofBytes (bytes : Bytes) : Digest :=
  let data := bytes.toArray
  if data.size = 0 then ofNothing
  else if data.size ≤ 3 then ofThree data
  else if data.size ≤ 8 then ofEight data
  else if data.size ≤ 16 then ofSixteen data
  else if data.size ≤ 128 then ofHundred data
  else if data.size ≤ 240 then ofMiddle data
  else ofLong data

/-- A digest in hexadecimal, the high half first. -/
def text (digest : Digest) : String :=
  let bytes (value : UInt64) : Bytes :=
    (List.range 8).map fun step => (value >>> (8 * (7 - step)).toUInt64).toUInt8
  Text.hex (bytes digest.high ++ bytes digest.low)

end Digest

end RegisterCompiler
