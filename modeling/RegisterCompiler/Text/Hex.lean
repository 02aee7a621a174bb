/-
Numbers and bytes written in hexadecimal.
-/

import RegisterCompiler.Text.Utf8

set_option autoImplicit false

namespace RegisterCompiler
namespace Text

def hexDigit (value : Nat) : Char :=
  if value < 10 then Char.ofNat ('0'.toNat + value) else Char.ofNat ('a'.toNat + (value - 10))

/-- The lowest `width` hexadecimal digits of a number, most significant first. -/
def hexDigits : Nat → Nat → List Char
  | 0, _ => []
  | width + 1, value => hexDigits width (value / 16) ++ [hexDigit (value % 16)]

def hexByte (byte : UInt8) : String :=
  "0x" ++ String.ofList ((hexDigits 2 byte.toNat).map Char.toUpper)

def hex (bytes : Bytes) : String :=
  String.ofList (bytes.flatMap fun byte => hexDigits 2 byte.toNat)

def hexValue? (char : Char) : Option Nat :=
  if '0' ≤ char && char ≤ '9' then some (char.toNat - '0'.toNat)
  else if 'a' ≤ char && char ≤ 'f' then some (char.toNat - 'a'.toNat + 10)
  else if 'A' ≤ char && char ≤ 'F' then some (char.toNat - 'A'.toNat + 10)
  else none

def unhexChars? : List Char → Option Bytes
  | [] => some []
  | high :: low :: rest => do
      let byte := (← hexValue? high) * 16 + (← hexValue? low)
      return byte.toUInt8 :: (← unhexChars? rest)
  | [_] => none

def unhex? (text : String) : Option Bytes :=
  unhexChars? text.toList

/-! ### Reading back -/

private theorem hexValue?_hexDigit {value : Nat} (hSmall : value < 16) :
    hexValue? (hexDigit value) = some value := by
  have hAll : ∀ digit : Fin 16, hexValue? (hexDigit digit.val) = some digit.val := by
    decide
  exact hAll ⟨value, hSmall⟩

private theorem hexDigits_two (value : Nat) :
    hexDigits 2 value = [hexDigit (value / 16 % 16), hexDigit (value % 16)] := by
  simp [hexDigits]

private theorem unhexChars?_hexDigits (byte : UInt8) (rest : List Char) :
    unhexChars? (hexDigits 2 byte.toNat ++ rest) = (unhexChars? rest).map (byte :: ·) := by
  have hByte := byte.toNat_lt
  have hHigh := hexValue?_hexDigit (Nat.mod_lt (byte.toNat / 16) (by decide : 0 < 16))
  have hLow := hexValue?_hexDigit (Nat.mod_lt byte.toNat (by decide : 0 < 16))
  have hSum : byte.toNat / 16 % 16 * 16 + byte.toNat % 16 = byte.toNat := by omega
  rw [hexDigits_two]
  simp only [List.cons_append, List.nil_append, unhexChars?, hHigh, hLow, hSum,
    Option.bind_eq_bind, Option.bind_some]
  cases unhexChars? rest <;> simp

private theorem unhexChars?_flatMap (bytes : Bytes) :
    unhexChars? (bytes.flatMap fun byte => hexDigits 2 byte.toNat) = some bytes := by
  induction bytes with
  | nil => rfl
  | cons byte rest inductionHypothesis =>
      rw [List.flatMap_cons, unhexChars?_hexDigits, inductionHypothesis]
      rfl

@[simp]
theorem unhex?_hex (bytes : Bytes) : unhex? (hex bytes) = some bytes := by
  simp [unhex?, hex, unhexChars?_flatMap]

end Text
end RegisterCompiler
