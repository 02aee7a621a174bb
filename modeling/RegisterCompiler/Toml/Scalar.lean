/-
Numbers, truth values and points in time in the TOML format.

A whole number fits a signed 64-bit word.  A number with a fraction or an exponent
has a double-precision number near it.  A point in time is a day of the calendar,
a time of the day or both, and in the last case it may say how far it is from
universal time.
-/

import RegisterCompiler.Text.Blank
import RegisterCompiler.Text.Decimal
import RegisterCompiler.Text.Hex
import RegisterCompiler.Toml

set_option autoImplicit false

namespace RegisterCompiler
namespace Toml

open Text (isDigit)

/-! ### Characters -/

def isHexDigit (char : Char) : Bool :=
  (Text.hexValue? char).isSome

def valueOf (base : Nat) (digits : List Char) : Nat :=
  digits.foldl (fun total digit => total * base + (Text.hexValue? digit).getD 0) 0

def isKeyChar (char : Char) : Bool :=
  isDigit char || ('a' ≤ char && char ≤ 'z') || ('A' ≤ char && char ≤ 'Z') ||
    char == '_' || char == '-'

def isScalarChar (char : Char) : Bool :=
  isKeyChar char || char == '+' || char == '.' || char == ':'

/-! ### Whole numbers -/

def isDigitRun (isDigitOf : Char → Bool) (chars : List Char) : Bool :=
  (Text.splitAt (· == '_') chars).all fun run => !run.isEmpty && run.all isDigitOf

def unsigned : List Char → List Char
  | '+' :: rest => rest
  | '-' :: rest => rest
  | chars => chars

def isDecimal (chars : List Char) : Bool :=
  isDigitRun isDigit chars && (chars.length == 1 || chars.head? != some '0')

def bounded (value : Int) : Option Scalar :=
  if Text.fitsSigned64 value then some (.integer value) else none

def prefixedInteger (base : Nat) (isDigitOf : Char → Bool) (chars : List Char) : Option Scalar :=
  if isDigitRun isDigitOf chars then bounded (valueOf base (chars.filter (· != '_'))) else none

def integerOf (chars : List Char) : Option Scalar :=
  match chars with
  | '0' :: 'x' :: digits => prefixedInteger 16 isHexDigit digits
  | '0' :: 'o' :: digits => prefixedInteger 8 (fun char => '0' ≤ char && char ≤ '7') digits
  | '0' :: 'b' :: digits => prefixedInteger 2 (fun char => char == '0' || char == '1') digits
  | _ =>
      if isDecimal (unsigned chars) then
        let magnitude : Int := valueOf 10 ((unsigned chars).filter (· != '_'))
        bounded (if chars.head? = some '-' then -magnitude else magnitude)
      else none

/-! ### Numbers with a fraction or an exponent -/

/-- The least number without a double-precision number near it: it is halfway from
the greatest one to the power of two above it. -/
def leastUnbounded : Nat :=
  Nat.pow 2 1024 - Nat.pow 2 970

/-- The number that the digits of an exponent spell.  After the fifth digit that
counts the exponent is beyond every bound, and further ones are left out. -/
def exponentSize (digits : List Char) : Nat :=
  digits.foldl
    (fun total digit => if total < 10000 then total * 10 + Text.digitValue digit else total) 0

/-- Whether digits, the last `places` of them behind the point, times ten to the
power of an exponent have a double-precision number near them. -/
def hasNeighbour (digits : List Char) (places : Nat) (exponent : Int) : Bool :=
  let shift := exponent - places
  Text.digitsValue digits * Nat.pow 10 shift.toNat < leastUnbounded * Nat.pow 10 (-shift).toNat

structure DecimalParts where
  whole : List Char
  places : List Char
  exponent : List Char
deriving Repr, DecidableEq

/-- Takes a number without its sign apart: behind the whole part a point leads the
places and a letter leads the exponent. -/
def DecimalParts.of (chars : List Char) : DecimalParts :=
  let mantissa := chars.takeWhile fun char => char != 'e' && char != 'E'
  let whole := mantissa.takeWhile (· != '.')
  ⟨whole, mantissa.drop whole.length, chars.drop mantissa.length⟩

def DecimalParts.isWellFormed (parts : DecimalParts) : Bool :=
  isDecimal parts.whole && (parts.places.isEmpty || isDigitRun isDigit parts.places.tail) &&
    (parts.exponent.isEmpty || isDigitRun isDigit (unsigned parts.exponent.tail)) &&
    !(parts.places.isEmpty && parts.exponent.isEmpty)

def DecimalParts.isBounded (parts : DecimalParts) : Bool :=
  let digits := (parts.whole ++ parts.places).filter isDigit
  let size : Int := exponentSize (parts.exponent.filter isDigit)
  hasNeighbour digits (parts.places.filter isDigit).length
    (if parts.exponent.contains '-' then -size else size)

/-- Whether a list is a number with a fraction, an exponent or both, or stands
for no finite number. -/
def isFraction (chars : List Char) : Bool :=
  let body := unsigned chars
  if body = "inf".toList || body = "nan".toList then true
  else (DecimalParts.of body).isWellFormed && (DecimalParts.of body).isBounded

/-! ### Points in time -/

def digitsOf (count : Nat) (chars : List Char) : Option Nat :=
  if chars.length = count then Text.natural? chars else none

def daysIn (year month : Nat) : Nat :=
  if month = 2 then
    if (year % 4 = 0 && year % 100 != 0) || year % 400 = 0 then 29 else 28
  else if month = 4 || month = 6 || month = 9 || month = 11 then 30
  else 31

def isDate (chars : List Char) : Bool :=
  match (Text.splitAt (· == '-') chars) with
  | [year, month, day] =>
      match digitsOf 4 year, digitsOf 2 month, digitsOf 2 day with
      | some year, some month, some day =>
          1 ≤ month && month ≤ 12 && 1 ≤ day && day ≤ daysIn year month
      | _, _, _ => false
  | _ => false

def isBelow (bound : Nat) (chars : List Char) : Bool :=
  ((digitsOf 2 chars).map fun value => decide (value < bound)).getD false

def isTime (chars : List Char) : Bool :=
  match (Text.splitAt (· == ':') chars) with
  | [hour, minute] => isBelow 24 hour && isBelow 60 minute
  | [hour, minute, second] =>
      let whole := second.takeWhile (· != '.')
      let places := second.drop whole.length
      isBelow 24 hour && isBelow 60 minute && isBelow 60 whole &&
        (places.isEmpty || (places.length != 1 && places.tail.all isDigit))
  | _ => false

def isDistance (chars : List Char) : Bool :=
  match (Text.splitAt (· == ':') chars) with
  | [hour, minute] => isBelow 25 hour && isBelow 61 minute
  | _ => false

def isZonedTime (chars : List Char) : Bool :=
  let time := chars.takeWhile fun char =>
    char != 'Z' && char != 'z' && char != '+' && char != '-'
  isTime time &&
    match chars.drop time.length with
    | [] => true
    | ['Z'] => true
    | ['z'] => true
    | 'Z' :: _ => false
    | 'z' :: _ => false
    | _ :: distance => isDistance distance

def isMoment (chars : List Char) : Bool :=
  isTime chars || isDate chars ||
    (isDate (chars.take 10) &&
      match chars.drop 10 with
      | mark :: time => (mark == 'T' || mark == 't' || mark == ' ') && isZonedTime time
      | [] => false)

/-! ### Scalars -/

def scalarOf (chars : List Char) : Option Scalar :=
  if chars = "true".toList then some (.boolean true)
  else if chars = "false".toList then some (.boolean false)
  else
    match integerOf chars with
    | some value => some value
    | none =>
        if isFraction chars then some (.fraction (String.ofList chars))
        else if isMoment chars then some (.moment (String.ofList chars))
        else none

/-- The characters of a number, a truth value or a point in time.  A blank may
stand between a day and a time. -/
def scalarChars (input : List Char) : List Char :=
  let chars := input.takeWhile isScalarChar
  match input.drop chars.length with
  | ' ' :: next :: rest =>
      if isDate chars && isDigit next then
        chars ++ ' ' :: (next :: rest).takeWhile isScalarChar
      else chars
  | _ => chars

end Toml
end RegisterCompiler
