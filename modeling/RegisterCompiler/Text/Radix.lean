/-
Whole numbers that name their radix.

A number may have a sign.  It is binary, octal or hexadecimal behind `0b`, `0o`
and `0x`, octal behind any other leading zero, and decimal otherwise.  Single
underscores may stand between the digits and behind the mark of the radix.
-/

import RegisterCompiler.Text.Decimal

set_option autoImplicit false

namespace RegisterCompiler
namespace Text

inductive NumberProblem where
  | notNumber
  | tooLarge
deriving Repr, DecidableEq, Inhabited

def anyDigit? (char : Char) : Option Nat :=
  let lower := char.toLower
  if isDigit char then some (digitValue char)
  else if 'a' ≤ lower && lower ≤ 'z' then some (lower.toNat - 'a'.toNat + 10)
  else none

def splitRadix : List Char → Nat × List Char
  | '0' :: mark :: digit :: rest =>
      let lower := mark.toLower
      if lower = 'b' then (2, digit :: rest)
      else if lower = 'o' then (8, digit :: rest)
      else if lower = 'x' then (16, digit :: rest)
      else (8, mark :: digit :: rest)
  | '0' :: rest => (8, rest)
  | chars => (10, chars)

/-- Whether underscores stand alone, and behind a digit or a mark that counts as
one. -/
def underscoresFit : Bool → List Char → Bool
  | _, [] => true
  | afterDigit, '_' :: rest => afterDigit && !rest.isEmpty && underscoresFit false rest
  | _, _ :: rest => underscoresFit true rest

/-- Adds digits to a number below 2^64, from the first one on.  A number that
grows too large is refused at the digit that makes it so. -/
def accumulate (radix : Nat) : Nat → List Char → Except NumberProblem Nat
  | total, [] => .ok total
  | total, '_' :: rest => accumulate radix total rest
  | total, char :: rest =>
      match anyDigit? char with
      | none => .error .notNumber
      | some digit =>
          if radix ≤ digit then .error .notNumber
          else if UInt64.size ≤ total * radix + digit then .error .tooLarge
          else accumulate radix (total * radix + digit) rest

def magnitude (chars : List Char) : Except NumberProblem Nat :=
  let (radix, digits) := splitRadix chars
  let isMarked := chars.head? == some '0'
  if chars.isEmpty then .error .notNumber
  else
    match accumulate radix 0 digits with
    | .error problem => .error problem
    | .ok total => if underscoresFit isMarked digits then .ok total else .error .notNumber

def withSign (negative : Bool) (value : Nat) : Except NumberProblem Int :=
  let signed : Int := if negative then -value else value
  if fitsSigned64 signed then .ok signed else .error .tooLarge

def wholeNumber : List Char → Except NumberProblem Int
  | '+' :: rest => (magnitude rest).bind (withSign false)
  | '-' :: rest => (magnitude rest).bind (withSign true)
  | chars => (magnitude chars).bind (withSign false)

end Text
end RegisterCompiler
