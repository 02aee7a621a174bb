/-
Numbers written in decimal.

A natural number is one or more digits; an integer may have one sign in front.
-/

set_option autoImplicit false

namespace RegisterCompiler
namespace Text

def isDigit (char : Char) : Bool :=
  '0' ≤ char && char ≤ '9'

def digitValue (char : Char) : Nat :=
  char.toNat - '0'.toNat

def digitsValue (digits : List Char) : Nat :=
  digits.foldl (fun total digit => total * 10 + digitValue digit) 0

def natural? (chars : List Char) : Option Nat :=
  if !chars.isEmpty && chars.all isDigit then some (digitsValue chars) else none

def integer? : List Char → Option Int
  | '+' :: rest => (natural? rest).map Int.ofNat
  | '-' :: rest => (natural? rest).map fun value => -Int.ofNat value
  | chars => (natural? chars).map Int.ofNat

def fitsSigned64 (value : Int) : Bool :=
  -9223372036854775808 ≤ value && value ≤ 9223372036854775807

def signed64? (chars : List Char) : Option Int :=
  (integer? chars).filter fitsSigned64

end Text
end RegisterCompiler
