/-
The word under the cursor.

Words are found byte by byte.  Every byte is taken for the character of the same
number, so that a word may hold parts of a character that takes several bytes.
-/

import RegisterCompiler.Editor.Diagnostic
import RegisterCompiler.Text.Blank

set_option autoImplicit false

namespace RegisterCompiler
namespace Editor

open Text (Bytes)

def isUpperByte (byte : UInt8) : Bool :=
  (65 ≤ byte && byte ≤ 90) || (0xC0 ≤ byte && byte ≤ 0xDE && byte != 0xD7)

def isLetterByte (byte : UInt8) : Bool :=
  (65 ≤ byte && byte ≤ 90) || (97 ≤ byte && byte ≤ 122) || byte == 0xAA || byte == 0xB5 ||
    byte == 0xBA || (0xC0 ≤ byte && byte != 0xD7 && byte != 0xF7)

def isWordByte (byte : UInt8) : Bool :=
  isLetterByte byte || byte == 95

def line? (text : Bytes) (number : Nat) : Option Bytes :=
  (Text.splitAt (· == 10) text)[number]?

/-- The part of a word that ends at a column of a line.  A column behind the line
is its end. -/
def wordBefore (line : Bytes) (column : Nat) : Bytes :=
  ((line.take column).reverse.takeWhile isWordByte).reverse

def wordAfter (line : Bytes) (column : Nat) : Bytes :=
  (line.drop column).takeWhile isWordByte

def fragmentAt (text : Bytes) (cursor : Cursor) : Bytes :=
  (line? text cursor.line.toNat).elim [] fun line => wordBefore line cursor.character.toNat

def wordAt (text : Bytes) (cursor : Cursor) : Bytes :=
  (line? text cursor.line.toNat).elim [] fun line =>
    wordBefore line cursor.character.toNat ++ wordAfter line cursor.character.toNat

end Editor
end RegisterCompiler
