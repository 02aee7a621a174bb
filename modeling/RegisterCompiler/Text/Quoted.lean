/-
Quoted text.

A quoted text stands between double quotes.  Printable characters stand for
themselves; a quote or a backslash has a backslash in front; the usual control
characters have their letter; every other control character and every byte
outside a well-formed sequence is written as two hexadecimal digits, and any
other character as four or eight.
-/

import RegisterCompiler.Text.Hex
import RegisterCompiler.Text.Printable

set_option autoImplicit false

namespace RegisterCompiler
namespace Text

def controlLetter? (char : Char) : Option Char :=
  match char.toNat with
  | 7 => some 'a'
  | 8 => some 'b'
  | 9 => some 't'
  | 10 => some 'n'
  | 11 => some 'v'
  | 12 => some 'f'
  | 13 => some 'r'
  | _ => none

def quotedChar (char : Char) : List Char :=
  if char == '"' || char == '\\' then ['\\', char]
  else if isPrintable char then [char]
  else
    match controlLetter? char with
    | some letter => ['\\', letter]
    | none =>
        if char.toNat < 0x20 || char.toNat == 0x7F then
          ['\\', 'x'] ++ hexDigits 2 char.toNat
        else if char.toNat < 0x10000 then
          ['\\', 'u'] ++ hexDigits 4 char.toNat
        else
          ['\\', 'U'] ++ hexDigits 8 char.toNat

/-- A glyph inside quotes; a byte outside every sequence is written in
hexadecimal. -/
def quotedGlyph (glyph : Glyph) : List Char :=
  match glyph.bytes with
  | [byte] =>
      if byte < 0x80 then quotedChar glyph.char else ['\\', 'x'] ++ hexDigits 2 byte.toNat
  | _ => quotedChar glyph.char

def quote (text : String) : String :=
  String.ofList (['"'] ++ text.toList.flatMap quotedChar ++ ['"'])

def quoteGlyphs (text : List Glyph) : String :=
  String.ofList (['"'] ++ text.flatMap quotedGlyph ++ ['"'])

end Text
end RegisterCompiler
