/-
Splitting a program text into tokens.

Blanks and comments in braces separate tokens and are dropped.  Comments do not
nest.  The text ends at its last byte or at the first NUL character outside a
token.  Splitting never fails: what spells no token becomes an error token and
the rest is read on.
-/

import RegisterCompiler.Text.Decimal
import RegisterCompiler.Token

set_option autoImplicit false

namespace RegisterCompiler

open Source (Position)
open Text (Bytes Glyph glyphs isDigit)

inductive LexicalFault where
  | unterminatedComment
  | loneColon
  | strayCharacter (char : Char)
  | unknownKeyword (word : String)
deriving Repr, DecidableEq

namespace LexicalFault

def message : LexicalFault → String
  | unterminatedComment => "unterminated comment"
  | loneColon => "expected := after :"
  | strayCharacter char => s!"unexpected character: {char}"
  | unknownKeyword word => s!"unknown keyword: {word}"

end LexicalFault

structure Cursor where
  rest : List Glyph
  position : Position
deriving Repr, DecidableEq

namespace Cursor

def ofBytes (bytes : Bytes) : Cursor :=
  ⟨glyphs bytes, .start⟩

/-- The character at the cursor, NUL at the end. -/
def char (cursor : Cursor) : Char :=
  match cursor.rest with
  | [] => Char.ofNat 0
  | glyph :: _ => glyph.char

def advance (cursor : Cursor) : Cursor :=
  match cursor.rest with
  | [] => cursor
  | glyph :: rest => ⟨rest, cursor.position.after glyph⟩

def takeWhileFrom (property : Char → Bool) : List Glyph → Position → List Char × Cursor
  | [], position => ([], ⟨[], position⟩)
  | glyph :: rest, position =>
      if property glyph.char then
        let (run, cursor) := takeWhileFrom property rest (position.after glyph)
        (glyph.char :: run, cursor)
      else
        ([], ⟨glyph :: rest, position⟩)

def takeWhile (cursor : Cursor) (property : Char → Bool) : List Char × Cursor :=
  takeWhileFrom property cursor.rest cursor.position

end Cursor

def isSeparator (char : Char) : Bool :=
  char == ' ' || char == '\t' || char == '\n' || char == '\r'

def isLower (char : Char) : Bool :=
  'a' ≤ char && char ≤ 'z'

def isUpper (char : Char) : Bool :=
  'A' ≤ char && char ≤ 'Z'

def isNameChar (char : Char) : Bool :=
  isLower char || char == '_'

/-- Skips blanks and comments.  `comment` is the start of the comment being
skipped, if any.  A comment that reaches the end of the text is given by its
start, together with the cursor at that end. -/
def skipTriviaFrom :
    List Glyph → Position → Option Position → Except (Position × Cursor) Cursor
  | [], position, none => .ok ⟨[], position⟩
  | [], position, some start => .error (start, ⟨[], position⟩)
  | glyph :: rest, position, none =>
      if isSeparator glyph.char then
        skipTriviaFrom rest (position.after glyph) none
      else if glyph.char = '\x7b' then
        skipTriviaFrom rest (position.after glyph) (some position)
      else
        .ok ⟨glyph :: rest, position⟩
  | glyph :: rest, position, some start =>
      if glyph.char = '\x7d' then
        skipTriviaFrom rest (position.after glyph) none
      else if glyph.char = Char.ofNat 0 then
        .error (start, ⟨glyph :: rest, position⟩)
      else
        skipTriviaFrom rest (position.after glyph) (some start)

def singleKind? : Char → Option TokenKind
  | '[' => some .openBracket
  | ']' => some .closeBracket
  | ';' => some .semicolon
  | '+' => some .plus
  | '-' => some .minus
  | '*' => some .star
  | '/' => some .slash
  | '%' => some .percent
  | '=' => some .equal
  | _ => none

namespace Token

def ofFault (fault : LexicalFault) (position : Position) : Token :=
  ⟨.error, fault.message, position⟩

/-- The token at a cursor that stands on no blank and no comment, and the
cursor after it. -/
def readAt (cursor : Cursor) : Token × Cursor :=
  let here := cursor.position
  let char := cursor.char
  let next := cursor.advance
  if char = Char.ofNat 0 then
    (⟨.endOfInput, "", here⟩, cursor)
  else
    match singleKind? char with
    | some kind => (⟨kind, String.singleton char, here⟩, next)
    | none =>
        if char = ':' then
          if next.char = '=' then (⟨.assign, ":=", here⟩, next.advance)
          else (ofFault .loneColon here, next)
        else if char = '<' then
          if next.char = '>' then (⟨.notEqual, "<>", here⟩, next.advance)
          else if next.char = '=' then (⟨.lessEqual, "<=", here⟩, next.advance)
          else (⟨.less, "<", here⟩, next)
        else if char = '>' then
          if next.char = '=' then (⟨.greaterEqual, ">=", here⟩, next.advance)
          else (⟨.greater, ">", here⟩, next)
        else if isDigit char then
          let (run, after) := cursor.takeWhile isDigit
          (⟨.number, String.ofList run, here⟩, after)
        else if isNameChar char then
          let (run, after) := cursor.takeWhile isNameChar
          (⟨.identifier, String.ofList run, here⟩, after)
        else if isUpper char then
          let (run, after) := cursor.takeWhile isUpper
          let word := String.ofList run
          match TokenKind.ofWord? word with
          | some kind => (⟨kind, word, here⟩, after)
          | none => (ofFault (.unknownKeyword word) here, after)
        else
          (ofFault (.strayCharacter char) here, next)

def next (cursor : Cursor) : Token × Cursor :=
  match skipTriviaFrom cursor.rest cursor.position none with
  | .ok start => readAt start
  | .error (start, stop) => (ofFault .unterminatedComment start, stop)

/-- The tokens from a cursor on, up to and with the end of input, at most
`fuel` of them. -/
def scanFrom : Nat → Cursor → List Token
  | 0, _ => []
  | fuel + 1, cursor =>
      let (token, after) := next cursor
      if token.kind = .endOfInput then [token] else token :: scanFrom fuel after

/-- All tokens of a text; the last one, and no other, is the end of input.
Every other token takes at least one character, which bounds their number. -/
def scan (bytes : Bytes) : List Token :=
  let cursor := Cursor.ofBytes bytes
  scanFrom (cursor.rest.length + 1) cursor

end Token

end RegisterCompiler
