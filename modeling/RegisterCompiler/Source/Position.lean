/-
Places in a program text.

Lines and columns count from one, offsets count bytes from zero.  A column
counts characters, not bytes.
-/

import RegisterCompiler.Text.Utf8

set_option autoImplicit false

namespace RegisterCompiler
namespace Source

open Text (Glyph)

structure Position where
  offset : Nat
  line : Nat
  column : Nat
deriving Repr, DecidableEq, Inhabited

namespace Position

def start : Position := ⟨0, 1, 1⟩

/-- The place before every text, where nothing has been read yet. -/
def unset : Position := ⟨0, 0, 0⟩

/-- The place just after a glyph: a newline opens the next line. -/
def after (position : Position) (glyph : Glyph) : Position :=
  if glyph.char = '\n' then
    ⟨position.offset + glyph.bytes.length, position.line + 1, 1⟩
  else
    ⟨position.offset + glyph.bytes.length, position.line, position.column + 1⟩

/-- The place a number of one-byte characters further on the same line. -/
def shift (position : Position) (width : Nat) : Position :=
  ⟨position.offset + width, position.line, position.column + width⟩

def text (position : Position) : String :=
  s!"{position.line}:{position.column}"

end Position

structure Span where
  first : Position
  last : Position
deriving Repr, DecidableEq, Inhabited

end Source
end RegisterCompiler
