/-
What an editor shows about a program text.

The compiler names places in the text of its messages, counting from one.  An
editor is given the place apart from the rest of the message and counts from
zero.  A message that does not start with a place is shown whole, at the start of
the document.
-/

import RegisterCompiler.Text.Decimal

set_option autoImplicit false

namespace RegisterCompiler
namespace Editor

inductive Severity where
  | error
  | warning
deriving Repr, DecidableEq, Inhabited

namespace Severity

def number : Severity → Nat
  | error => 1
  | warning => 2

end Severity

/-- A line and a character on it, both counted from zero.  An editor sends and takes
numbers of 32 bits. -/
structure Cursor where
  line : UInt32
  character : UInt32
deriving Repr, DecidableEq, Inhabited

structure Diagnostic where
  place : Cursor
  severity : Severity
  message : String
deriving Repr, DecidableEq, Inhabited

def after? (opening : String) (chars : List Char) : Option (List Char) :=
  if opening.toList.isPrefixOf chars then some (chars.drop opening.toList.length) else none

def leadingNumber? (chars : List Char) : Option (Nat × List Char) :=
  let digits := chars.takeWhile Text.isDigit
  (Text.natural? digits).map fun value => (value, chars.dropWhile Text.isDigit)

def remainder? (chars : List Char) : Option String :=
  (after? ": " chars).bind fun rest =>
    if rest.contains '\n' then none else some (String.ofList rest)

/-- The line and, if there is one, the column that a message starts with, and the
rest of the message. -/
def locate? (message : String) : Option (Nat × Option Nat × String) := do
  let (line, rest) ← leadingNumber? (← after? "line " message.toList)
  match after? ", column " rest with
  | none => return (line, none, ← remainder? rest)
  | some rest =>
      let (column, rest) ← leadingNumber? rest
      return (line, some column, ← remainder? rest)

/-- The place of a line and, if there is one, a column, both counted from one. -/
def Cursor.ofPlace (line : Nat) (column : Option Nat) : Cursor :=
  ⟨.ofNat (line - 1), .ofNat (column.getD 0 - 1)⟩

def Diagnostic.ofMessage (severity : Severity) (message : String) : Diagnostic :=
  match locate? message with
  | some (line, column, rest) => ⟨.ofPlace line column, severity, rest⟩
  | none => ⟨⟨0, 0⟩, severity, message⟩

end Editor
end RegisterCompiler
