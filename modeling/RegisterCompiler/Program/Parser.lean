/-
Reading programs.

The reader looks at the current token and the one after it.  It records every
fault and reads on: after a faulty command it skips to a place where a command
can start.  A command list ends at the end of input or at a word that closes
some construct; which word was wanted is checked by whoever asked for the list.
-/

import RegisterCompiler.Program
import RegisterCompiler.Text.Decimal
import RegisterCompiler.Token.Lexer

set_option autoImplicit false

namespace RegisterCompiler

open Source (Position Span)
open Text (Bytes)

inductive SyntaxFault where
  | lexical (message : String)
  | expected (wanted found : TokenKind)
  | expectedLoopVariable (found : TokenKind)
  | expectedDirection (found : TokenKind)
  | expectedComparison (found : TokenKind)
  | expectedOperand (found : TokenKind)
  | expectedNumber (found : TokenKind)
  | expectedIdentifier (found : TokenKind)
  | expectedIndex (found : TokenKind)
  | expectedCommand (found : TokenKind)
  | unexpectedStart (found : TokenKind)
  | unexpectedAfterEnd (found : TokenKind)
deriving Repr, DecidableEq

namespace SyntaxFault

def message : SyntaxFault → String
  | lexical message => message
  | expected wanted found => s!"expected {wanted.name}, got {found.name}"
  | expectedLoopVariable found => s!"expected loop variable, got {found.name}"
  | expectedDirection found => s!"expected TO or DOWNTO, got {found.name}"
  | expectedComparison found => s!"expected comparison, got {found.name}"
  | expectedOperand found => s!"expected number or identifier, got {found.name}"
  | expectedNumber found => s!"expected number, got {found.name}"
  | expectedIdentifier found => s!"expected identifier, got {found.name}"
  | expectedIndex found => s!"expected index, got {found.name}"
  | expectedCommand found => s!"expected a command before {found.name}"
  | unexpectedStart found => s!"unexpected {found.name} at start of command"
  | unexpectedAfterEnd found => s!"unexpected {found.name} after END"

end SyntaxFault

structure SyntaxError where
  line : Nat
  fault : SyntaxFault
deriving Repr, DecidableEq

namespace SyntaxError

def message (error : SyntaxError) : String :=
  s!"line {error.line}: {error.fault.message}"

end SyntaxError

/-- One message for a list of messages: the first, and how many others follow. -/
def summarize : List String → String
  | [] => ""
  | [message] => message
  | message :: rest => s!"{message} (and {rest.length} more errors)"

/-- The state of the reader: the current token, the one after it, the tokens
still to come, the end of the last token passed, and the faults so far. -/
structure Reader where
  current : Token
  upcoming : Token
  rest : List Token
  passedEnd : Position
  errors : List SyntaxError
deriving Repr

namespace Reader

def report (reader : Reader) (line : Nat) (fault : SyntaxFault) : Reader :=
  { reader with errors := reader.errors ++ [⟨line, fault⟩] }

/-- Fetches the token after the current one.  Error tokens on the way are
recorded as faults; at the end of input the last token stays. -/
def fetch (reader : Reader) : List Token → Reader
  | [] => { reader with rest := [] }
  | token :: rest =>
      if token.kind = .error then
        fetch (reader.report token.position.line (.lexical token.literal)) rest
      else
        { reader with upcoming := token, rest := rest }

def advance (reader : Reader) : Reader :=
  let passedEnd :=
    if reader.current.literal = "" then reader.passedEnd else reader.current.stop
  fetch { reader with current := reader.upcoming, passedEnd := passedEnd } reader.rest

def nothingRead : Token := ⟨.endOfInput, "", .unset⟩

def ofTokens (tokens : List Token) : Reader :=
  advance (fetch ⟨nothingRead, nothingRead, tokens, .unset, []⟩ tokens)

end Reader

/-- Reading, which always leaves a reader behind. -/
abbrev Reading := StateM Reader

abbrev Attempt := OptionT Reading

namespace Reading

def current : Reading Token := do
  return (← get).current

def advance : Reading Unit :=
  modify Reader.advance

def report (fault : TokenKind → SyntaxFault) : Reading Unit :=
  modify fun reader =>
    reader.report reader.current.position.line (fault reader.current.kind)

def expect (wanted : TokenKind) : Reading Bool := do
  if (← current).kind = wanted then
    advance
    return true
  else
    report (.expected wanted)
    return false

/-- The stretch from a place to the end of the last token passed. -/
def spanFrom (first : Position) : Reading Span := do
  return ⟨first, (← get).passedEnd⟩

end Reading

namespace Attempt

def refuse {α : Type} (fault : TokenKind → SyntaxFault) : Attempt α := do
  Reading.report fault
  failure

def require (wanted : TokenKind) : Attempt Unit := do
  unless ← Reading.expect wanted do failure

def number : Attempt Nat := do
  let token ← Reading.current
  if token.kind = .number then
    Reading.advance
    return Text.digitsValue token.literal.toList
  else
    refuse .expectedNumber

/-- Reads the index of an element.  An index that is a name reaches up to the
token after it. -/
def index : Attempt Index := do
  let token ← Reading.current
  if token.kind = .number then
    let value ← number
    return .number (← Reading.spanFrom token.position) value
  else if token.kind = .identifier then
    let span : Span := ⟨token.position, (← get).upcoming.position⟩
    Reading.advance
    return .name span token.literal
  else
    refuse .expectedIndex

def reference : Attempt Reference := do
  let token ← Reading.current
  if token.kind = .identifier then
    Reading.advance
    if (← Reading.current).kind = .openBracket then
      Reading.advance
      let found ← index
      require .closeBracket
      return ⟨← Reading.spanFrom token.position, token.literal, some found⟩
    else
      return ⟨← Reading.spanFrom token.position, token.literal, none⟩
  else
    refuse .expectedIdentifier

def atom : Attempt Atom := do
  let token ← Reading.current
  if token.kind = .number then
    let value ← number
    return .number (← Reading.spanFrom token.position) value
  else if token.kind = .identifier then
    return .reference (← reference)
  else
    refuse .expectedOperand

def operator? : TokenKind → Option Operator
  | .plus => some .add
  | .minus => some .sub
  | .star => some .mul
  | .slash => some .div
  | .percent => some .mod
  | _ => none

def relation? : TokenKind → Option Relation
  | .equal => some .equal
  | .notEqual => some .notEqual
  | .less => some .less
  | .greater => some .greater
  | .lessEqual => some .lessEqual
  | .greaterEqual => some .greaterEqual
  | _ => none

def expression : Attempt Expression := do
  let first := (← Reading.current).position
  let left ← atom
  match operator? (← Reading.current).kind with
  | some operator =>
      Reading.advance
      let right ← atom
      return .operation (← Reading.spanFrom first) left operator right
  | none => return .atom (← Reading.spanFrom first) left

def condition : Attempt Condition := do
  let first := (← Reading.current).position
  let left ← atom
  match relation? (← Reading.current).kind with
  | some relation =>
      Reading.advance
      let right ← atom
      return ⟨← Reading.spanFrom first, left, relation, right⟩
  | none => refuse .expectedComparison

def direction : Attempt Direction := do
  match (← Reading.current).kind with
  | .toWord => Reading.advance; return .up
  | .downToWord => Reading.advance; return .down
  | _ => refuse .expectedDirection

def assignment : Attempt Command := do
  let first := (← Reading.current).position
  let target ← reference
  require .assign
  let value ← expression
  require .semicolon
  return .assign (← Reading.spanFrom first) target value

def readCommand : Attempt Command := do
  let first := (← Reading.current).position
  Reading.advance
  let target ← reference
  require .semicolon
  return .read (← Reading.spanFrom first) target

def writeCommand : Attempt Command := do
  let first := (← Reading.current).position
  Reading.advance
  let value ← atom
  require .semicolon
  return .write (← Reading.spanFrom first) value

def skipCommand : Attempt Command := do
  let first := (← Reading.current).position
  Reading.advance
  require .semicolon
  return .skip (← Reading.spanFrom first)

/-- Reads a conditional; `block` reads a command list.  An ELSE part that
yields no command counts as absent. -/
def conditional (block : TokenKind → Reading (List Command)) : Attempt Command := do
  let first := (← Reading.current).position
  Reading.advance
  let test ← condition
  require .thenWord
  let body ← block .elseWord
  if (← Reading.current).kind = .elseWord then
    Reading.advance
    let orElse ← block .endIfWord
    require .endIfWord
    let span ← Reading.spanFrom first
    return if orElse.isEmpty then .ifThen span test body else .ifElse span test body orElse
  else
    require .endIfWord
    return .ifThen (← Reading.spanFrom first) test body

def whileLoop (block : TokenKind → Reading (List Command)) : Attempt Command := do
  let first := (← Reading.current).position
  Reading.advance
  let test ← condition
  require .doWord
  let body ← block .endWhileWord
  require .endWhileWord
  return .whileLoop (← Reading.spanFrom first) test body

def forLoop (block : TokenKind → Reading (List Command)) : Attempt Command := do
  let first := (← Reading.current).position
  Reading.advance
  let iterator ← Reading.current
  if iterator.kind = .identifier then
    Reading.advance
    require .fromWord
    let lower ← atom
    let way ← direction
    let upper ← atom
    require .doWord
    let body ← block .endForWord
    require .endForWord
    return .forLoop (← Reading.spanFrom first) iterator.literal lower upper way body
  else
    refuse .expectedLoopVariable

def command (block : TokenKind → Reading (List Command)) : Attempt Command := do
  match (← Reading.current).kind with
  | .identifier => assignment
  | .ifWord => conditional block
  | .whileWord => whileLoop block
  | .forWord => forLoop block
  | .readWord => readCommand
  | .writeWord => writeCommand
  | .skipWord => skipCommand
  | _ =>
      Reading.report .unexpectedStart
      Reading.advance
      failure

end Attempt

namespace Reading

def endsCommands : TokenKind → Bool
  | .endOfInput | .endWord | .elseWord | .endIfWord | .endWhileWord | .endForWord => true
  | _ => false

def startsCommand : TokenKind → Bool
  | .ifWord | .whileWord | .forWord | .readWord | .writeWord | .skipWord => true
  | _ => false

/-- Skips to a place where a command can start: behind a semicolon, at a word
that starts a command, or at the end of the list. -/
def skipToCommand : Nat → Reading Unit
  | 0 => return
  | fuel + 1 => do
      let kind := (← current).kind
      if kind = .semicolon then
        advance
      else if endsCommands kind || startsCommand kind then
        return
      else
        advance
        skipToCommand fuel

def bound : Reading Nat := do
  return (← get).rest.length + 2

/-- Reads a command list that should be closed by `wanted`, where `commands`
reads the commands of the list.  A list without a command is a fault, except at
the end of input. -/
def block (commands : Reading (List Command)) (wanted : TokenKind) : Reading (List Command) := do
  let found ← commands
  if found.isEmpty && wanted ≠ .endOfInput then
    report .expectedCommand
  return found

/-- Reads commands until a token that closes a list, at most `fuel` in a row or
inside one another. -/
def commands : Nat → Reading (List Command)
  | 0 => return []
  | fuel + 1 => do
      if endsCommands (← current).kind then
        return []
      else
        let before := (← get).errors.length
        let found ← (Attempt.command (block (commands fuel))).run
        if before < (← get).errors.length then
          skipToCommand (← bound)
        let rest ← commands fuel
        return found.toList ++ rest

def declarations : Nat → Reading (List Declaration)
  | 0 => return []
  | fuel + 1 => do
      let name ← current
      if name.kind = .identifier then
        advance
        let mut length : Option Nat := none
        if (← current).kind = .openBracket then
          advance
          length ← Attempt.number.run
          let _ ← expect .closeBracket
        let declaration : Declaration := ⟨← spanFrom name.position, name.literal, length⟩
        let rest ← declarations fuel
        return declaration :: rest
      else
        return []

/-- Reads a whole program.  There is none only if the leading VAR is missing. -/
def program : Reading (Option Program) := do
  let first := (← current).position
  if ← expect .varWord then
    let found ← declarations (← bound)
    let _ ← expect .beginWord
    let body ← block (commands (← bound)) .endWord
    let _ ← expect .endWord
    if (← current).kind ≠ .endOfInput then
      report .unexpectedAfterEnd
    return some ⟨← spanFrom first, found, body⟩
  else
    return none

end Reading

/-- What was read, possibly in part, and the faults found on the way. -/
structure Parsed (α : Type) where
  result : α
  errors : List SyntaxError

def readText {α : Type} (reading : Reading α) (text : Bytes) : Parsed α :=
  let (result, reader) := reading.run (Reader.ofTokens (Token.scan text))
  ⟨result, reader.errors⟩

def readProgram (text : Bytes) : Parsed (Option Program) :=
  readText Reading.program text

def readCommands (text : Bytes) : Parsed (List Command) :=
  readText (do Reading.block (Reading.commands (← Reading.bound)) .endOfInput) text

structure ParseFailure where
  messages : List String
deriving Repr, DecidableEq

def parse (text : Bytes) : Except ParseFailure Program :=
  let parsed := readProgram text
  match parsed.errors, parsed.result with
  | [], some program => .ok program
  | errors, _ => .error ⟨errors.map SyntaxError.message⟩

end RegisterCompiler
