/-
Reading documents in the TOML format.

A document is well-formed UTF-8 without control characters other than tabs and
newlines; a carriage return only stands in front of a newline.  It consists of
lines that name a table or give a key a value.
-/

import RegisterCompiler.Text.Utf8
import RegisterCompiler.Toml.Draft
import RegisterCompiler.Toml.Scalar

set_option autoImplicit false

namespace RegisterCompiler
namespace Toml

open Text (Bytes)

abbrev Input := List Char

/-! ### Characters -/

def isSpace (char : Char) : Bool :=
  char == ' ' || char == '\t'

def isBreak (char : Char) : Bool :=
  char == '\n' || char == '\r'

def isForbidden (char : Char) : Bool :=
  (char.toNat < 0x20 && !isSpace char && !isBreak char) || char.toNat == 0x7f

def isPlain : Input → Bool
  | [] => true
  | '\r' :: rest => rest.head? == some '\n' && isPlain rest
  | char :: rest => !isForbidden char && isPlain rest

/-! ### Gaps -/

def skipSpaces (input : Input) : Input :=
  input.dropWhile isSpace

def skipGap : Bool → Input → Input
  | _, [] => []
  | inComment, char :: rest =>
      if inComment then skipGap (char != '\n') rest
      else if isSpace char || isBreak char then skipGap false rest
      else if char == '#' then skipGap true rest
      else char :: rest

def endLine (input : Input) : Option Input :=
  match skipSpaces input with
  | [] => some []
  | '#' :: rest => some (rest.dropWhile (· != '\n')).tail
  | '\n' :: rest => some rest
  | '\r' :: '\n' :: rest => some rest
  | _ => none

/-! ### Strings -/

def charOfHex (digits : List Char) : Option Char :=
  if digits.all isHexDigit then
    let code := valueOf 16 digits
    if code.isValidChar then some (Char.ofNat code) else none
  else none

def readCode (count : Nat) (input : Input) : Option (Char × Input) :=
  if (input.take count).length = count then
    (charOfHex (input.take count)).map fun char => (char, input.drop count)
  else none

def readEscape : Input → Option (Char × Input)
  | 'b' :: rest => some ('\x08', rest)
  | 't' :: rest => some ('\t', rest)
  | 'n' :: rest => some ('\n', rest)
  | 'f' :: rest => some ('\x0c', rest)
  | 'r' :: rest => some ('\r', rest)
  | 'e' :: rest => some ('\x1b', rest)
  | '"' :: rest => some ('"', rest)
  | '\\' :: rest => some ('\\', rest)
  | 'x' :: rest => readCode 2 rest
  | 'u' :: rest => readCode 4 rest
  | 'U' :: rest => readCode 8 rest
  | _ => none

def readQuoted : Nat → Input → Option (List Char × Input)
  | 0, _ => none
  | fuel + 1, input =>
      match input with
      | [] => none
      | '"' :: rest => some ([], rest)
      | '\\' :: rest => do
          let (char, after) ← readEscape rest
          let (chars, last) ← readQuoted fuel after
          return (char :: chars, last)
      | char :: rest =>
          if char == '\n' then none
          else (readQuoted fuel rest).map fun (chars, last) => (char :: chars, last)

/-- The end of a string on several lines: of a run of three quotes or more the last
three close the string, and the ones before them belong to it, up to a number of
them. -/
def closingQuotes (quote : Char) (allowed : Nat) (input : Input) : Option (List Char × Input) :=
  let count := (input.takeWhile (· == quote)).length
  if count < 3 then none
  else
    let extra := min (count - 3) allowed
    some (List.replicate extra quote, input.drop (extra + 3))

/-- Reads the rest of a string on several lines.  Two quotes may stand in front of
the closing ones, or three right behind a backslash. -/
def readQuotedLines : Nat → Bool → Input → Option (List Char × Input)
  | 0, _, _ => none
  | fuel + 1, behindBackslash, input =>
      match closingQuotes '"' (if behindBackslash then 3 else 2) input with
      | some closed => some closed
      | none =>
          match input with
          | [] => none
          | '\\' :: rest =>
              if ((skipSpaces rest).head?.map isBreak).getD false then
                readQuotedLines fuel false (rest.dropWhile fun char => isSpace char || isBreak char)
              else do
                let (char, after) ← readEscape rest
                let (chars, last) ← readQuotedLines fuel (rest.head? == some '\\') after
                return (char :: chars, last)
          | char :: rest =>
              (readQuotedLines fuel false rest).map fun (chars, last) => (char :: chars, last)

def readLiteral (input : Input) : Option (List Char × Input) :=
  let chars := input.takeWhile fun char => char != '\'' && char != '\n'
  match input.drop chars.length with
  | '\'' :: rest => some (chars, rest)
  | _ => none

def readLiteralLines : Input → Option (List Char × Input)
  | [] => none
  | char :: rest =>
      match closingQuotes '\'' 2 (char :: rest) with
      | some closed => some closed
      | none => (readLiteralLines rest).map fun (chars, last) => (char :: chars, last)

def skipBreak : Input → Input
  | '\n' :: rest => rest
  | '\r' :: '\n' :: rest => rest
  | input => input

def readText (input : Input) : Option (String × Input) :=
  let chars : Option (List Char × Input) :=
    match input with
    | '"' :: '"' :: '"' :: rest => readQuotedLines (rest.length + 1) false (skipBreak rest)
    | '"' :: rest => readQuoted (rest.length + 1) rest
    | '\'' :: '\'' :: '\'' :: rest => readLiteralLines (skipBreak rest)
    | '\'' :: rest => readLiteral rest
    | _ => none
  chars.map fun (chars, rest) => (String.ofList chars, rest)

/-! ### Keys -/

def readKeyPart (input : Input) : Option (String × Input) :=
  match input with
  | '"' :: '"' :: '"' :: _ => none
  | '\'' :: '\'' :: '\'' :: _ => none
  | '"' :: _ => readText input
  | '\'' :: _ => readText input
  | _ =>
      let chars := input.takeWhile isKeyChar
      if chars.isEmpty then none else some (String.ofList chars, input.drop chars.length)

def readKey : Nat → Input → Option (KeyPath × Input)
  | 0, _ => none
  | fuel + 1, input => do
      let (part, rest) ← readKeyPart (skipSpaces input)
      match skipSpaces rest with
      | '.' :: more => (readKey fuel more).map fun (parts, last) => (part :: parts, last)
      | after => return ([part], after)

/-! ### Values -/

mutual

def readTerm : Nat → Input → Option (Term × Input)
  | 0, _ => none
  | fuel + 1, input =>
      match input with
      | '[' :: rest =>
          (readItems fuel (skipGap false rest)).map fun (items, last) => (.array items, last)
      | '\x7b' :: rest =>
          (readPairs fuel (skipGap false rest)).map fun (pairs, last) => (.table pairs, last)
      | '"' :: _ => (readText input).map fun (text, last) => (.scalar (.text text), last)
      | '\'' :: _ => (readText input).map fun (text, last) => (.scalar (.text text), last)
      | _ =>
          let chars := scalarChars input
          (scalarOf chars).map fun scalar => (.scalar scalar, input.drop chars.length)

def readItems : Nat → Input → Option (List Term × Input)
  | 0, _ => none
  | fuel + 1, input =>
      match input with
      | ']' :: rest => some ([], rest)
      | _ => do
          let (term, after) ← readTerm fuel input
          match skipGap false after with
          | ',' :: rest =>
              let (terms, last) ← readItems fuel (skipGap false rest)
              return (term :: terms, last)
          | ']' :: rest => return ([term], rest)
          | _ => none

def readPairs : Nat → Input → Option (List (KeyPath × Term) × Input)
  | 0, _ => none
  | fuel + 1, input =>
      match input with
      | '\x7d' :: rest => some ([], rest)
      | _ => do
          let (path, after) ← readKey (input.length + 1) input
          match after with
          | '=' :: rest =>
              let (term, behind) ← readTerm fuel (skipSpaces rest)
              match skipGap false behind with
              | ',' :: more =>
                  let (pairs, last) ← readPairs fuel (skipGap false more)
                  return ((path, term) :: pairs, last)
              | '\x7d' :: more => return ([(path, term)], more)
              | _ => none
          | _ => none

end

/-! ### Documents -/

def readStatement (input : Input) : Option (Statement × Input) :=
  let fuel := input.length + 1
  match input with
  | '[' :: '[' :: rest => do
      let (path, after) ← readKey fuel rest
      match after with
      | ']' :: ']' :: last => return (.tables path, last)
      | _ => none
  | '[' :: rest => do
      let (path, after) ← readKey fuel rest
      match after with
      | ']' :: last => return (.table path, last)
      | _ => none
  | _ => do
      let (path, after) ← readKey fuel input
      match after with
      | '=' :: rest =>
          let (term, last) ← readTerm (fuel + fuel) (skipSpaces rest)
          return (.assignment path term, last)
      | _ => none

def readStatements : Nat → Input → Option (List Statement)
  | 0, _ => none
  | fuel + 1, input =>
      match skipGap false input with
      | [] => some []
      | start => do
          let (statement, after) ← readStatement start
          let rest ← endLine after
          let statements ← readStatements fuel rest
          return statement :: statements

/-- A document without the mark at its start that may say how it is encoded. -/
def skipMark : Bytes → Bytes
  | 0xef :: 0xbb :: 0xbf :: rest => rest
  | 0xff :: 0xfe :: rest => rest
  | 0xfe :: 0xff :: rest => rest
  | bytes => bytes

def parse (bytes : Bytes) : Option (List (String × Value)) := do
  let text ← Text.decode? (skipMark bytes)
  let input := text.toList
  if isPlain input then
    let statements ← readStatements (input.length + 1) input
    tableOf statements
  else none

end Toml
end RegisterCompiler
