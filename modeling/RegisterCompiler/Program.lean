/-
Programs of the source language.

A program declares scalars and arrays and has a list of commands.  Each part
carries the stretch of text it was read from.  An index of an array element is a
number or a plain name, never an element itself.
-/

import RegisterCompiler.Arithmetic
import RegisterCompiler.Source.Position

set_option autoImplicit false

namespace RegisterCompiler

open Source (Span)

inductive Index where
  | number (span : Span) (value : Nat)
  | name (span : Span) (name : String)
deriving Repr, DecidableEq

structure Reference where
  span : Span
  name : String
  index : Option Index
deriving Repr, DecidableEq

namespace Reference

def isElement (reference : Reference) : Bool :=
  reference.index.isSome

def text (reference : Reference) : String :=
  match reference.index with
  | none => reference.name
  | some (.number _ value) => s!"{reference.name}[{value}]"
  | some (.name _ name) => s!"{reference.name}[{name}]"

def sameCell (left right : Reference) : Bool :=
  left.name == right.name &&
    match left.index, right.index with
    | none, none => true
    | some (.number _ leftValue), some (.number _ rightValue) => leftValue == rightValue
    | some (.name _ leftName), some (.name _ rightName) => leftName == rightName
    | _, _ => false

end Reference

inductive Atom where
  | number (span : Span) (value : Nat)
  | reference (cell : Reference)
deriving Repr, DecidableEq

namespace Atom

def span : Atom → Span
  | number span _ => span
  | reference cell => cell.span

def number? : Atom → Option Nat
  | number _ value => some value
  | reference _ => none

def isNumber (atom : Atom) (value : Nat) : Bool :=
  atom.number? == some value

def text : Atom → String
  | number _ value => toString value
  | reference cell => cell.text

def sameCell : Atom → Atom → Bool
  | reference left, reference right => left.sameCell right
  | _, _ => false

end Atom

inductive Expression where
  | atom (span : Span) (value : Atom)
  | operation (span : Span) (left : Atom) (operator : Operator) (right : Atom)
deriving Repr, DecidableEq

namespace Expression

def span : Expression → Span
  | atom span _ => span
  | operation span _ _ _ => span

def text : Expression → String
  | atom _ value => value.text
  | operation _ left operator right => s!"{left.text} {operator.text} {right.text}"

end Expression

structure Condition where
  span : Span
  left : Atom
  relation : Relation
  right : Atom
deriving Repr, DecidableEq

namespace Condition

def static? (condition : Condition) : Option Bool :=
  match condition.left, condition.right with
  | .number _ left, .number _ right => some (condition.relation.holds left right)
  | _, _ => none

end Condition

inductive Direction where
  | up
  | down
deriving Repr, DecidableEq

/-- The commands.  A conditional without an ELSE part is a command of its own,
distinct from one whose ELSE part is empty. -/
inductive Command where
  | assign (span : Span) (target : Reference) (value : Expression)
  | read (span : Span) (target : Reference)
  | write (span : Span) (value : Atom)
  | skip (span : Span)
  | ifThen (span : Span) (condition : Condition) (body : List Command)
  | ifElse (span : Span) (condition : Condition) (body orElse : List Command)
  | whileLoop (span : Span) (condition : Condition) (body : List Command)
  | forLoop (span : Span) (iterator : String) (first last : Atom) (direction : Direction)
      (body : List Command)
deriving Repr

namespace Command

def span : Command → Span
  | assign span _ _ => span
  | read span _ => span
  | write span _ => span
  | skip span => span
  | ifThen span _ _ => span
  | ifElse span _ _ _ => span
  | whileLoop span _ _ => span
  | forLoop span _ _ _ _ _ => span

mutual

/-- A command and the commands inside it, in the order of the text; the inside
of a command is left out where `enter` refuses it. -/
def visit (enter : Command → Bool) : Command → List Command
  | .ifThen span condition body =>
      let here := Command.ifThen span condition body
      here :: if enter here then visitAll enter body else []
  | .ifElse span condition body orElse =>
      let here := Command.ifElse span condition body orElse
      here :: if enter here then visitAll enter body ++ visitAll enter orElse else []
  | .whileLoop span condition body =>
      let here := Command.whileLoop span condition body
      here :: if enter here then visitAll enter body else []
  | .forLoop span iterator first last direction body =>
      let here := Command.forLoop span iterator first last direction body
      here :: if enter here then visitAll enter body else []
  | .assign span target value => [.assign span target value]
  | .read span target => [.read span target]
  | .write span value => [.write span value]
  | .skip span => [.skip span]

def visitAll (enter : Command → Bool) : List Command → List Command
  | [] => []
  | command :: rest => visit enter command ++ visitAll enter rest

end

end Command

structure Declaration where
  span : Span
  name : String
  length : Option Nat
deriving Repr, DecidableEq

namespace Declaration

def isArray (declaration : Declaration) : Bool :=
  declaration.length.isSome

end Declaration

structure Program where
  span : Span
  declarations : List Declaration
  body : List Command
deriving Repr

end RegisterCompiler
