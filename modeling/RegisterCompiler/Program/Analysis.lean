/-
Checking the names of a program.

The check runs through the program in the order of its text.  It knows the
declarations and the variables of the enclosing counting loops, complains about
every misuse, and warns about scalars that are read but never assigned.
-/

import RegisterCompiler.Program
import RegisterCompiler.Program.Misuse

set_option autoImplicit false

namespace RegisterCompiler

open Source (Position Span)

structure Analysis where
  declared : List Declaration
  iterators : List String
  assigned : List String
  firstReads : List (String × Position)
  complaints : List Complaint
deriving Repr

namespace Analysis

def empty : Analysis := ⟨[], [], [], [], []⟩

def declaration? (analysis : Analysis) (name : String) : Option Declaration :=
  analysis.declared.find? fun declaration => declaration.name == name

def isIterator (analysis : Analysis) (name : String) : Bool :=
  analysis.iterators.contains name

def complain (analysis : Analysis) (span : Span) (misuse : Misuse) : Analysis :=
  { analysis with complaints := analysis.complaints ++ [⟨span.first, misuse⟩] }

def noteRead (analysis : Analysis) (name : String) (span : Span) : Analysis :=
  if analysis.firstReads.any fun read => read.1 == name then analysis
  else { analysis with firstReads := analysis.firstReads ++ [(name, span.first)] }

def noteAssigned (analysis : Analysis) (name : String) : Analysis :=
  { analysis with assigned := name :: analysis.assigned }

def declare (analysis : Analysis) (declaration : Declaration) : Analysis :=
  if (analysis.declaration? declaration.name).isSome then
    analysis.complain declaration.span (.declaredTwice declaration.name)
  else
    let checked :=
      if declaration.length = some 0 then
        analysis.complain declaration.span (.emptyArray declaration.name)
      else analysis
    { checked with declared := checked.declared ++ [declaration] }

def plainMisuse? (analysis : Analysis) (name : String) : Option Misuse :=
  if analysis.isIterator name then none
  else
    match analysis.declaration? name with
    | none => some (.undeclared name)
    | some declaration => if declaration.isArray then some (.missingIndex name) else none

/-- Checks a reference.  Says whether it names a cell, and records the misuse
when it does not; a name used as an index counts as read. -/
def checkReference (analysis : Analysis) (reference : Reference) : Bool × Analysis :=
  match reference.index with
  | none =>
      match analysis.plainMisuse? reference.name with
      | some misuse => (false, analysis.complain reference.span misuse)
      | none => (true, analysis)
  | some index =>
      if analysis.isIterator reference.name then
        (false, analysis.complain reference.span (.iteratorIndexed reference.name))
      else
        match analysis.declaration? reference.name with
        | none => (false, analysis.complain reference.span (.undeclared reference.name))
        | some declaration =>
            match declaration.length with
            | none => (false, analysis.complain reference.span (.notArray reference.name))
            | some length =>
                match index with
                | .number _ value =>
                    if length ≤ value then
                      (false, analysis.complain reference.span
                        (.indexOutOfRange value reference.name length))
                    else (true, analysis)
                | .name span name =>
                    match analysis.plainMisuse? name with
                    | some misuse => (false, analysis.complain span misuse)
                    | none => (true, analysis.noteRead name span)

def checkTarget (analysis : Analysis) (target : Reference) : Analysis :=
  if !target.isElement && analysis.isIterator target.name then
    analysis.complain target.span (.iteratorAssigned target.name)
  else
    let (isCell, checked) := analysis.checkReference target
    if isCell && !target.isElement then checked.noteAssigned target.name else checked

def checkAtom (analysis : Analysis) : Atom → Analysis
  | .number _ _ => analysis
  | .reference cell =>
      let (_, checked) := analysis.checkReference cell
      if cell.isElement then checked else checked.noteRead cell.name cell.span

def checkExpression (analysis : Analysis) : Expression → Analysis
  | .atom _ value => analysis.checkAtom value
  | .operation _ left _ right => (analysis.checkAtom left).checkAtom right

def checkCondition (analysis : Analysis) (condition : Condition) : Analysis :=
  (analysis.checkAtom condition.left).checkAtom condition.right

def enterLoop (analysis : Analysis) (span : Span) (iterator : String) : Analysis :=
  let checked :=
    if (analysis.declaration? iterator).isSome || analysis.isIterator iterator then
      analysis.complain span (.iteratorRedeclares iterator)
    else analysis
  { checked with iterators := iterator :: checked.iterators }

def leaveLoop (analysis : Analysis) : Analysis :=
  { analysis with iterators := analysis.iterators.tail }

mutual

def checkCommand (analysis : Analysis) : Command → Analysis
  | .assign _ target value => (analysis.checkExpression value).checkTarget target
  | .read _ target => analysis.checkTarget target
  | .write _ value => analysis.checkAtom value
  | .skip _ => analysis
  | .ifThen _ condition body => checkCommands (analysis.checkCondition condition) body
  | .ifElse _ condition body orElse =>
      checkCommands (checkCommands (analysis.checkCondition condition) body) orElse
  | .whileLoop _ condition body => checkCommands (analysis.checkCondition condition) body
  | .forLoop span iterator first last _ body =>
      let entered := ((analysis.checkAtom first).checkAtom last).enterLoop span iterator
      (checkCommands entered body).leaveLoop

def checkCommands (analysis : Analysis) : List Command → Analysis
  | [] => analysis
  | command :: rest => checkCommands (checkCommand analysis command) rest

end

end Analysis

/-- A scalar that is read, first at the given place, but never assigned. -/
structure UnassignedRead where
  position : Position
  name : String
deriving Repr, DecidableEq

namespace UnassignedRead

def message (warning : UnassignedRead) : String :=
  let position := warning.position
  s!"warning: line {position.line}, column {position.column}: '{warning.name}' is read but never assigned"

end UnassignedRead

structure Findings where
  complaints : List Complaint
  warnings : List UnassignedRead
deriving Repr, DecidableEq

/-- The warnings due after the whole program was checked, in the order of the
declarations. -/
def Analysis.warnings (analysis : Analysis) (declarations : List Declaration) :
    List UnassignedRead :=
  declarations.filterMap fun declaration =>
    if declaration.isArray || analysis.assigned.contains declaration.name then none
    else (analysis.firstReads.lookup declaration.name).map (⟨·, declaration.name⟩)

def analyze (program : Program) : Findings :=
  let declared := program.declarations.foldl Analysis.declare Analysis.empty
  let checked := declared.checkCommands program.body
  ⟨checked.complaints, checked.warnings program.declarations⟩

end RegisterCompiler
