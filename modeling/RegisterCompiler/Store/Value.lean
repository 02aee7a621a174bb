/-
Values known while a program is compiled.

A value is a constant, a plain variable or an array element.  It may be bound to
a register and may own a memory cell.  Arrays are described apart from their
elements.
-/

import RegisterCompiler.Layout

set_option autoImplicit false

namespace RegisterCompiler

/-- Refers to a value.  The generation tells the values apart that used the same
slot; no value has generation zero. -/
structure Handle where
  index : Nat
  generation : Nat
deriving Repr, DecidableEq, Inhabited

namespace Handle

def nil : Handle := ⟨0, 0⟩

def isNil (handle : Handle) : Bool :=
  handle.generation == 0

def text (handle : Handle) : String :=
  if handle.isNil then "v<nil>" else s!"v{handle.index}.{handle.generation}"

end Handle

abbrev ArrayRef := Nat

/-- A variable.  While it is not symbolic its current value may be known; the
expression tells where a symbolic value came from. -/
structure PlainVariable where
  name : String
  current : Option Int
  expression : String
  symbolic : Bool
  big : Bool
deriving Repr, DecidableEq, Inhabited

namespace PlainVariable

def unknown (name : String) : PlainVariable :=
  ⟨name, none, "", true, false⟩

end PlainVariable

/-- An access to an array: at an offset, or through a variable when `index` names
one.  The slot carries what is known about the cell. -/
structure ArrayElement where
  slot : Option PlainVariable
  offset : Option Int
  index : Option String
  array : Option ArrayRef
deriving Repr, DecidableEq, Inhabited

inductive Payload where
  | constant (value : Int)
  | plain (scalar : PlainVariable)
  | element (element : ArrayElement)
  | missing
deriving Repr, DecidableEq, Inhabited

structure Value where
  payload : Payload
  register : Option Int
  chunk : Option Address
deriving Repr, DecidableEq, Inhabited

namespace Value

def ofPayload (payload : Payload) : Value :=
  ⟨payload, none, none⟩

/-- Whether a constant needs more than 64 bits or a sign. -/
def isBigConstant (value : Int) : Bool :=
  value < 0 || UInt64.size ≤ value

def kind? (value : Value) : Option String :=
  match value.payload with
  | .constant _ => some "const"
  | .plain _ | .element _ => some "variable"
  | .missing => none

def constant? (value : Value) : Option Int :=
  match value.payload with
  | .constant constant => some constant
  | _ => none

def element? (value : Value) : Option ArrayElement :=
  match value.payload with
  | .element element => some element
  | _ => none

/-- The variable that carries what is known about a value. -/
def plain? (value : Value) : Option PlainVariable :=
  match value.payload with
  | .plain scalar => some scalar
  | .element element => element.slot
  | _ => none

/-- Changes what is known about a value; nothing is known about constants. -/
def mapPlain (value : Value) (change : PlainVariable → PlainVariable) : Value :=
  match value.payload with
  | .plain scalar => { value with payload := .plain (change scalar) }
  | .element element =>
      { value with payload := .element { element with slot := element.slot.map change } }
  | _ => value

def isBig (value : Value) : Bool :=
  (value.plain?.map PlainVariable.big).getD false

def isSymbolic (value : Value) : Bool :=
  (value.plain?.map PlainVariable.symbolic).getD false

def expression (value : Value) : String :=
  (value.plain?.map PlainVariable.expression).getD ""

def markSymbolic (value : Value) : Value :=
  value.mapPlain fun scalar => { scalar with symbolic := true }

def markKnown (value : Value) : Value :=
  value.mapPlain fun scalar => { scalar with symbolic := false }

def extendExpression (value : Value) (text : String) : Value :=
  value.mapPlain fun scalar => { scalar with expression := scalar.expression ++ text }

def forgetExpression (value : Value) : Value :=
  value.mapPlain fun scalar => { scalar with symbolic := false, expression := "" }

def setBig (value : Value) (big : Bool) : Value :=
  value.mapPlain fun scalar => { scalar with big := big }

def setCurrent (value : Value) (current : Option Int) : Value :=
  value.mapPlain fun scalar => { scalar with current := current }

/-- Binds a value to a register; the register -1 stands for none. -/
def noteRegister (value : Value) (register : Int) : Value :=
  { value with register := if register = -1 then none else some register }

end Value

def payloadKindName : Nat → String
  | 0 => "const"
  | 1 => "variable"
  | number => s!"Kind({number})"

/-- Whether the cells of an array have 64-bit addresses. -/
inductive ArrayKind where
  | native
  | big
deriving Repr, DecidableEq, Inhabited

namespace ArrayKind

def name : ArrayKind → String
  | native => "native"
  | big => "big"

end ArrayKind

/-- A declared array: where it starts once it is placed, the cell that holds its
head, and the elements at fixed offsets in the order of their first use. -/
structure ArrayInfo where
  name : String
  length : Int
  base : Option Nat
  kind : ArrayKind
  elements : List Handle
  chunk : Option Address
deriving Repr, DecidableEq, Inhabited

namespace ArrayInfo

def unplaced (name : String) (length : Int) : ArrayInfo :=
  ⟨name, length, none, .native, [], none⟩

def inRange (info : ArrayInfo) (offset : Int) : Bool :=
  0 ≤ offset && offset < info.length

def newSlot (info : ArrayInfo) (label : String) : PlainVariable :=
  { PlainVariable.unknown s!"{info.name}[{label}]" with big := info.kind = .big }

end ArrayInfo

end RegisterCompiler
