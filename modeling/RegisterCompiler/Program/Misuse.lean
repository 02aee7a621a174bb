/-
Ways a well-formed program misuses its names.
-/

import RegisterCompiler.Source.Position

set_option autoImplicit false

namespace RegisterCompiler

open Source (Position)

inductive Misuse where
  | declaredTwice (name : String)
  | emptyArray (name : String)
  | undeclared (name : String)
  | notArray (name : String)
  | missingIndex (name : String)
  | indexOutOfRange (index : Nat) (name : String) (length : Int)
  | iteratorRedeclares (name : String)
  | iteratorTaken (name : String)
  | iteratorAssigned (name : String)
  | iteratorIndexed (name : String)
  | noCell (name : String)
deriving Repr, DecidableEq

namespace Misuse

def message : Misuse → String
  | declaredTwice name => s!"'{name}' declared twice"
  | emptyArray name => s!"array '{name}' has length 0"
  | undeclared name => s!"undeclared identifier '{name}'"
  | notArray name => s!"'{name}' is not an array"
  | missingIndex name => s!"array '{name}' used without an index"
  | indexOutOfRange index name length => s!"index {index} out of range for '{name}[{length}]'"
  | iteratorRedeclares name => s!"loop variable '{name}' redeclares an existing name"
  | iteratorTaken name => s!"loop variable '{name}' redeclares a name"
  | iteratorAssigned name => s!"cannot assign to loop variable '{name}'"
  | iteratorIndexed name => s!"loop variable '{name}' is not an array"
  | noCell name => s!"'{name}' has no memory cell"

end Misuse

structure Complaint where
  position : Position
  misuse : Misuse
deriving Repr, DecidableEq

namespace Complaint

def message (complaint : Complaint) : String :=
  s!"line {complaint.position.line}, column {complaint.position.column}: {complaint.misuse.message}"

end Complaint

end RegisterCompiler
