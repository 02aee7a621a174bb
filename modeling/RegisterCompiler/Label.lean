/-
Jumps that wait for their target.

Constructs nest, so the label opened last is always the one resolved first.
Resolving fills the jump in with the line it leads to.
-/

import RegisterCompiler.Listing

set_option autoImplicit false

namespace RegisterCompiler

/-- What a label was opened for.  A fake label belongs to a construct that
emitted no jump.  Numbers beyond the named kinds have no name. -/
inductive LabelKind where
  | fake
  | whenTrue
  | whenFalse
  | ending
  | returning
  | unnamed (number : Nat)
deriving Repr, DecidableEq, Inhabited

namespace LabelKind

def ofNumber : Nat → LabelKind
  | 0 => fake
  | 1 => whenTrue
  | 2 => whenFalse
  | 3 => ending
  | 4 => returning
  | number => unnamed number

def name : LabelKind → String
  | fake => "fake"
  | whenTrue => "true"
  | whenFalse => "false"
  | ending => "end"
  | returning => "return"
  | unnamed number => s!"Kind({number})"

end LabelKind

structure Label where
  kind : LabelKind
  slot : Int
deriving Repr, DecidableEq, Inhabited

inductive LabelFault where
  | noneOpen (line : Int)
  | unpatched (label : Label) (cause : NoSuchLine)
deriving Repr, DecidableEq

namespace LabelFault

def message : LabelFault → String
  | noneOpen line => s!"control flow imbalance: resolve at line {line} with no open label"
  | unpatched label cause =>
      s!"resolving {label.kind.name} label at {label.slot}: {cause.message}"

def label : LabelFault → Label
  | noneOpen _ => ⟨.fake, 0⟩
  | unpatched label _ => label

end LabelFault

abbrev LabelStack := List Label

namespace LabelStack

/-- Resolves the newest label: its jump leads to `line`.  The label is closed
even if its line does not exist. -/
def resolve (stack : LabelStack) (listing : Listing) (line : Int) :
    Except LabelFault Label × LabelStack × Listing :=
  match stack with
  | [] => (.error (.noneOpen line), [], listing)
  | label :: rest =>
      if label.kind = .fake then (.ok label, rest, listing)
      else
        match listing.patch label.slot line with
        | .ok patched => (.ok label, rest, patched)
        | .error cause => (.error (.unpatched label cause), rest, listing)

end LabelStack

end RegisterCompiler
