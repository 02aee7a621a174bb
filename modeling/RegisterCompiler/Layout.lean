/-
The address space of the target machine and its segments.

Three segments of 64-bit addresses hold loop scratch, scalars and arrays, in this
order; above them all starts the plane for arrays that are too long for their
segment.
-/

set_option autoImplicit false

namespace RegisterCompiler

abbrev Address := UInt64

/-- The segments.  Numbers beyond the four have no name. -/
inductive Segment where
  | loop
  | scalars
  | arrays
  | oversized
  | unnamed (number : Nat)
deriving Repr, DecidableEq, Inhabited

namespace Segment

def ofNumber : Nat → Segment
  | 0 => loop
  | 1 => scalars
  | 2 => arrays
  | 3 => oversized
  | number => unnamed number

def name : Segment → String
  | loop => "loop"
  | scalars => "scalars"
  | arrays => "arrays"
  | oversized => "oversized"
  | unnamed number => s!"Segment({number})"

end Segment

/-- The addresses from the first to the last, both included. -/
structure AddressRange where
  first : Address
  last : Address
deriving Repr, DecidableEq, Inhabited

namespace AddressRange

/-- The number of addresses, modulo 2^64. -/
def size (range : AddressRange) : UInt64 :=
  range.last - range.first + 1

def contains (range : AddressRange) (address : Address) : Bool :=
  range.first ≤ address && address ≤ range.last

def isEmpty (range : AddressRange) : Bool :=
  range.last < range.first

def text (range : AddressRange) : String :=
  s!"[{range.first.toNat}, {range.last.toNat}]"

end AddressRange

structure Layout where
  loop : AddressRange
  scalars : AddressRange
  arrays : AddressRange
  oversizedBase : Option Int
deriving Repr, DecidableEq, Inhabited

inductive LayoutFault where
  | emptySegment (segment : Segment) (range : AddressRange)
  | overlap (segment previous : Segment)
  | missingBase
  | lowBase (base : Int)
deriving Repr, DecidableEq

namespace LayoutFault

def message : LayoutFault → String
  | emptySegment segment range =>
      s!"invalid memory layout: {segment.name} segment {range.text} is empty"
  | overlap segment previous =>
      s!"invalid memory layout: {segment.name} segment overlaps or precedes {previous.name}"
  | missingBase => "invalid memory layout: missing oversized base"
  | lowBase base =>
      s!"invalid memory layout: oversized base {base} is not above the arrays segment"

end LayoutFault

namespace Layout

/-- The layout used when nothing else is asked for: 4096 loop cells, scalars up
to 2^20, arrays up to 2^62, the oversized plane from 2^64 on. -/
def standard : Layout where
  loop := ⟨0, 4095⟩
  scalars := ⟨4096, 1048575⟩
  arrays := ⟨1048576, 4611686018427387903⟩
  oversizedBase := some 18446744073709551616

def fault? (layout : Layout) : Option LayoutFault :=
  if layout.loop.isEmpty then some (.emptySegment .loop layout.loop)
  else if layout.scalars.isEmpty then some (.emptySegment .scalars layout.scalars)
  else if layout.scalars.first ≤ layout.loop.last then some (.overlap .scalars .loop)
  else if layout.arrays.isEmpty then some (.emptySegment .arrays layout.arrays)
  else if layout.arrays.first ≤ layout.scalars.last then some (.overlap .arrays .scalars)
  else
    match layout.oversizedBase with
    | none => some .missingBase
    | some base => if base ≤ (layout.arrays.last.toNat : Int) then some (.lowBase base) else none

def isValid (layout : Layout) : Bool :=
  layout.fault?.isNone

def oversizedStart (layout : Layout) : Nat :=
  (layout.oversizedBase.getD 0).toNat

def range? (layout : Layout) : Segment → Option AddressRange
  | .loop => some layout.loop
  | .scalars => some layout.scalars
  | .arrays => some layout.arrays
  | .oversized | .unnamed _ => none

/-- The segment an address lies in, when the oversized plane starts at `base`. -/
def classifyAbove (layout : Layout) (base address : Int) : Option Segment :=
  if address < 0 then none
  else if base ≤ address then some .oversized
  else if UInt64.size ≤ address then none
  else
    let word := address.toNat.toUInt64
    if layout.loop.contains word then some .loop
    else if layout.scalars.contains word then some .scalars
    else if layout.arrays.contains word then some .arrays
    else none

def classify (layout : Layout) (address : Int) : Option Segment :=
  layout.oversizedBase.bind fun base => layout.classifyAbove base address

end Layout

end RegisterCompiler
