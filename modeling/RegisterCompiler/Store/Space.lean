/-
Giving memory cells to values.

Scalars and arrays take the cells of their segment one after the other: the next
address is the first one plus the number of cells given away, and freeing takes
from that number.  Cells that are freed in another order than they were given
are not moved, so a later address may be in use, which is reported.  Loop cells
are taken where the lowest run of free addresses is long enough.
-/

import RegisterCompiler.Store

set_option autoImplicit false

namespace RegisterCompiler

namespace Space

/-- The counter of a segment, or the number of used cells of the loop segment. -/
def allocated (space : Space) : Segment → UInt64
  | .scalars => space.scalars
  | .arrays => space.arrays
  | .loop => (space.chunks.range space.layout.loop.first space.layout.loop.last).length.toUInt64
  | .oversized | .unnamed _ => 0

def next? (space : Space) (segment : Segment) : Option Address :=
  match segment with
  | .scalars =>
      if space.layout.scalars.size ≤ space.scalars then none
      else some (space.layout.scalars.first + space.scalars)
  | .arrays =>
      if space.layout.arrays.size ≤ space.arrays then none
      else some (space.layout.arrays.first + space.arrays)
  | .loop | .oversized | .unnamed _ => none

/-- The lowest start, from `start` on, of `count` free addresses in a row inside
a range.  Each round leaves a used address behind, which bounds their number. -/
def findRun (chunks : OrderedMap Address Handle) (range : AddressRange) (count : UInt64) :
    Nat → Address → Option Address
  | 0, _ => none
  | fuel + 1, start =>
      let stop := start + count - 1
      if stop ≤ range.last && start ≤ stop then
        match (chunks.range start stop).head? with
        | none => some start
        | some (clash, _) =>
            if clash = range.last then none else findRun chunks range count fuel (clash + 1)
      else none

end Space

namespace StoreAction

def recordOwner (address : Address) (handle : Handle) : StoreAction Unit := do
  match (← get).space.chunks.insert? address handle with
  | none => throw (.addressInUse address)
  | some chunks => modifySpace fun space => { space with chunks := chunks }

def dropOwner (address : Address) : StoreAction Handle := do
  match (← get).space.chunks.get? address with
  | none => throw (.unknownAddress address)
  | some handle =>
      modifySpace fun space => { space with chunks := space.chunks.erase address }
      return handle

def place (address : Address) (handle : Handle) : StoreAction Unit := do
  let found ← value handle
  let store ← get
  match found.chunk with
  | some owned => throw (.alreadyPlaced (store.arena.describe found) owned)
  | none =>
      recordOwner address handle
      modifyArena fun arena => arena.modify handle fun value =>
        { value with chunk := some address }

def unplace (address : Address) : StoreAction Unit := do
  match (← get).space.chunks.get? address with
  | none => return
  | some handle =>
      modifySpace fun space => { space with chunks := space.chunks.erase address }
      modifyArena fun arena => arena.modify handle fun value => { value with chunk := none }

/-- Gives addresses in a row to handles, or, if one cannot take its address, to
none of them. -/
def placeRun (start : Address) : Nat → List Handle → StoreAction Unit
  | _, [] => return
  | done, handle :: rest => do
      try
        place (start + done.toUInt64) handle
      catch fault =>
        for step in List.range done do
          unplace (start + step.toUInt64)
        throw fault
      placeRun start (done + 1) rest

def allocateRun (segment : Segment) (handles : List Handle) : StoreAction Address := do
  if segment ≠ .loop then
    throw (.runOutsideLoop segment)
  if handles.isEmpty then
    throw .emptyRun
  let space := (← get).space
  let range := space.layout.loop
  let rounds := space.chunks.size + 1
  match Space.findRun space.chunks range handles.length.toUInt64 rounds range.first with
  | none => throw (.noRun range handles.length)
  | some start =>
      placeRun start 0 handles
      return start

def allocateNext (segment : Segment) (range : AddressRange) (handle : Handle) :
    StoreAction Address := do
  match (← get).space.next? segment with
  | none => throw (.segmentFull segment range)
  | some address =>
      place address handle
      modifySpace fun space =>
        if segment = .arrays then { space with arrays := space.arrays + 1 }
        else { space with scalars := space.scalars + 1 }
      return address

def allocate (segment : Segment) (handle : Handle) : StoreAction Address := do
  let layout := (← get).space.layout
  match segment with
  | .loop => allocateRun .loop [handle]
  | .scalars => allocateNext .scalars layout.scalars handle
  | .arrays => allocateNext .arrays layout.arrays handle
  | .oversized | .unnamed _ => throw (.noChunks segment)

/-- Places an array.  An array that fits the array segment takes its cells there,
and the first one belongs to `head`; a longer one goes to the oversized plane and
owns no cell. -/
def allocateArray (ref : ArrayRef) (head : Handle) : StoreAction Unit := do
  let store ← get
  let info := store.arena.array ref
  let range := store.space.layout.arrays
  if info.length ≤ 0 then
    throw (.emptyArray info.name info.length)
  if info.length ≤ range.size.toNat then
    let count := info.length.toNat.toUInt64
    let left := range.size - store.space.arrays
    if left < count then
      throw (.arraysFull count.toNat left.toNat)
    let address := range.first + store.space.arrays
    place address head
    modifySpace fun space => { space with
      arrays := space.arrays + count
      heads := space.heads.set address ref }
    modifyArena fun arena => arena.modifyArray ref fun info => { info with
      base := some address.toNat
      kind := .native
      chunk := some address }
  else
    let base := store.space.layout.oversizedStart + store.space.oversized
    modifySpace fun space => { space with oversized := space.oversized + info.length.toNat }
    modifyArena fun arena => arena.modifyArray ref fun info => { info with
      base := some base
      kind := .big }

/-- Counts the cells off that an address gives back. -/
def uncount (address : Address) : StoreAction Unit := do
  let store ← get
  let space := store.space
  if space.layout.scalars.contains address then
    modifySpace fun space => { space with scalars := if 0 < space.scalars then space.scalars - 1 else 0 }
  else if space.layout.arrays.contains address then
    let head := space.heads.get? address
    let count : UInt64 :=
      match head with
      | some ref => (store.arena.array ref).length.toNat.toUInt64
      | none => 1
    if let some ref := head then
      modifyArena fun arena => arena.modifyArray ref fun info => { info with chunk := none }
    modifySpace fun space => { space with
      heads := space.heads.erase address
      arrays := if count ≤ space.arrays then space.arrays - count else 0 }

def freeAt (address : Address) : StoreAction Value := do
  match (← get).space.chunks.get? address with
  | none => throw (.unknownAddress address)
  | some handle =>
      uncount address
      unplace address
      free handle

def valueAt (address : Address) : StoreAction Value := do
  match (← get).space.chunks.get? address with
  | none => throw (.unknownAddress address)
  | some handle => value handle

/-- Gives back cells one after the other; counts those given back before a
fault. -/
def freeCells : Nat → List Address → StateM Store (Nat × Option StoreFault)
  | done, [] => return (done, none)
  | done, address :: rest => do
      match ← (freeAt address).run with
      | .ok _ => freeCells (done + 1) rest
      | .error fault => return (done, some (.loopCell address fault))

/-- Gives back all used loop cells; counts them, and those before a fault. -/
def freeLoopCells : StateM Store (Nat × Option StoreFault) := do
  let space := (← get).space
  let range := space.layout.loop
  freeCells 0 ((space.chunks.range range.first range.last).map Prod.fst)

end StoreAction

end RegisterCompiler
