/-
What names and cells read on a machine.

The number of a name is in its memory cell if the cell is up to date, and in the register that
caches the name if not.  Where what is known about the pointer and the registers is right about
a machine, the machine shows the picture that is read off it, and a step of code generation
that keeps the picture keeps every reading.
-/

import RegisterCompiler.Proofs.Generator.Arrivals
import RegisterCompiler.Proofs.Machine.Silence

set_option autoImplicit false

namespace RegisterCompiler

/-! ### Names -/

theorem SymbolTable.isFresh_eq {table : SymbolTable} {name : String} {entry : SymbolEntry}
    (hEntry : table.lookup? name = some entry) : table.isFresh name = entry.fresh := by
  rw [isFresh, hEntry, Option.map_some, Option.getD_some]

namespace Store

/-- The number of a name on a machine: that of its memory cell if the cell is up to date, that
of its register if not. -/
def reading? (store : Store) (machine : Machine) (name : String) : Option Nat := do
  let entry ← store.symbols.lookup? name
  let handle ← entry.handle?
  let value ← store.arena.get? handle
  if entry.fresh then
    let address ← value.chunk
    machine.memory[address.toNat]?
  else
    let register ← value.register
    machine.register? register

variable {store : Store} {machine : Machine} {name : String} {kind : SymbolKind}
  {handle : Handle} {address : Address}

theorem exists_of_cell? (hCell : store.setting.cell? name = some (kind, handle, address)) :
    ∃ entry value, store.symbols.lookup? name = some entry ∧ entry.binding = .value handle ∧
      store.arena.get? handle = some value ∧ value.chunk = some address := by
  rcases Setting.cell?_eq_some_iff.mp hCell with ⟨hDeclared, hChunk⟩
  rcases Option.map_eq_some_iff.mp hDeclared with ⟨entry, hEntry, hPair⟩
  rcases Option.bind_eq_some_iff.mp hChunk with ⟨value, hValue, hPlace⟩
  exact ⟨entry, value, hEntry, (Prod.mk.inj hPair).2, hValue, hPlace⟩

private theorem Linked.register_eq (hLinked : store.Linked) {register : Int} {value : Value}
    (hOccupant : store.occupant? register = some handle)
    (hValue : store.arena.get? handle = some value) : value.register = some register := by
  rcases (hLinked.occupants register handle).mp hOccupant with ⟨found, hFound, hRegister⟩
  rw [hValue] at hFound
  rw [Option.some.inj hFound]
  exact hRegister

theorem reading?_of_isFresh (hCell : store.setting.cell? name = some (kind, handle, address))
    (hFresh : store.symbols.isFresh name = true) :
    store.reading? machine name = machine.memory[address.toNat]? := by
  rcases exists_of_cell? hCell with ⟨entry, value, hEntry, hBinding, hValue, hChunk⟩
  rw [SymbolTable.isFresh_eq hEntry] at hFresh
  simp [reading?, hEntry, SymbolEntry.handle?, hBinding, hValue, hFresh, hChunk]

theorem reading?_of_occupant (hLinked : store.Linked)
    (hCell : store.setting.cell? name = some (kind, handle, address))
    (hStale : store.symbols.isFresh name = false) {register : Int}
    (hOccupant : store.occupant? register = some handle) :
    store.reading? machine name = machine.register? register := by
  rcases exists_of_cell? hCell with ⟨entry, value, hEntry, hBinding, hValue, -⟩
  rw [SymbolTable.isFresh_eq hEntry] at hStale
  simp [reading?, hEntry, SymbolEntry.handle?, hBinding, hValue, hStale,
    hLinked.register_eq hOccupant hValue]

private theorem exists_cell?_of_reading? (hLinked : store.Linked) {number : Nat}
    (hReading : store.reading? machine name = some number) :
    ∃ kind handle address, store.setting.cell? name = some (kind, handle, address) := by
  rcases Option.bind_eq_some_iff.mp hReading with ⟨entry, hEntry, hRest⟩
  rcases Option.bind_eq_some_iff.mp hRest with ⟨handle, hHandle, -⟩
  have hBinding : entry.binding = .value handle := by
    unfold SymbolEntry.handle? at hHandle
    split at hHandle
    · rename_i hBinding
      rw [hBinding, Option.some.inj hHandle]
    · contradiction
  have hDeclared : store.setting.declared name = some (entry.kind, .value handle) := by
    simp only [setting, hEntry, Option.map_some, hBinding]
  rcases hLinked.cell?_of_declared hDeclared with ⟨address, hCell, -⟩
  exact ⟨_, _, _, hCell⟩

private theorem Linked.cell?_of_nameOf (hLinked : store.Linked)
    (hName : store.setting.nameOf handle = some name) :
    ∃ kind address, store.setting.cell? name = some (kind, handle, address) := by
  rcases hLinked.names handle name hName with ⟨kind, hDeclared⟩
  rcases hLinked.cell?_of_declared hDeclared with ⟨address, hCell, -⟩
  exact ⟨kind, address, hCell⟩

theorem Sound.occupant_of_stale (hSound : store.Sound)
    (hCell : store.setting.cell? name = some (kind, handle, address))
    (hStale : store.symbols.isFresh name = false) :
    ∃ register, store.occupant? register = some handle := by
  rcases exists_of_cell? hCell with ⟨entry, value, hEntry, hBinding, -, -⟩
  rw [SymbolTable.isFresh_eq hEntry] at hStale
  rcases hSound.stale name entry hEntry hStale with ⟨found, register, hFound, hOccupant⟩
  rw [hBinding] at hFound
  cases hFound
  exact ⟨register, hOccupant⟩

end Store

/-- A name that is cached and up to date has one number in both places. -/
theorem Emission.Agrees.mirror {emission : Emission} {machine : Machine}
    (hAgrees : emission.Agrees machine) (hLinked : emission.store.Linked) {register : Int}
    {handle : Handle} {name : String} {kind : SymbolKind} {address : Address}
    (hOccupant : emission.store.occupant? register = some handle)
    (hCell : emission.store.setting.cell? name = some (kind, handle, address))
    (hFresh : emission.store.symbols.isFresh name = true) :
    ∃ number, machine.memory[address.toNat]? = some number ∧
      machine.register? register = some number := by
  rcases Store.exists_of_cell? hCell with ⟨entry, value, hEntry, hBinding, hValue, hChunk⟩
  rw [SymbolTable.isFresh_eq hEntry] at hFresh
  rcases hAgrees.cached name entry handle value register hEntry hFresh hBinding hValue
    (hLinked.register_eq hOccupant hValue) with ⟨place, number, hPlace, hMemory, hRead⟩
  rw [hChunk] at hPlace
  rw [← Option.some.inj hPlace] at hMemory
  exact ⟨number, hMemory, hRead⟩

namespace Context

/-! ### Pictures of machines -/

/-- The picture of a machine: the numbers its names read, and those of the cells of arrays and
of the loop cells in use. -/
def view (context : Context) (machine : Machine) : Picture where
  scalar := context.store.reading? machine
  cell := fun address => machine.memory[address]?
  scratch := fun address =>
    if address.toNat < context.setting.arraysStart ∧
        (context.setting.owner address).map context.setting.nameOf = some none then
      machine.memory[address.toNat]?
    else none
  held := fun _ => none
  input := machine.input
  output := machine.output.toList

/-- The names, the cells of arrays and the loop cells in use have the numbers on a later machine
that they had on an earlier one, and nothing was got or put. -/
structure Preserves (before after : Context) (machine last : Machine) : Prop where
  names : ∀ name value, before.store.reading? machine name = some value →
    after.store.reading? last name = some value
  elements : ∀ address value, before.setting.arraysStart ≤ address →
    machine.memory[address]? = some value → last.memory[address]? = some value
  scratch : ∀ address value, before.setting.IsScratch address →
    machine.memory[address.toNat]? = some value → last.memory[address.toNat]? = some value
  input : last.input = machine.input
  output : last.output = machine.output
  sink : last.sink = machine.sink

variable {context before after : Context} {machine last : Machine}

private theorem view_scratch_eq_some_iff {address : Address} {value : Nat} :
    (context.view machine).scratch address = some value ↔
      context.setting.IsScratch address ∧ machine.memory[address.toNat]? = some value := by
  have hOwned : (context.setting.owner address).map context.setting.nameOf = some none ↔
      ∃ handle, context.setting.owner address = some handle ∧
        context.setting.nameOf handle = none := Option.map_eq_some_iff
  simp only [view, Option.ite_none_right_eq_some, Setting.IsScratch, hOwned]

/-- A machine about which all that is known is right shows what is read off it. -/
theorem shows_view (hSound : context.Sound) (hAgrees : context.emission.Agrees machine) :
    context.Shows (context.view machine) machine.snapshot where
  pointer := by
    intro place hPlace
    have hZero := hAgrees.pointer place hPlace
    simp only [Snapshot.pointer, Machine.snapshot, hZero, Option.getD_some]
  memory := by
    intro name kind handle address value hCell hFresh hValue
    have hReading : context.store.reading? machine name = some value := hValue
    rw [Store.reading?_of_isFresh hCell hFresh] at hReading
    exact hReading
  cache := by
    intro register handle name value hOccupant hName hValue
    have hLinked := hSound.store.toLinked
    have hReading : context.store.reading? machine name = some value := hValue
    rcases hLinked.cell?_of_nameOf hName with ⟨kind, address, hCell⟩
    have hRead : machine.register? register = some value := by
      cases hFresh : context.store.symbols.isFresh name with
      | true =>
          rcases hAgrees.mirror hLinked hOccupant hCell hFresh with ⟨number, hMemory, hRead⟩
          rw [Store.reading?_of_isFresh hCell hFresh, hMemory] at hReading
          rw [hRead, hReading]
      | false =>
          rw [Store.reading?_of_occupant hLinked hCell hFresh hOccupant] at hReading
          exact hReading
    simp only [Machine.snapshot, hRead, Option.getD_some]
  mirror := by
    intro register handle name kind address hOccupant hCell hFresh
    rcases hAgrees.mirror hSound.store.toLinked hOccupant hCell hFresh with
      ⟨number, hMemory, hRead⟩
    simp only [Machine.snapshot, hMemory, hRead, Option.getD_some]
  cells := fun _ _ _ hValue => hValue
  scratch := fun _ _ hValue => view_scratch_eq_some_iff.mp hValue
  held := fun _ _ hNone => absurd hNone nofun
  input := rfl
  output := rfl

/-- What a name that a picture speaks of reads on a machine that shows the picture. -/
theorem reading?_of_coherent (hSound : context.Sound) {pointer : Option Nat} {picture : Picture}
    {snapshot : Snapshot} (hCoherent : Coherent context.store pointer picture snapshot)
    (hMatches : machine.Matches snapshot)
    (hEnough : context.options.registers ≤ machine.registers.size) {name : String}
    {kind : SymbolKind} {handle : Handle} {address : Address}
    (hCell : context.setting.cell? name = some (kind, handle, address)) {value : Nat}
    (hValue : picture.scalar name = some value) :
    context.store.reading? machine name = some value := by
  have hLinked := hSound.store.toLinked
  cases hFresh : context.store.symbols.isFresh name with
  | true =>
      rw [Store.reading?_of_isFresh hCell hFresh, hMatches.memory?]
      exact hCoherent.memory name kind handle address value hCell hFresh hValue
  | false =>
      rcases hSound.store.occupant_of_stale hCell hFresh with ⟨register, hOccupant⟩
      rcases hLinked.allocatable_of_occupant? hOccupant with ⟨hLow, hHigh⟩
      rw [hSound.size] at hHigh
      have hName := (hLinked.cells name kind handle (Setting.cell?_eq_some_iff.mp hCell).1).1
      rw [Store.reading?_of_occupant hLinked hCell hFresh hOccupant,
        hMatches.register? (Int.le_of_lt hLow) (Int.lt_of_lt_of_le hHigh hEnough),
        hCoherent.cache register handle name value hOccupant hName hValue]

/-- A machine that shows the picture of an earlier one preserves all readings. -/
theorem preserves_of_coherent (hBefore : before.Sound) (hAfter : after.Sound)
    (hSetting : after.setting = before.setting) (hOptions : after.options = before.options)
    {pointer : Option Nat} {snapshot : Snapshot}
    (hCoherent : Coherent after.store pointer (before.view machine) snapshot)
    (hMatches : last.Matches snapshot) (hEnough : before.options.registers ≤ last.registers.size)
    (hSink : last.sink = machine.sink) : before.Preserves after machine last where
  names := by
    intro name value hReading
    rcases Store.exists_cell?_of_reading? hBefore.store.toLinked hReading with
      ⟨kind, handle, address, hCell⟩
    have hStill : after.setting.cell? name = some (kind, handle, address) := by
      rw [hSetting]
      exact hCell
    rw [← hOptions] at hEnough
    exact reading?_of_coherent hAfter hCoherent hMatches hEnough hStill hReading
  elements := by
    intro address value hArray hValue
    rw [← hSetting] at hArray
    rw [hMatches.memory?]
    exact hCoherent.cells address value hArray hValue
  scratch := by
    intro address value hScratch hValue
    rw [hMatches.memory?]
    exact (hCoherent.scratch address value
      (view_scratch_eq_some_iff.mpr ⟨hScratch, hValue⟩)).2
  input := hMatches.input.trans hCoherent.input
  output := Array.toList_inj.mp (hMatches.output.trans hCoherent.output)
  sink := hSink

private theorem Sound.cached_of_stale (hSound : context.Sound) {name : String} {entry : SymbolEntry}
    (hEntry : context.store.symbols.lookup? name = some entry) (hStale : entry.fresh = false) :
    ∃ handle value register, entry.binding = .value handle ∧
      context.store.arena.get? handle = some value ∧ value.register = some register := by
  rcases hSound.store.stale name entry hEntry hStale with
    ⟨handle, register, hBinding, hOccupant⟩
  rcases (hSound.store.occupants register handle).mp hOccupant with ⟨value, hValue, hRegister⟩
  exact ⟨handle, value, register, hBinding, hValue, hRegister⟩

/-- What is known is right about a machine that shows some picture. -/
theorem agrees_of_shows (hSound : context.Sound) {picture : Picture} {snapshot : Snapshot}
    (hShows : context.Shows picture snapshot) (hMatches : machine.Matches snapshot)
    (hEnough : context.options.registers ≤ machine.registers.size) :
    context.emission.Agrees machine where
  pointer := by
    intro place hPlace
    have hSome := hSound.store.enough
    have hSize := hSound.size
    rw [hMatches.register? (Int.le_refl 0) (by omega), ← hShows.pointer place hPlace]
    rfl
  cached := by
    intro name entry handle value register hEntry hFresh hBinding hValue hRegister
    have hOccupant := (hSound.store.occupants register handle).mpr ⟨value, hValue, hRegister⟩
    rcases hSound.store.allocatable_of_occupant? hOccupant with ⟨hLow, hHigh⟩
    rw [hSound.size] at hHigh
    have hDeclared : context.setting.declared name = some (entry.kind, .value handle) := by
      have hFound : context.store.symbols.lookup? name = some entry := hEntry
      simp only [Store.setting, hFound, Option.map_some, hBinding]
    rcases hSound.store.cell?_of_declared hDeclared with ⟨address, hCell, -⟩
    have hChunk : value.chunk = some address := by
      have hFound := (Setting.cell?_eq_some_iff.mp hCell).2
      have hHere : context.store.arena.get? handle = some value := hValue
      simpa only [Store.setting, hHere, Option.bind_some] using hFound
    have hUpToDate : context.store.symbols.isFresh name = true :=
      (SymbolTable.isFresh_eq hEntry).trans hFresh
    refine ⟨address, _, hChunk, ?_,
      hMatches.register? (Int.le_of_lt hLow) (Int.lt_of_lt_of_le hHigh hEnough)⟩
    rw [hMatches.memory?]
    exact hShows.mirror register handle name _ address hOccupant hCell hUpToDate
  stale := fun _ _ hEntry hStale => hSound.cached_of_stale hEntry hStale

/-! ### Machines on the way -/

/-- A machine with some code that has the registers of a context and about which all that is
known is right. -/
structure Suits (context : Context) (code : List Instruction) (machine : Machine) : Prop where
  carries : machine.Carries code
  active : machine.cancelled = false
  registers : context.options.registers ≤ machine.registers.size
  agrees : context.emission.Agrees machine

variable {code : List Instruction} {count : Nat} {target : Int} {finish : Snapshot}

/-- A machine follows a run that ends with its picture, and preserves all readings. -/
theorem Suits.follows (hSuits : before.Suits code machine) (hBefore : before.Sound)
    (hAfter : after.Sound) (hSetting : after.setting = before.setting)
    (hOptions : after.options = before.options)
    (hRuns : Runs code count before.listing.size machine.snapshot target finish)
    {pointer : Option Nat}
    (hCoherent : Coherent after.store pointer (before.view machine) finish) :
    ∃ last, Machine.Steps count machine before.listing.size last target ∧ last.Matches finish ∧
      machine.SameSetup last ∧ before.Preserves after machine last := by
  have hNonempty : 0 < machine.registers.size := by
    have hEnough := hSuits.registers
    have hSize := hBefore.size
    have hSome := hBefore.store.enough
    omega
  rcases Machine.steps_of_runs hRuns hCoherent.output
    (Machine.matches_snapshot hNonempty hSuits.active) hSuits.carries.includes with
    ⟨last, hSteps, hMatches, hSink⟩
  have hSetup := hSteps.sameSetup
  have hEnough : before.options.registers ≤ last.registers.size := by
    rw [hSetup.size]
    exact hSuits.registers
  exact ⟨last, hSteps, hMatches, hSetup,
    preserves_of_coherent hBefore hAfter hSetting hOptions hCoherent hMatches hEnough hSink⟩

/-- The machine that a run led to suits the context behind it. -/
theorem Suits.later (hSuits : before.Suits code machine) (hAfter : after.Sound)
    (hOptions : after.options = before.options) {picture : Picture}
    (hShows : after.Shows picture finish) (hMatches : last.Matches finish)
    (hSetup : machine.SameSetup last) : after.Suits code last := by
  have hEnough : after.options.registers ≤ last.registers.size := by
    rw [hOptions, hSetup.size]
    exact hSuits.registers
  exact ⟨hSuits.carries.sameSetup hSetup, hMatches.active, hEnough,
    agrees_of_shows hAfter hShows hMatches hEnough⟩

/-- Where nothing is known about the pointer and no name that is up to date is cached, all that
is known is right about every machine. -/
theorem agrees_of_uncached (hSound : context.Sound) (hPointer : context.pointer = none)
    (hUncached : ∀ item ∈ context.store.symbols.byName.entries, item.2.fresh = true →
      ((item.2.handle?.bind context.store.arena.get?).bind Value.register) = none)
    (machine : Machine) : context.emission.Agrees machine where
  pointer := by
    intro place hPlace
    have hNone : context.pointer = some place := hPlace
    rw [hPointer] at hNone
    contradiction
  cached := by
    intro name entry handle value register hEntry hFresh hBinding hValue hRegister
    have hNone := hUncached _ (OrderedMap.mem_of_get? hEntry) hFresh
    have hHere : context.store.arena.get? handle = some value := hValue
    simp [SymbolEntry.handle?, hBinding, hHere, hRegister] at hNone
  stale := fun _ _ hEntry hStale => hSound.cached_of_stale hEntry hStale

end Context

/-! ### Filling open jumps -/

instance Instruction.decidableWithin (registers : Int) (lines : Nat) (instruction : Instruction) :
    Decidable (instruction.Within registers lines) :=
  decidable_of_iff (instruction.opcode.isDefined = true ∧
      (instruction.opcode.shape.hasRegister = true →
        0 ≤ instruction.register ∧ instruction.register < registers) ∧
      (instruction.opcode.isJump = true → 0 ≤ instruction.target ∧ instruction.target ≤ lines))
    ⟨fun hAll => ⟨hAll.1, hAll.2.1, hAll.2.2⟩,
      fun hWithin => ⟨hWithin.opcode, hWithin.register, hWithin.target⟩⟩

/-- The instruction of a line, where an open jump leads to the given line. -/
def Line.fill (target : Int) : Line → Instruction
  | pending opcode operands => .ofOperands opcode (operands ++ [target])
  | line => line.instruction

def Listing.fill (listing : Listing) (target : Int) : List Instruction :=
  listing.lines.toList.map (Line.fill target)

theorem Listing.filledBy_fill (listing : Listing) (target : Int) :
    listing.FilledBy (listing.fill target) := by
  intro index line hLine
  have hFound : (listing.fill target)[index]? = some (line.fill target) := by
    rw [fill, List.getElem?_map, Array.getElem?_toList, show listing.lines[index]? = _ from hLine]
    rfl
  rw [hFound]
  cases line with
  | complete opcode operands => exact rfl
  | pending opcode operands => exact ⟨target, rfl⟩
  | edited text => trivial

end RegisterCompiler
