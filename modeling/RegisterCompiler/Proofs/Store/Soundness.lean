/-
Stores in good order.

The setting of a store is what does not depend on the registers: which names are
declared, which value owns which cell, where arrays lie and which values are known.
A store is linked when registers and values name each other, declared names own cells
below the arrays, and owners and cells correspond.  It is sound when moreover every
name whose cell is out of date has its value in a register.
-/

import RegisterCompiler.Proofs.Store.Arena
import RegisterCompiler.Proofs.Store.OrderedMap
import RegisterCompiler.Store.Registers
import RegisterCompiler.Store.Space
import RegisterCompiler.Store.Symbols

set_option autoImplicit false

namespace RegisterCompiler

/-- What a value is known to be while a program is compiled. -/
def Value.known? (value : Value) : Option Int :=
  if value.isSymbolic then none else value.plain?.bind PlainVariable.current

/-- What a store says apart from its registers. -/
@[ext]
structure Setting where
  layout : Layout
  nameOf : Handle → Option String
  declared : String → Option (SymbolKind × Binding)
  owner : Address → Option Handle
  chunk : Handle → Option Address
  known : Handle → Option Int
  array : ArrayRef → Option Nat × Int

namespace Setting

/-- The kind, the value and the cell of a name that is no array. -/
def cell? (setting : Setting) (name : String) : Option (SymbolKind × Handle × Address) :=
  match setting.declared name with
  | some (kind, .value handle) =>
      (setting.chunk handle).map fun address => (kind, handle, address)
  | _ => none

def arraysStart (setting : Setting) : Nat :=
  setting.layout.arrays.first.toNat

theorem cell?_eq_some_iff {setting : Setting} {name : String} {kind : SymbolKind}
    {handle : Handle} {address : Address} :
    setting.cell? name = some (kind, handle, address) ↔
      setting.declared name = some (kind, .value handle) ∧
        setting.chunk handle = some address := by
  unfold cell?
  cases hDeclared : setting.declared name with
  | none => simp
  | some entry =>
      obtain ⟨found, binding⟩ := entry
      cases binding with
      | value other =>
          simp only [Option.map_eq_some_iff, Prod.mk.injEq, Option.some.injEq, Binding.value.injEq]
          constructor
          · rintro ⟨place, hPlace, rfl, rfl, rfl⟩
            exact ⟨⟨rfl, rfl⟩, hPlace⟩
          · rintro ⟨⟨rfl, rfl⟩, hPlace⟩
            exact ⟨address, hPlace, rfl, rfl, rfl⟩
      | array ref => simp
      | nothing => simp

end Setting

namespace Store

def setting (store : Store) : Setting where
  layout := store.space.layout
  nameOf := fun handle => store.symbols.byValue.lookup handle
  declared := fun name => (store.symbols.lookup? name).map fun entry => (entry.kind, entry.binding)
  owner := fun address => store.space.chunks.get? address
  chunk := fun handle => (store.arena.get? handle).bind Value.chunk
  known := fun handle =>
    if (store.symbols.byValue.lookup handle).isSome then
      (store.arena.get? handle).bind Value.known?
    else none
  array := fun ref => ((store.arena.array ref).base, (store.arena.array ref).length)

structure Linked (store : Store) : Prop where
  arena : store.arena.WellFormed
  layout : store.space.layout.fault? = none
  enough : 5 ≤ store.registers.size
  pointer : store.register? 0 = some ⟨.free, none⟩
  states : ∀ register entry, store.register? register = some entry →
    (entry.state = .free ∧ entry.occupant = none) ∨
      (entry.state = .busy ∧ entry.occupant.isSome = true) ∨ entry.state = .inUse
  occupants : ∀ register handle, store.occupant? register = some handle ↔
    ∃ value, store.arena.get? handle = some value ∧ value.register = some register
  occupantNames : ∀ register handle, store.occupant? register = some handle →
    (store.setting.nameOf handle).isSome = true
  entryNames : ∀ name entry, store.symbols.lookup? name = some entry → entry.name = name
  cells : ∀ name kind handle, store.setting.declared name = some (kind, .value handle) →
    store.setting.nameOf handle = some name ∧
      ∃ value address, store.arena.get? handle = some value ∧
        (kind ≠ .iterator → ∃ scalar, value.payload = .plain scalar) ∧
        value.chunk = some address ∧ address < store.space.layout.arrays.first
  strays : ∀ handle value, store.arena.get? handle = some value →
    store.setting.nameOf handle = none → value.chunk.isSome = true → value.known? = none
  names : ∀ handle name, store.setting.nameOf handle = some name →
    ∃ kind, store.setting.declared name = some (kind, .value handle)
  owners : ∀ address handle, store.setting.owner address = some handle ↔
    store.setting.chunk handle = some address
  bases : ∀ name kind ref, store.setting.declared name = some (kind, .array ref) →
    ∃ base, (store.setting.array ref).1 = some base ∧ store.setting.arraysStart ≤ base

/-- A linked store in which the value of every name is in its cell or in a register. -/
structure Sound (store : Store) : Prop extends Linked store where
  stale : ∀ name entry, store.symbols.lookup? name = some entry → entry.fresh = false →
    ∃ handle register, entry.binding = .value handle ∧ store.occupant? register = some handle

/-! ### Registers -/

theorem register?_eq_some_iff {store : Store} {register : Int} {entry : Register} :
    store.register? register = some entry ↔
      0 ≤ register ∧ store.registers[register.toNat]? = some entry := by
  unfold register?
  by_cases hLow : register < 0
  · simp only [hLow, if_true, Int.not_le.mpr hLow, false_and]
    simp
  · simp only [hLow, if_false, Int.not_lt.mp hLow, true_and]

theorem register?_isSome_iff {store : Store} {register : Int} :
    (store.register? register).isSome = true ↔
      0 ≤ register ∧ register < store.registers.size := by
  rw [Option.isSome_iff_exists]
  constructor
  · rintro ⟨entry, hEntry⟩
    obtain ⟨hLow, hFound⟩ := register?_eq_some_iff.mp hEntry
    have hBound := (Array.getElem?_eq_some_iff.mp hFound).1
    omega
  · rintro ⟨hLow, hHigh⟩
    have hBound : register.toNat < store.registers.size := by omega
    exact ⟨_, register?_eq_some_iff.mpr ⟨hLow, Array.getElem?_eq_getElem hBound⟩⟩

theorem occupant?_eq_some_iff {store : Store} {register : Int} {handle : Handle} :
    store.occupant? register = some handle ↔
      ∃ state, store.register? register = some ⟨state, some handle⟩ := by
  unfold occupant?
  rw [Option.bind_eq_some_iff]
  constructor
  · rintro ⟨⟨state, occupant⟩, hFound, rfl⟩
    exact ⟨state, hFound⟩
  · rintro ⟨state, hFound⟩
    exact ⟨_, hFound, rfl⟩

def Allocatable (store : Store) (register : Int) : Prop :=
  0 < register ∧ register < store.registers.size

theorem allocatable_of_ne_zero {store : Store} {register : Int} {entry : Register}
    (hFound : store.register? register = some entry) (hNonzero : register ≠ 0) :
    store.Allocatable register := by
  have hBounds := register?_isSome_iff.mp (Option.isSome_of_eq_some hFound)
  exact ⟨by omega, hBounds.2⟩

namespace Linked

variable {store : Store} (hLinked : store.Linked)

include hLinked

theorem allocatable_of_occupant? {register : Int} {handle : Handle}
    (hOccupant : store.occupant? register = some handle) : store.Allocatable register := by
  obtain ⟨state, hFound⟩ := occupant?_eq_some_iff.mp hOccupant
  refine allocatable_of_ne_zero hFound ?_
  rintro rfl
  rw [hLinked.pointer] at hFound
  simp at hFound

theorem occupant?_injective {first second : Int} {handle : Handle}
    (hFirst : store.occupant? first = some handle)
    (hSecond : store.occupant? second = some handle) : first = second := by
  obtain ⟨value, hValue, hRegister⟩ := (hLinked.occupants first handle).mp hFirst
  obtain ⟨other, hOther, hNamed⟩ := (hLinked.occupants second handle).mp hSecond
  rw [hValue] at hOther
  rw [← Option.some.inj hOther, hRegister] at hNamed
  exact Option.some.inj hNamed

theorem name_eq_of_cell? {first second : String} {firstKind secondKind : SymbolKind}
    {firstHandle secondHandle : Handle} {address : Address}
    (hFirst : store.setting.cell? first = some (firstKind, firstHandle, address))
    (hSecond : store.setting.cell? second = some (secondKind, secondHandle, address)) :
    first = second ∧ firstHandle = secondHandle := by
  obtain ⟨hFirstDeclared, hFirstChunk⟩ := Setting.cell?_eq_some_iff.mp hFirst
  obtain ⟨hSecondDeclared, hSecondChunk⟩ := Setting.cell?_eq_some_iff.mp hSecond
  have hOwner := (hLinked.owners address firstHandle).mpr hFirstChunk
  rw [(hLinked.owners address secondHandle).mpr hSecondChunk] at hOwner
  obtain rfl := Option.some.inj hOwner
  have hName := (hLinked.cells first firstKind secondHandle hFirstDeclared).1
  rw [(hLinked.cells second secondKind secondHandle hSecondDeclared).1] at hName
  exact ⟨(Option.some.inj hName).symm, rfl⟩

theorem cell?_of_declared {name : String} {kind : SymbolKind} {handle : Handle}
    (hDeclared : store.setting.declared name = some (kind, .value handle)) :
    ∃ address, store.setting.cell? name = some (kind, handle, address) ∧
      address.toNat < store.setting.arraysStart := by
  obtain ⟨-, value, address, hValue, -, hChunk, hLow⟩ :=
    hLinked.cells name kind handle hDeclared
  refine ⟨address, Setting.cell?_eq_some_iff.mpr ⟨hDeclared, ?_⟩, ?_⟩
  · simp only [setting, hValue, Option.bind_some, hChunk]
  · exact UInt64.lt_iff_toNat_lt.mp hLow

theorem cell?_low {name : String} {kind : SymbolKind} {handle : Handle} {address : Address}
    (hCell : store.setting.cell? name = some (kind, handle, address)) :
    address.toNat < store.setting.arraysStart := by
  obtain ⟨place, hPlace, hLow⟩ :=
    hLinked.cell?_of_declared (Setting.cell?_eq_some_iff.mp hCell).1
  rw [hCell] at hPlace
  cases hPlace
  exact hLow

end Linked

end Store

end RegisterCompiler
