/-
What a store says about a running machine.

A picture gives the values of names, array cells, scratch cells and held registers.
A snapshot of a machine is coherent with a store and a picture when every value is
where the store says it is: in the memory cell of a name that is up to date, in the
register that caches the name, in the cells of the arrays, in scratch cells and in held
registers.  A name that is cached and up to date has the same number in both places,
whether the picture says which or not.
-/

import RegisterCompiler.Proofs.Machine.Arithmetic
import RegisterCompiler.Proofs.Store.Names

set_option autoImplicit false

namespace RegisterCompiler

/-- The values that code works on at some point. -/
structure Picture where
  scalar : String → Option Nat
  cell : Nat → Option Nat
  scratch : Address → Option Nat
  held : Int → Option Nat
  input : Option Feed
  output : List Nat

namespace Picture

def hold (picture : Picture) (register : Int) (value : Nat) : Picture :=
  { picture with held := Function.update picture.held register (some value) }

def drop (picture : Picture) (register : Int) : Picture :=
  { picture with held := Function.update picture.held register none }

def setScalar (picture : Picture) (name : String) (value : Nat) : Picture :=
  { picture with scalar := Function.update picture.scalar name (some value) }

def setCell (picture : Picture) (address value : Nat) : Picture :=
  { picture with cell := Function.update picture.cell address (some value) }

def setScratch (picture : Picture) (address : Address) (value : Nat) : Picture :=
  { picture with scratch := Function.update picture.scratch address (some value) }

def dropAll (picture : Picture) : Picture :=
  { picture with held := fun _ => none }

def forget (picture : Picture) (registers : List Int) (addresses : List Nat) : Picture :=
  { picture with
    held := fun register => if register ∈ registers then none else picture.held register
    scratch := fun address =>
      if address.toNat ∈ addresses then none else picture.scratch address }

/-- A picture that says less about held registers and scratch cells. -/
structure Below (weaker picture : Picture) : Prop where
  scalar : weaker.scalar = picture.scalar
  cell : weaker.cell = picture.cell
  scratch : ∀ address value, weaker.scratch address = some value →
    picture.scratch address = some value
  held : ∀ register value, weaker.held register = some value →
    picture.held register = some value
  input : weaker.input = picture.input
  output : weaker.output = picture.output

/-- Pictures that differ in held registers and scratch cells only. -/
structure Alike (first second : Picture) : Prop where
  scalar : first.scalar = second.scalar
  cell : first.cell = second.cell
  input : first.input = second.input
  output : first.output = second.output

@[simp]
theorem alike_refl (picture : Picture) : picture.Alike picture :=
  ⟨rfl, rfl, rfl, rfl⟩

@[simp]
theorem alike_hold_iff {first second : Picture} {register : Int} {value : Nat} :
    (first.hold register value).Alike second ↔ first.Alike second :=
  ⟨fun hAlike => ⟨hAlike.scalar, hAlike.cell, hAlike.input, hAlike.output⟩,
    fun hAlike => ⟨hAlike.scalar, hAlike.cell, hAlike.input, hAlike.output⟩⟩

@[simp]
theorem alike_forget_iff {first second : Picture} {registers : List Int} {addresses : List Nat} :
    (first.forget registers addresses).Alike second ↔ first.Alike second :=
  ⟨fun hAlike => ⟨hAlike.scalar, hAlike.cell, hAlike.input, hAlike.output⟩,
    fun hAlike => ⟨hAlike.scalar, hAlike.cell, hAlike.input, hAlike.output⟩⟩

@[simp]
theorem alike_drop_iff {first second : Picture} {register : Int} :
    (first.drop register).Alike second ↔ first.Alike second :=
  ⟨fun hAlike => ⟨hAlike.scalar, hAlike.cell, hAlike.input, hAlike.output⟩,
    fun hAlike => ⟨hAlike.scalar, hAlike.cell, hAlike.input, hAlike.output⟩⟩

@[simp]
theorem alike_setScratch_iff {first second : Picture} {address : Address} {value : Nat} :
    (first.setScratch address value).Alike second ↔ first.Alike second :=
  ⟨fun hAlike => ⟨hAlike.scalar, hAlike.cell, hAlike.input, hAlike.output⟩,
    fun hAlike => ⟨hAlike.scalar, hAlike.cell, hAlike.input, hAlike.output⟩⟩

theorem below_forget (picture : Picture) (registers : List Int) (addresses : List Nat) :
    (picture.forget registers addresses).Below picture := by
  refine ⟨rfl, rfl, ?_, ?_, rfl, rfl⟩
  · intro address value hValue
    simp only [forget] at hValue
    split at hValue
    · contradiction
    · exact hValue
  · intro register value hValue
    simp only [forget] at hValue
    split at hValue
    · contradiction
    · exact hValue

theorem below_drop (picture : Picture) (register : Int) : (picture.drop register).Below picture := by
  refine ⟨rfl, rfl, fun _ _ hValue => hValue, ?_, rfl, rfl⟩
  intro other value hValue
  simp only [drop, Function.update_apply] at hValue
  split at hValue
  · contradiction
  · exact hValue

theorem held_hold_self (picture : Picture) (register : Int) (value : Nat) :
    (picture.hold register value).held register = some value :=
  Function.update_self _ _ _

theorem held_hold_of_ne (picture : Picture) {register other : Int} (hOther : other ≠ register)
    (value : Nat) : (picture.hold register value).held other = picture.held other :=
  Function.update_of_ne hOther _ _

theorem held_drop_of_ne (picture : Picture) {register other : Int} (hOther : other ≠ register) :
    (picture.drop register).held other = picture.held other :=
  Function.update_of_ne hOther _ _

theorem hold_hold (picture : Picture) (register : Int) (first second : Nat) :
    (picture.hold register first).hold register second = picture.hold register second := by
  simp only [hold, Function.update_idem]

theorem hold_drop (picture : Picture) (register : Int) (value : Nat) :
    (picture.drop register).hold register value = picture.hold register value := by
  simp only [hold, drop, Function.update_idem]

theorem drop_hold (picture : Picture) (register : Int) (value : Nat) :
    (picture.hold register value).drop register = picture.drop register := by
  simp only [hold, drop, Function.update_idem]

theorem drop_eq_self {picture : Picture} {register : Int} (hNone : picture.held register = none) :
    picture.drop register = picture := by
  rw [drop, ← hNone, Function.update_eq_self]

theorem forget_forget (picture : Picture) (registers moreRegisters : List Int)
    (addresses moreAddresses : List Nat) :
    (picture.forget registers addresses).forget moreRegisters moreAddresses =
      picture.forget (registers ++ moreRegisters) (addresses ++ moreAddresses) := by
  have hHeld : ∀ register, (if register ∈ moreRegisters then none
      else if register ∈ registers then none else picture.held register) =
        if register ∈ registers ++ moreRegisters then none else picture.held register := by
    intro register
    by_cases hFirst : register ∈ registers <;> by_cases hMore : register ∈ moreRegisters <;>
      simp [hFirst, hMore]
  have hScratch : ∀ address : Address, (if address.toNat ∈ moreAddresses then none
      else if address.toNat ∈ addresses then none else picture.scratch address) =
        if address.toNat ∈ addresses ++ moreAddresses then none else picture.scratch address := by
    intro address
    by_cases hFirst : address.toNat ∈ addresses <;>
      by_cases hMore : address.toNat ∈ moreAddresses <;> simp [hFirst, hMore]
  simp only [forget, hHeld, hScratch]

theorem forget_cons (picture : Picture) (register : Int) (registers : List Int)
    (addresses : List Nat) :
    picture.forget (register :: registers) addresses =
      (picture.drop register).forget registers addresses := by
  have hHeld : ∀ other, (if other ∈ register :: registers then none else picture.held other) =
      if other ∈ registers then none
      else Function.update picture.held register none other := by
    intro other
    by_cases hSame : other = register
    · simp [hSame]
    · simp [hSame, Function.update_of_ne]
  simp only [forget, drop, hHeld]

end Picture

def Store.Holds (store : Store) (register : Int) : Prop :=
  store.register? register = some ⟨.inUse, none⟩

/-- A cell owned by a value without a name. -/
def Setting.IsScratch (setting : Setting) (address : Address) : Prop :=
  address.toNat < setting.arraysStart ∧
    ∃ handle, setting.owner address = some handle ∧ setting.nameOf handle = none

/-- A machine that has every value of a picture where a store and what is known about
the pointer say it is. -/
structure Coherent (store : Store) (pointer : Option Nat) (picture : Picture)
    (snapshot : Snapshot) : Prop where
  pointer : ∀ place, pointer = some place → snapshot.pointer = place
  memory : ∀ name kind handle address value,
    store.setting.cell? name = some (kind, handle, address) →
    store.symbols.isFresh name = true → picture.scalar name = some value →
    snapshot.memory address.toNat = some value
  cache : ∀ register handle name value, store.occupant? register = some handle →
    store.setting.nameOf handle = some name → picture.scalar name = some value →
    snapshot.registers register = value
  mirror : ∀ register handle name kind address, store.occupant? register = some handle →
    store.setting.cell? name = some (kind, handle, address) →
    store.symbols.isFresh name = true →
    snapshot.memory address.toNat = some (snapshot.registers register)
  cells : ∀ address value, store.setting.arraysStart ≤ address →
    picture.cell address = some value → snapshot.memory address = some value
  scratch : ∀ address value, picture.scratch address = some value →
    store.setting.IsScratch address ∧ snapshot.memory address.toNat = some value
  held : ∀ register value, picture.held register = some value →
    store.Holds register ∧ snapshot.registers register = value
  input : snapshot.input = picture.input
  output : snapshot.output = picture.output

namespace Store

theorem Linked.ne_zero_of_holds {store : Store} (hLinked : store.Linked) {register : Int}
    (hHolds : store.Holds register) : register ≠ 0 := by
  rintro rfl
  rw [Holds, hLinked.pointer] at hHolds
  contradiction

theorem Linked.allocatable_of_holds {store : Store} (hLinked : store.Linked) {register : Int}
    (hHolds : store.Holds register) : store.Allocatable register :=
  allocatable_of_ne_zero hHolds (hLinked.ne_zero_of_holds hHolds)

theorem occupant?_of_holds {store : Store} {register : Int} (hHolds : store.Holds register) :
    store.occupant? register = none := by
  unfold occupant?
  rw [hHolds]
  rfl

private theorem Linked.ne_of_isScratch {store : Store} (hLinked : store.Linked) {name : String}
    {kind : SymbolKind} {handle : Handle} {address other : Address}
    (hCell : store.setting.cell? name = some (kind, handle, address))
    (hScratch : store.setting.IsScratch other) : address ≠ other := by
  rintro rfl
  obtain ⟨-, owner, hOwner, hUnnamed⟩ := hScratch
  obtain ⟨hDeclared, hChunk⟩ := Setting.cell?_eq_some_iff.mp hCell
  rw [(hLinked.owners address handle).mpr hChunk] at hOwner
  obtain rfl := Option.some.inj hOwner
  rw [(hLinked.cells name kind handle hDeclared).1] at hUnnamed
  contradiction

end Store

namespace Coherent

variable {store : Store} {pointer : Option Nat} {picture : Picture} {snapshot : Snapshot}

theorem forgetPointer (hCoherent : Coherent store pointer picture snapshot) :
    Coherent store none picture snapshot :=
  { hCoherent with pointer := fun _ hNone => absurd hNone.symm (Option.some_ne_none _) }

theorem drop_eq (hCoherent : Coherent store pointer picture snapshot) {register : Int}
    (hFree : ¬store.Holds register) : picture.drop register = picture := by
  have hNone : picture.held register = none := by
    cases hHeld : picture.held register with
    | none => rfl
    | some value => exact absurd (hCoherent.held register value hHeld).1 hFree
  exact Picture.drop_eq_self hNone

theorem restrict (hCoherent : Coherent store pointer picture snapshot) {weaker : Picture}
    (hBelow : weaker.Below picture) : Coherent store pointer weaker snapshot where
  pointer := hCoherent.pointer
  memory := by rw [hBelow.scalar]; exact hCoherent.memory
  cache := by rw [hBelow.scalar]; exact hCoherent.cache
  mirror := hCoherent.mirror
  cells := by rw [hBelow.cell]; exact hCoherent.cells
  scratch := fun address value hValue =>
    hCoherent.scratch address value (hBelow.scratch address value hValue)
  held := fun register value hValue =>
    hCoherent.held register value (hBelow.held register value hValue)
  input := by rw [hBelow.input]; exact hCoherent.input
  output := by rw [hBelow.output]; exact hCoherent.output

/-- Another store says the same if it has the same registers, cells and names. -/
theorem congr_store (hCoherent : Coherent store pointer picture snapshot) {other : Store}
    (hRegisters : other.registers = store.registers) (hSymbols : other.symbols = store.symbols)
    (hCells : ∀ name, other.setting.cell? name = store.setting.cell? name)
    (hStart : other.setting.arraysStart = store.setting.arraysStart)
    (hScratch : ∀ address value, picture.scratch address = some value →
      store.setting.IsScratch address → other.setting.IsScratch address) :
    Coherent other pointer picture snapshot where
  pointer := hCoherent.pointer
  memory := by
    intro name kind handle address value hCell hFresh hValue
    rw [hCells] at hCell
    rw [hSymbols] at hFresh
    exact hCoherent.memory name kind handle address value hCell hFresh hValue
  cache := by
    intro register handle name value hOccupant hName hValue
    refine hCoherent.cache register handle name value ?_ ?_ hValue
    · rw [← hOccupant]
      simp only [Store.occupant?, Store.register?, hRegisters]
    · rw [← hName]
      simp only [Store.setting, hSymbols]
  mirror := by
    intro register handle name kind address hOccupant hCell hFresh
    refine hCoherent.mirror register handle name kind address ?_ (by rw [← hCells]; exact hCell)
      (by rw [← hSymbols]; exact hFresh)
    rw [← hOccupant]
    simp only [Store.occupant?, Store.register?, hRegisters]
  cells := by rw [hStart]; exact hCoherent.cells
  scratch := by
    intro address value hValue
    obtain ⟨hOwned, hMemory⟩ := hCoherent.scratch address value hValue
    exact ⟨hScratch address value hValue hOwned, hMemory⟩
  held := by
    intro register value hValue
    obtain ⟨hHolds, hRegister⟩ := hCoherent.held register value hValue
    refine ⟨?_, hRegister⟩
    unfold Store.Holds at hHolds ⊢
    rw [← hHolds]
    simp only [Store.register?, hRegisters]
  input := hCoherent.input
  output := hCoherent.output

/-- Another store with the same setting, names and registers says the same. -/
theorem congr_setting (hCoherent : Coherent store pointer picture snapshot) {other : Store}
    (hRegisters : other.registers = store.registers) (hSymbols : other.symbols = store.symbols)
    (hSetting : other.setting = store.setting) : Coherent other pointer picture snapshot :=
  hCoherent.congr_store hRegisters hSymbols (fun _ => by rw [hSetting]) (by rw [hSetting])
    (fun _ _ _ hScratch => by rw [hSetting]; exact hScratch)

/-! ### Running code -/

/-- Code may change held registers and scratch cells. -/
theorem agree (hCoherent : Coherent store pointer picture snapshot) (hLinked : store.Linked)
    {registers : List Int} {addresses : List Nat} {after : Snapshot}
    (hAgree : snapshot.AgreeExcept registers addresses after)
    (hHeld : ∀ register ∈ registers, store.Holds register)
    (hScratch : ∀ place ∈ addresses, ∃ address : Address, address.toNat = place ∧
      store.setting.IsScratch address) :
    Coherent store pointer (picture.forget registers addresses) after where
  pointer := by
    intro place hPlace
    rw [Snapshot.pointer, hAgree.registers 0 fun hZero =>
      hLinked.ne_zero_of_holds (hHeld 0 hZero) rfl]
    exact hCoherent.pointer place hPlace
  memory := by
    intro name kind handle address value hCell hFresh hValue
    rw [hAgree.memory address.toNat]
    · exact hCoherent.memory name kind handle address value hCell hFresh hValue
    · intro hMem
      obtain ⟨other, hOther, hOwned⟩ := hScratch _ hMem
      exact hLinked.ne_of_isScratch hCell hOwned (UInt64.toNat_inj.mp hOther).symm
  cache := by
    intro register handle name value hOccupant hName hValue
    rw [hAgree.registers register]
    · exact hCoherent.cache register handle name value hOccupant hName hValue
    · intro hMem
      rw [Store.occupant?_of_holds (hHeld register hMem)] at hOccupant
      contradiction
  mirror := by
    intro register handle name kind address hOccupant hCell hFresh
    have hRegister : register ∉ registers := by
      intro hMem
      rw [Store.occupant?_of_holds (hHeld register hMem)] at hOccupant
      contradiction
    have hAddress : address.toNat ∉ addresses := by
      intro hMem
      obtain ⟨other, hOther, hOwned⟩ := hScratch _ hMem
      exact hLinked.ne_of_isScratch hCell hOwned (UInt64.toNat_inj.mp hOther).symm
    rw [hAgree.memory _ hAddress, hAgree.registers _ hRegister]
    exact hCoherent.mirror register handle name kind address hOccupant hCell hFresh
  cells := by
    intro address value hStart hValue
    rw [hAgree.memory address]
    · exact hCoherent.cells address value hStart hValue
    · intro hMem
      obtain ⟨other, rfl, hLow, -⟩ := hScratch _ hMem
      omega
  scratch := by
    intro address value hValue
    simp only [Picture.forget] at hValue
    split at hValue
    · contradiction
    · rename_i hMem
      rw [hAgree.memory address.toNat hMem]
      exact hCoherent.scratch address value hValue
  held := by
    intro register value hValue
    simp only [Picture.forget] at hValue
    split at hValue
    · contradiction
    · rename_i hMem
      rw [hAgree.registers register hMem]
      exact hCoherent.held register value hValue
  input := hAgree.input.trans hCoherent.input
  output := hAgree.output.trans hCoherent.output

theorem noteHeld (hCoherent : Coherent store pointer picture snapshot) {register : Int}
    {value : Nat} (hHolds : store.Holds register)
    (hValue : snapshot.registers register = value) :
    Coherent store pointer (picture.hold register value) snapshot :=
  { hCoherent with
    held := by
      intro other found hFound
      simp only [Picture.hold, Function.update_apply] at hFound
      split at hFound
      · rename_i hSame
        rw [hSame, ← Option.some.inj hFound]
        exact ⟨hHolds, hValue⟩
      · exact hCoherent.held other found hFound }

/-- What a scratch cell contains can be noted. -/
theorem noteScratch (hCoherent : Coherent store pointer picture snapshot) {address : Address}
    {value : Nat} (hOwned : store.setting.IsScratch address)
    (hValue : snapshot.memory address.toNat = some value) :
    Coherent store pointer (picture.setScratch address value) snapshot :=
  { hCoherent with
    scratch := by
      intro other found hFound
      simp only [Picture.setScratch, Function.update_apply] at hFound
      split at hFound
      · rename_i hSame
        rw [hSame, ← Option.some.inj hFound]
        exact ⟨hOwned, hValue⟩
      · exact hCoherent.scratch other found hFound }

theorem setHeld (hCoherent : Coherent store pointer picture snapshot) (hLinked : store.Linked)
    {register : Int} (hHolds : store.Holds register) (value : Nat) :
    Coherent store pointer (picture.hold register value) (snapshot.setRegister register value) := by
  have hAgree : snapshot.AgreeExcept [register] [] (snapshot.setRegister register value) :=
    (Snapshot.AgreeExcept.refl _ _ snapshot).setRegister List.mem_cons_self value
  have hKept := hCoherent.agree hLinked hAgree
    (fun other hOther => by rw [List.mem_singleton.mp hOther]; exact hHolds)
    (fun _ hNone => absurd hNone List.not_mem_nil)
  refine (hKept.noteHeld hHolds (Snapshot.registers_setRegister_self _ _ _)).restrict
    ⟨rfl, rfl, ?_, ?_, rfl, rfl⟩
  · intro address found hFound
    simpa [Picture.hold, Picture.forget] using hFound
  · intro other found hFound
    simp only [Picture.hold, Picture.forget, Function.update_apply, List.mem_singleton] at hFound ⊢
    split
    · rename_i hSame
      rw [if_pos hSame] at hFound
      exact hFound
    · rename_i hDifferent
      rw [if_neg hDifferent] at hFound
      exact hFound

theorem storeScratch (hCoherent : Coherent store pointer picture snapshot)
    (hLinked : store.Linked) {address : Address} (hOwned : store.setting.IsScratch address)
    (value : Nat) :
    Coherent store pointer (picture.setScratch address value)
      (snapshot.setCell address.toNat value) := by
  have hAgree : snapshot.AgreeExcept [] [address.toNat] (snapshot.setCell address.toNat value) :=
    (Snapshot.AgreeExcept.refl _ _ snapshot).setCell List.mem_cons_self value
  have hKept := hCoherent.agree hLinked hAgree (fun _ hNone => absurd hNone List.not_mem_nil)
    (fun place hPlace => ⟨address, (List.mem_singleton.mp hPlace).symm, hOwned⟩)
  refine (hKept.noteScratch hOwned (Snapshot.memory_setCell_self _ _ _)).restrict
    ⟨rfl, rfl, ?_, ?_, rfl, rfl⟩
  · intro other found hFound
    simp only [Picture.setScratch, Picture.forget, Function.update_apply, List.mem_singleton,
      UInt64.toNat_inj] at hFound ⊢
    split
    · rename_i hSame
      rw [if_pos hSame] at hFound
      exact hFound
    · rename_i hDifferent
      rw [if_neg hDifferent] at hFound
      exact hFound
  · intro register found hFound
    simpa [Picture.setScratch, Picture.forget] using hFound

theorem setPointer (hCoherent : Coherent store pointer picture snapshot) (hLinked : store.Linked)
    (place : Nat) : Coherent store (some place) picture (snapshot.setRegister 0 place) where
  pointer := by
    intro found hFound
    rw [← Option.some.inj hFound]
    exact Snapshot.registers_setRegister_self _ _ _
  memory := hCoherent.memory
  cache := by
    intro register handle name value hOccupant hName hValue
    have hLow := (hLinked.allocatable_of_occupant? hOccupant).1
    rw [Snapshot.registers_setRegister_of_ne _ (by omega)]
    exact hCoherent.cache register handle name value hOccupant hName hValue
  mirror := by
    intro register handle name kind address hOccupant hCell hFresh
    have hLow := (hLinked.allocatable_of_occupant? hOccupant).1
    rw [Snapshot.registers_setRegister_of_ne _ (by omega)]
    exact hCoherent.mirror register handle name kind address hOccupant hCell hFresh
  cells := hCoherent.cells
  scratch := hCoherent.scratch
  held := by
    intro register value hValue
    obtain ⟨hHolds, hRegister⟩ := hCoherent.held register value hValue
    rw [Snapshot.registers_setRegister_of_ne _ (hLinked.ne_zero_of_holds hHolds)]
    exact ⟨hHolds, hRegister⟩
  input := hCoherent.input
  output := hCoherent.output

theorem storeCell (hCoherent : Coherent store pointer picture snapshot) (hLinked : store.Linked)
    {place : Nat} (hStart : store.setting.arraysStart ≤ place) (value : Nat) :
    Coherent store pointer (picture.setCell place value) (snapshot.setCell place value) where
  pointer := hCoherent.pointer
  memory := by
    intro name kind handle address found hCell hFresh hValue
    have hLow := hLinked.cell?_low hCell
    rw [Snapshot.memory_setCell_of_ne _ (by omega)]
    exact hCoherent.memory name kind handle address found hCell hFresh hValue
  cache := hCoherent.cache
  mirror := by
    intro register handle name kind address hOccupant hCell hFresh
    have hLow := hLinked.cell?_low hCell
    rw [Snapshot.memory_setCell_of_ne _ (by omega)]
    exact hCoherent.mirror register handle name kind address hOccupant hCell hFresh
  cells := by
    intro other found hOther hFound
    simp only [Picture.setCell, Function.update_apply] at hFound
    split at hFound
    · rename_i hSame
      rw [hSame, ← Option.some.inj hFound]
      exact Snapshot.memory_setCell_self _ _ _
    · rename_i hDifferent
      rw [Snapshot.memory_setCell_of_ne _ hDifferent]
      exact hCoherent.cells other found hOther hFound
  scratch := by
    intro other found hFound
    obtain ⟨hOwned, hMemory⟩ := hCoherent.scratch other found hFound
    refine ⟨hOwned, ?_⟩
    have hLow := hOwned.1
    rw [Snapshot.memory_setCell_of_ne _ (by omega)]
    exact hMemory
  held := hCoherent.held
  input := hCoherent.input
  output := hCoherent.output

section SetName

variable (hCoherent : Coherent store pointer picture snapshot) (hLinked : store.Linked)
  {name : String} {kind : SymbolKind} {handle : Handle} {address : Address}
  (hCell : store.setting.cell? name = some (kind, handle, address)) (value : Nat)

include hCoherent hLinked hCell

theorem cells_setName (place found : Nat) (hStart : store.setting.arraysStart ≤ place)
    (hFound : picture.cell place = some found) :
    (snapshot.setCell address.toNat value).memory place = some found := by
  have hLow := hLinked.cell?_low hCell
  rw [Snapshot.memory_setCell_of_ne _ (by omega)]
  exact hCoherent.cells place found hStart hFound

theorem scratch_setName (place : Address) (found : Nat)
    (hFound : picture.scratch place = some found) : store.setting.IsScratch place ∧
      (snapshot.setCell address.toNat value).memory place.toNat = some found := by
  obtain ⟨hOwned, hMemory⟩ := hCoherent.scratch place found hFound
  refine ⟨hOwned, ?_⟩
  rw [Snapshot.memory_setCell_of_ne _ fun hEqual =>
    hLinked.ne_of_isScratch hCell hOwned (UInt64.toNat_inj.mp hEqual).symm]
  exact hMemory

end SetName

theorem storeName (hCoherent : Coherent store pointer picture snapshot) (hLinked : store.Linked)
    {name : String} {kind : SymbolKind} {handle : Handle} {address : Address}
    (hCell : store.setting.cell? name = some (kind, handle, address)) {value : Nat}
    (hValue : ∀ found, picture.scalar name = some found → value = found)
    (hCached : ∀ register, store.occupant? register = some handle →
      snapshot.registers register = value) :
    Coherent store pointer picture (snapshot.setCell address.toNat value) where
  pointer := hCoherent.pointer
  memory := by
    intro other otherKind otherHandle place found hOther hFresh hFound
    by_cases hSame : place = address
    · subst hSame
      obtain ⟨rfl, -⟩ := hLinked.name_eq_of_cell? hCell hOther
      rw [Snapshot.memory_setCell_self, hValue found hFound]
    · rw [Snapshot.memory_setCell_of_ne _ fun hEqual => hSame (UInt64.toNat_inj.mp hEqual)]
      exact hCoherent.memory other otherKind otherHandle place found hOther hFresh hFound
  cache := hCoherent.cache
  mirror := by
    intro register otherHandle other otherKind place hOccupant hOther hFresh
    by_cases hSame : place = address
    · subst hSame
      obtain ⟨-, rfl⟩ := hLinked.name_eq_of_cell? hCell hOther
      rw [Snapshot.memory_setCell_self]
      exact congrArg some (hCached register hOccupant).symm
    · rw [Snapshot.memory_setCell_of_ne _ fun hEqual => hSame (UInt64.toNat_inj.mp hEqual)]
      exact hCoherent.mirror register otherHandle other otherKind place hOccupant hOther hFresh
  cells := hCoherent.cells_setName hLinked hCell value
  scratch := hCoherent.scratch_setName hLinked hCell value
  held := hCoherent.held
  input := hCoherent.input
  output := hCoherent.output

/-! ### Changing the registers of a store -/

theorem vacate (hCoherent : Coherent store pointer picture snapshot) (hLinked : store.Linked)
    {register : Int} (hRegister : store.Allocatable register) (state : RegisterState) :
    Coherent (store.vacate register state) pointer (picture.drop register) snapshot := by
  have hSetting := (Store.sameContent_vacate register state hLinked).setting_eq
  exact {
    pointer := hCoherent.pointer
    memory := by
      rw [hSetting, Store.symbols_vacate]
      exact hCoherent.memory
    cache := by
      intro other handle name value hOccupant hName hValue
      rw [Store.occupant?_vacate hRegister] at hOccupant
      rw [hSetting] at hName
      split at hOccupant
      · contradiction
      · exact hCoherent.cache other handle name value hOccupant hName hValue
    mirror := by
      intro other handle name kind address hOccupant hCell hFresh
      rw [Store.occupant?_vacate hRegister] at hOccupant
      rw [hSetting] at hCell
      rw [Store.symbols_vacate] at hFresh
      split at hOccupant
      · contradiction
      · exact hCoherent.mirror other handle name kind address hOccupant hCell hFresh
    cells := by rw [hSetting]; exact hCoherent.cells
    scratch := by rw [hSetting]; exact hCoherent.scratch
    held := by
      intro other value hValue
      simp only [Picture.drop, Function.update_apply] at hValue
      split at hValue
      · contradiction
      · rename_i hDifferent
        obtain ⟨hHolds, hFound⟩ := hCoherent.held other value hValue
        refine ⟨?_, hFound⟩
        rw [Store.Holds, Store.register?_vacate hRegister, if_neg hDifferent]
        exact hHolds
    input := hCoherent.input
    output := hCoherent.output }

/-- A register may cache a name whose value it contains. -/
theorem occupy (hCoherent : Coherent store pointer picture snapshot) {register : Int}
    (hRegister : store.Allocatable register) {handle : Handle}
    (hValue : ∀ name value, store.setting.nameOf handle = some name →
      picture.scalar name = some value → snapshot.registers register = value)
    (hMirror : ∀ name kind address, store.setting.cell? name = some (kind, handle, address) →
      store.symbols.isFresh name = true →
      snapshot.memory address.toNat = some (snapshot.registers register)) :
    Coherent (store.occupy register handle) pointer (picture.drop register) snapshot := by
  have hSetting := (Store.sameContent_occupy hRegister handle).setting_eq
  exact {
    pointer := hCoherent.pointer
    memory := by rw [hSetting]; exact hCoherent.memory
    cache := by
      intro other found name value hOccupant hName hScalar
      rw [Store.occupant?_occupy hRegister] at hOccupant
      rw [hSetting] at hName
      split at hOccupant
      · rename_i hSame
        rw [hSame]
        rw [← Option.some.inj hOccupant] at hName
        exact hValue name value hName hScalar
      · exact hCoherent.cache other found name value hOccupant hName hScalar
    mirror := by
      intro other found name kind address hOccupant hCell hFresh
      rw [Store.occupant?_occupy hRegister] at hOccupant
      rw [hSetting] at hCell
      split at hOccupant
      · rename_i hSame
        rw [hSame]
        rw [← Option.some.inj hOccupant] at hCell
        exact hMirror name kind address hCell hFresh
      · exact hCoherent.mirror other found name kind address hOccupant hCell hFresh
    cells := by rw [hSetting]; exact hCoherent.cells
    scratch := by rw [hSetting]; exact hCoherent.scratch
    held := by
      intro other value hHeld
      simp only [Picture.drop, Function.update_apply] at hHeld
      split at hHeld
      · contradiction
      · rename_i hDifferent
        obtain ⟨hHolds, hFound⟩ := hCoherent.held other value hHeld
        refine ⟨?_, hFound⟩
        rw [Store.Holds, Store.register?_occupy hRegister, if_neg hDifferent]
        exact hHolds
    input := hCoherent.input
    output := hCoherent.output }

/-- The state of a register that caches a name may change. -/
theorem mark (hCoherent : Coherent store pointer picture snapshot) {register : Int}
    {handle : Handle} (hOccupant : store.occupant? register = some handle)
    (state : RegisterState) :
    Coherent (store.markRegister register state) pointer picture snapshot where
  pointer := hCoherent.pointer
  memory := hCoherent.memory
  cache := by
    intro other found name value hFound hName hValue
    rw [Store.occupant?_mark hOccupant] at hFound
    exact hCoherent.cache other found name value hFound hName hValue
  mirror := by
    intro other found name kind address hFound hCell hFresh
    rw [Store.occupant?_mark hOccupant] at hFound
    exact hCoherent.mirror other found name kind address hFound hCell hFresh
  cells := hCoherent.cells
  scratch := hCoherent.scratch
  held := by
    intro other value hValue
    obtain ⟨hHolds, hFound⟩ := hCoherent.held other value hValue
    refine ⟨?_, hFound⟩
    rw [Store.Holds, Store.register?_mark hOccupant, if_neg]
    · exact hHolds
    · rintro rfl
      rw [Store.occupant?_of_holds hHolds] at hOccupant
      contradiction
  input := hCoherent.input
  output := hCoherent.output

/-- A cell may be called up to date if it is, and out of date in any case. -/
theorem noteFresh (hCoherent : Coherent store pointer picture snapshot) {name : String}
    {fresh : Bool}
    (hMemory : fresh = true → ∀ kind handle address,
      store.setting.cell? name = some (kind, handle, address) →
      (∀ value, picture.scalar name = some value → snapshot.memory address.toNat = some value) ∧
        ∀ register, store.occupant? register = some handle →
          snapshot.memory address.toNat = some (snapshot.registers register)) :
    Coherent (store.noteFresh name fresh) pointer picture snapshot := by
  have hSetting := (Store.sameContent_noteFresh store name fresh).setting_eq
  exact {
    pointer := hCoherent.pointer
    memory := by
      intro other kind handle address value hCell hFresh hValue
      rw [hSetting] at hCell
      simp only [Store.noteFresh, SymbolTable.isFresh_setFresh] at hFresh
      split at hFresh
      · rename_i hSame
        subst hSame
        rw [Bool.and_eq_true] at hFresh
        exact (hMemory hFresh.2 kind handle address hCell).1 value hValue
      · exact hCoherent.memory other kind handle address value hCell hFresh hValue
    cache := by rw [hSetting]; exact hCoherent.cache
    mirror := by
      intro register handle other kind address hOccupant hCell hFresh
      rw [hSetting] at hCell
      simp only [Store.noteFresh, SymbolTable.isFresh_setFresh] at hFresh
      split at hFresh
      · rename_i hSame
        subst hSame
        rw [Bool.and_eq_true] at hFresh
        exact (hMemory hFresh.2 kind handle address hCell).2 register hOccupant
      · exact hCoherent.mirror register handle other kind address hOccupant hCell hFresh
    cells := by rw [hSetting]; exact hCoherent.cells
    scratch := by rw [hSetting]; exact hCoherent.scratch
    held := hCoherent.held
    input := hCoherent.input
    output := hCoherent.output }

/-- A name may get a new value while it is neither in its cell nor in a register. -/
theorem setScalar (hCoherent : Coherent store pointer picture snapshot) {name : String}
    (hStale : store.symbols.isFresh name = false)
    (hUncached : ∀ register handle, store.occupant? register = some handle →
      store.setting.nameOf handle ≠ some name) (value : Nat) :
    Coherent store pointer (picture.setScalar name value) snapshot :=
  { hCoherent with
    memory := by
      intro other kind handle address found hCell hFresh hFound
      have hDifferent : other ≠ name := by
        rintro rfl
        rw [hStale] at hFresh
        contradiction
      simp only [Picture.setScalar, Function.update_of_ne hDifferent] at hFound
      exact hCoherent.memory other kind handle address found hCell hFresh hFound
    cache := by
      intro register handle other found hOccupant hName hFound
      have hDifferent : other ≠ name := by
        rintro rfl
        exact hUncached register handle hOccupant hName
      simp only [Picture.setScalar, Function.update_of_ne hDifferent] at hFound
      exact hCoherent.cache register handle other found hOccupant hName hFound }

end Coherent

end RegisterCompiler
