/-
Placing scalars and arrays.

While names are declared, the cells that are owned lie in two rows, one from the start of
the scalars and one from the start of the arrays.  A counter behind each row gives the
next cell, which has no owner yet.
-/

import RegisterCompiler.Proofs.Store.Names

set_option autoImplicit false

namespace RegisterCompiler

/-! ### Ranges -/

namespace AddressRange

theorem toNat_size {range : AddressRange} (hFirst : 0 < range.first.toNat)
    (hOrder : range.first.toNat ≤ range.last.toNat) :
    range.size.toNat = range.last.toNat - range.first.toNat + 1 := by
  have hLast := range.last.toNat_lt
  rw [size, UInt64.toNat_add, UInt64.toNat_sub_of_le _ _ (UInt64.le_iff_toNat_le.mpr hOrder)]
  change (_ + 1) % _ = _
  omega

end AddressRange

namespace Layout.Ordered

variable {layout : Layout} (hOrdered : layout.Ordered)

include hOrdered

theorem toNat_size_scalars :
    layout.scalars.size.toNat = layout.scalars.last.toNat - layout.scalars.first.toNat + 1 :=
  AddressRange.toNat_size (Nat.zero_lt_of_lt hOrdered.loopScalars) hOrdered.scalars

theorem toNat_size_arrays :
    layout.arrays.size.toNat = layout.arrays.last.toNat - layout.arrays.first.toNat + 1 :=
  AddressRange.toNat_size (Nat.zero_lt_of_lt hOrdered.scalarsArrays) hOrdered.arrays

end Layout.Ordered

namespace Store

/-- The owned cells lie in two rows, as long as the counters say. -/
structure Rows (store : Store) : Prop where
  scalars : store.space.scalars.toNat ≤ store.space.layout.scalars.size.toNat
  arrays : store.space.arrays.toNat ≤ store.space.layout.arrays.size.toNat
  owned : ∀ (address : Address) handle, store.setting.owner address = some handle →
    (store.space.layout.scalars.first.toNat ≤ address.toNat ∧
      address.toNat < store.space.layout.scalars.first.toNat + store.space.scalars.toNat) ∨
    (store.space.layout.arrays.first.toNat ≤ address.toNat ∧
      address.toNat < store.space.layout.arrays.first.toNat + store.space.arrays.toNat)

namespace Rows

variable {store : Store} (hRows : store.Rows)

include hRows

/-- Outside counting loops no loop cell is owned. -/
theorem vacant (hFault : store.space.layout.fault? = none) (address : Address)
    (hLast : address ≤ store.space.layout.loop.last) : store.setting.owner address = none := by
  have hOrdered := Layout.ordered_of_fault? hFault
  have hLoopScalars := hOrdered.loopScalars
  have hScalars := hOrdered.scalars
  have hScalarsArrays := hOrdered.scalarsArrays
  have hHigh := UInt64.le_iff_toNat_le.mp hLast
  cases hOwner : store.setting.owner address with
  | none => rfl
  | some handle =>
      rcases hRows.owned address handle hOwner with hPlace | hPlace
      all_goals omega

end Rows

/-- Counters and heads of arrays have no part in the soundness of a store. -/
theorem Sound.recount {store : Store} (hSound : store.Sound) (space : Space)
    (hLayout : space.layout = store.space.layout) (hChunks : space.chunks = store.space.chunks) :
    Store.Sound { store with space := space } := by
  obtain ⟨layout, chunks, scalars, arrays, oversized, heads⟩ := space
  dsimp only at hLayout hChunks
  subst hLayout hChunks
  exact ⟨⟨hSound.arena, hSound.layout, hSound.enough, hSound.pointer, hSound.states,
    hSound.occupants, hSound.occupantNames, hSound.entryNames, hSound.cells, hSound.strays,
    hSound.names, hSound.owners, hSound.bases⟩, hSound.stale⟩

/-! ### Scalars -/

section Scalars

variable {store : Store}

/-- The next cell behind the scalars. -/
theorem next_scalars (hRows : store.Rows) (hFault : store.space.layout.fault? = none)
    {address : Address} (hNext : store.space.next? .scalars = some address) :
    address.toNat = store.space.layout.scalars.first.toNat + store.space.scalars.toNat ∧
      store.space.scalars.toNat < store.space.layout.scalars.size.toNat ∧
      address.toNat ≤ store.space.layout.scalars.last.toNat ∧
      store.setting.owner address = none := by
  have hOrdered := Layout.ordered_of_fault? hFault
  have hSize := hOrdered.toNat_size_scalars
  have hScalars := hOrdered.scalars
  have hScalarsArrays := hOrdered.scalarsArrays
  have hLimit := store.space.layout.scalars.last.toNat_lt
  simp only [Space.next?] at hNext
  split at hNext
  · contradiction
  · rename_i hRoom
    rw [UInt64.le_iff_toNat_le] at hRoom
    have hPlace : address.toNat =
        store.space.layout.scalars.first.toNat + store.space.scalars.toNat := by
      rw [← Option.some.inj hNext, UInt64.toNat_add]
      omega
    refine ⟨hPlace, by omega, by omega, ?_⟩
    cases hOwner : store.setting.owner address with
    | none => rfl
    | some handle =>
        rcases hRows.owned address handle hOwner with hWhere | hWhere
        all_goals omega

end Scalars

end Store

namespace StoreAction

open Store (Loose Rows)

/-- A new scalar takes no cell yet. -/
theorem createScalar_gives {store : Store} (hSound : store.Sound) (hRows : store.Rows)
    (name : String) :
    ∃ handle after, (create (.plain (.unknown name))).Gives store handle after ∧ after.Sound ∧
      after.Rows ∧ after.setting = store.setting ∧ after.registers = store.registers ∧
      after.Loose handle ∧
      after.arena.get? handle = some (.ofPayload (.plain (.unknown name))) :=
  ⟨_, _, create_gives store _, Store.sound_create hSound _,
    ⟨hRows.scalars, hRows.arrays, hRows.owned⟩, Store.setting_create hSound _, rfl,
    Store.loose_create hSound _, Arena.get?_create_self hSound.arena _⟩

/-- A scalar takes the next cell of its segment, unless the segment is full. -/
theorem allocate_scalars_run {store : Store} (hSound : store.Sound) (hRows : store.Rows)
    {handle : Handle} (hLoose : store.Loose handle)
    (hUnknown : (store.arena.get? handle).bind Value.known? = none) :
    (∃ range, (allocate .scalars handle).Refuses store (.segmentFull .scalars range)) ∨
      ∃ address after, (allocate .scalars handle).Gives store address after ∧ after.Sound ∧
        after.Rows ∧ after.setting = store.setting.claim address handle ∧
        address < store.space.layout.arrays.first ∧
        after.registers = store.registers ∧
        ∀ other, after.arena.get? other = (store.claim address handle).arena.get? other := by
  cases hNext : store.space.next? .scalars with
  | none =>
      refine .inl ⟨store.space.layout.scalars, Gives.refuses (.get store) ?_⟩
      refine Gives.refuses (.get store) ?_
      simp only [hNext]
      exact .throw _ store
  | some address =>
      obtain ⟨hPlace, hRoom, hLast, hFree⟩ := Store.next_scalars hRows hSound.layout hNext
      have hClaimed := Store.sound_claim hSound hLoose hUnknown hFree
      have hSetting := Store.setting_claim address hLoose
      let claimed := store.claim address handle
      let after : Store := { claimed with
        space := { claimed.space with scalars := claimed.space.scalars + 1 } }
      have hCount : after.space.scalars.toNat = store.space.scalars.toNat + 1 := by
        have hLimit := store.space.layout.scalars.size.toNat_lt
        change (store.space.scalars + 1).toNat = _
        rw [UInt64.toNat_add]
        change (_ + 1) % _ = _
        omega
      have hCounted : after.Sound := hClaimed.recount _ rfl rfl
      refine .inr ⟨address, after, ?_, hCounted, ?_, hSetting, ?_, rfl, fun _ => rfl⟩
      · refine .bind (.get store) (.bind (.get store) ?_)
        simp only [hNext]
        exact .bind (place_gives hLoose hFree) (.bind (.modify _ claimed) (.pure address _))
      · refine ⟨by rw [hCount]; exact hRoom, hRows.arrays, ?_⟩
        intro other found hOwner
        have hOwner : (store.setting.claim address handle).owner other = some found := by
          rw [← hSetting]
          exact hOwner
        change (store.space.layout.scalars.first.toNat ≤ _ ∧
          _ < store.space.layout.scalars.first.toNat + after.space.scalars.toNat) ∨ _
        rw [hCount]
        by_cases hSame : other = address
        · rw [hSame, hPlace]
          exact .inl ⟨by omega, by omega⟩
        · simp only [Setting.claim, Function.update_of_ne hSame] at hOwner
          rcases hRows.owned other found hOwner with hWhere | hWhere
          · exact .inl ⟨hWhere.1, by omega⟩
          · exact .inr hWhere
      · rw [UInt64.lt_iff_toNat_lt]
        have hScalarsArrays := (Layout.ordered_of_fault? hSound.layout).scalarsArrays
        omega

end StoreAction

/-! ### Arrays -/

namespace Setting

def describe (setting : Setting) (ref : ArrayRef) (base : Option Nat) (length : Int) : Setting :=
  { setting with array := Function.update setting.array ref (base, length) }

def bindArray (setting : Setting) (name : String) (ref : ArrayRef) : Setting :=
  { setting with declared := Function.update setting.declared name (some (.array, .array ref)) }

end Setting

namespace Store

section Arrays

variable {store : Store}

/-- No name stands for an array that is only being described. -/
def Undeclared (store : Store) (ref : ArrayRef) : Prop :=
  ∀ name kind, store.setting.declared name ≠ some (kind, .array ref)

/-- The array described next is not declared. -/
theorem undeclared_next (hLinked : store.Linked) : store.Undeclared store.arena.arrays.size := by
  intro name kind hDeclared
  obtain ⟨base, hBase, -⟩ := hLinked.bases name kind _ hDeclared
  have hNone : (store.arena.array store.arena.arrays.size).base = none := by
    simp only [Arena.array, Array.getD_eq_getD_getElem?, Array.getElem?_eq_none (Nat.le_refl _),
      Option.getD_none]
    rfl
  have hFound : (store.arena.array store.arena.arrays.size).base = some base := hBase
  rw [hNone] at hFound
  contradiction

private theorem sound_describe (hSound : store.Sound) {arena : Arena} {ref : ArrayRef}
    (hUndeclared : store.Undeclared ref) {base : Option Nat} {length : Int}
    (hSetting : Store.setting { store with arena := arena } =
      store.setting.describe ref base length)
    (hSlots : arena.slots = store.arena.slots)
    (hFree : arena.freeSlots = store.arena.freeSlots) :
    Store.Sound { store with arena := arena } := by
  obtain ⟨slots, freeSlots, live, arrays⟩ := arena
  dsimp only at hSlots hFree
  subst hSlots hFree
  refine ⟨⟨⟨hSound.arena.nodup, hSound.arena.empty, hSound.arena.used⟩, hSound.layout,
    hSound.enough, hSound.pointer, hSound.states, hSound.occupants, hSound.occupantNames,
    hSound.entryNames, hSound.cells, hSound.strays, hSound.names, hSound.owners, ?_⟩, hSound.stale⟩
  intro name kind other hDeclared
  have hDeclared : store.setting.declared name = some (kind, .array other) := hDeclared
  have hOther : other ≠ ref := by
    rintro rfl
    exact hUndeclared name kind hDeclared
  rw [hSetting]
  simp only [Setting.describe, Function.update_of_ne hOther]
  exact hSound.bases name kind other hDeclared

private theorem setting_createArray (store : Store) (name : String) (length : Int) :
    Store.setting { store with arena := (store.arena.createArray name length).2 } =
      store.setting.describe store.arena.arrays.size none length := by
  refine Setting.ext rfl rfl rfl rfl rfl rfl ?_
  funext other
  simp only [setting, Setting.describe, Function.update_apply, Arena.createArray, Arena.array,
    Array.getD_eq_getD_getElem?, Array.getElem?_push]
  split
  · rfl
  · rfl

private theorem setting_modifyArray {ref : ArrayRef} (hBound : ref < store.arena.arrays.size)
    (change : ArrayInfo → ArrayInfo) :
    Store.setting { store with arena := store.arena.modifyArray ref change } =
      store.setting.describe ref (change (store.arena.array ref)).base
        (change (store.arena.array ref)).length := by
  refine Setting.ext rfl rfl rfl rfl rfl rfl ?_
  funext other
  simp only [setting, Setting.describe, Function.update_apply]
  rw [Arena.array_modifyArray _ _ _ _ hBound]
  split <;> rfl

def bindArray (store : Store) (name : String) (ref : ArrayRef) : Store :=
  { store with
    symbols := { store.symbols with
      byName := store.symbols.byName.set name ⟨name, .array, .array ref, true⟩
      byArray := (ref, name) :: SymbolTable.without ref store.symbols.byArray } }

private theorem lookup?_bindArray (store : Store) (name : String) (ref : ArrayRef)
    (other : String) :
    (store.bindArray name ref).symbols.lookup? other =
      if other = name then some ⟨name, .array, .array ref, true⟩
      else store.symbols.lookup? other :=
  OrderedMap.get?_set _ _ _ _

theorem setting_bindArray (store : Store) (name : String) (ref : ArrayRef) :
    (store.bindArray name ref).setting = store.setting.bindArray name ref := by
  refine Setting.ext rfl rfl ?_ rfl rfl rfl rfl
  funext other
  simp only [setting, lookup?_bindArray, Setting.bindArray, Function.update_apply]
  split <;> rfl

/-- A placed array may get a new name. -/
theorem sound_bindArray (hSound : store.Sound) {name : String}
    (hNew : store.setting.declared name = none) {ref : ArrayRef} {base : Nat}
    (hBase : (store.setting.array ref).1 = some base) (hStart : store.setting.arraysStart ≤ base) :
    (store.bindArray name ref).Sound := by
  have hSetting := setting_bindArray store name ref
  have hOthers : ∀ {other : String} {kind : SymbolKind} {handle : Handle},
      store.setting.declared other = some (kind, .value handle) → other ≠ name := by
    rintro other kind handle hFound rfl
    rw [hNew] at hFound
    contradiction
  refine ⟨⟨hSound.arena, hSound.layout, hSound.enough, hSound.pointer, hSound.states,
    hSound.occupants, hSound.occupantNames, ?_, ?_, hSound.strays, ?_, hSound.owners, ?_⟩, ?_⟩
  · intro other entry hEntry
    rw [lookup?_bindArray] at hEntry
    split at hEntry
    · rename_i hSame
      rw [hSame, ← Option.some.inj hEntry]
    · exact hSound.entryNames other entry hEntry
  · intro other kind handle hFound
    rw [hSetting] at hFound
    simp only [Setting.bindArray, Function.update_apply] at hFound
    split at hFound
    · cases hFound
    · exact hSound.cells other kind handle hFound
  · intro handle other hName
    obtain ⟨kind, hFound⟩ := hSound.names handle other hName
    refine ⟨kind, ?_⟩
    rw [hSetting]
    simp only [Setting.bindArray, Function.update_of_ne (hOthers hFound), hFound]
  · intro other kind found hFound
    rw [hSetting] at hFound ⊢
    simp only [Setting.bindArray, Function.update_apply] at hFound
    split at hFound
    · cases hFound
      exact ⟨base, hBase, hStart⟩
    · exact hSound.bases other kind found hFound
  · intro other entry hEntry hStale
    rw [lookup?_bindArray] at hEntry
    split at hEntry
    · rw [← Option.some.inj hEntry] at hStale
      contradiction
    · exact hSound.stale other entry hEntry hStale

end Arrays

end Store

namespace StoreAction

open Store (Loose Rows Undeclared)

theorem declare_array_gives {store : Store} {name : String} (hName : name ≠ "")
    (hNew : store.setting.declared name = none) (ref : ArrayRef) :
    (declare name .array (.array ref)).Gives store () (store.bindArray name ref) :=
  declare_gives (SymbolTable.declare_of_new hName (Option.map_eq_none_iff.mp hNew) .array _)

/-- A new array has no elements, so its head comes into being without a cell. -/
theorem head_gives {store : Store} (hSound : store.Sound) {ref : ArrayRef}
    (hInside : (store.arena.array ref).inRange 0 = true)
    (hBlank : (store.arena.array ref).elements = []) :
    ∃ head after, (element ref 0).Gives store head after ∧ after.Sound ∧
      after.setting = store.setting ∧ after.registers = store.registers ∧
      after.symbols = store.symbols ∧ after.space = store.space ∧ after.Loose head ∧
      after.arena.arrays.size = store.arena.arrays.size ∧
      ∃ slot, after.arena.get? head =
        some (.ofPayload (.element ⟨some slot, some 0, none, some ref⟩)) ∧
          slot.symbolic = true := by
  have hUnused : store.arena.usedElement? ref 0 = none := by
    simp only [Arena.usedElement?, hBlank, List.find?_nil]
  let slot := (store.arena.array ref).newSlot (toString (0 : Int))
  let payload := Payload.element ⟨some slot, some 0, none, some ref⟩
  let created : Store := { store with arena := (store.arena.create payload).2 }
  let head := (store.arena.create payload).1
  let note (info : ArrayInfo) : ArrayInfo := { info with elements := info.elements ++ [head] }
  let after : Store := { store with arena := created.arena.modifyArray ref note }
  have hCreated := Store.sound_create hSound payload
  have hSetting := Store.setting_create hSound payload
  have hNoted : Store.SameNamed created after :=
    ⟨Arena.wellFormed_modifyArray hCreated.arena _ _, fun _ _ => rfl, fun _ => rfl,
      hCreated.strays, fun other => Arena.array_modifyArray_same created.arena ref other
        (fun _ => rfl) (fun _ => rfl), rfl, rfl, rfl⟩
  have hSame : after.setting = created.setting := hNoted.setting_eq rfl rfl
  refine ⟨head, after, ?_, hNoted.sound hCreated ?_, hSame.trans hSetting, rfl, rfl, rfl,
    (Store.loose_create hSound payload).congr hSame id, ?_, slot,
    Arena.get?_create_self hSound.arena payload, rfl⟩
  · refine .bind (.get store) ?_
    simp only [Arena.element?, hInside, if_true, hUnused]
    exact .bind (.modify _ store) (.pure _ _)
  · rw [hSame]
    exact hCreated.owners
  · simp [after, created, Arena.modifyArray]

end StoreAction

/-- A step that describes a new array and its head, which have no cells yet. -/
structure Store.DescribesArray (before after : Store) (length : Nat) (head : Handle) : Prop where
  sound : after.Sound
  rows : after.Rows
  registers : after.registers = before.registers
  symbols : after.symbols = before.symbols
  setting : after.setting = before.setting.describe before.arena.arrays.size none length
  bound : before.arena.arrays.size < after.arena.arrays.size
  loose : after.Loose head
  unknown : (after.arena.get? head).bind Value.known? = none

namespace Store.DescribesArray

variable {before after : Store} {length : Nat} {head : Handle}
  (hDescribes : before.DescribesArray after length head)

include hDescribes

theorem declared : after.setting.declared = before.setting.declared := by
  rw [hDescribes.setting]
  rfl

theorem array :
    after.setting.array before.arena.arrays.size = (none, (length : Int)) := by
  rw [hDescribes.setting]
  exact Function.update_self _ _ _

theorem length_eq : (after.arena.array before.arena.arrays.size).length = (length : Int) :=
  congrArg Prod.snd hDescribes.array

theorem undeclared (hSound : before.Sound) : after.Undeclared before.arena.arrays.size := by
  intro name kind
  rw [hDescribes.declared]
  exact Store.undeclared_next hSound.toLinked name kind

end Store.DescribesArray

theorem StoreAction.describeArray_gives {store : Store} (hSound : store.Sound)
    (hRows : store.Rows) (name : String) {length : Nat} (hLength : length ≠ 0) :
    ∃ described head after,
      (StoreAction.createArray name length).Gives store store.arena.arrays.size described ∧
        (StoreAction.element store.arena.arrays.size 0).Gives described head after ∧
        store.DescribesArray after length head := by
  let ref := store.arena.arrays.size
  let described : Store := { store with arena := (store.arena.createArray name length).2 }
  have hSetting := Store.setting_createArray store name length
  have hDescribed : described.Sound :=
    Store.sound_describe hSound (Store.undeclared_next hSound.toLinked) hSetting rfl rfl
  have hLast : described.arena.array ref = .unplaced name length := by
    simp [described, ref, Arena.createArray, Arena.array]
  have hInside : (described.arena.array ref).inRange 0 = true := by
    rw [hLast]
    simpa [ArrayInfo.inRange, ArrayInfo.unplaced] using Nat.pos_of_ne_zero hLength
  obtain ⟨head, after, hHead, hAfter, hAfterSetting, hRegisters, hSymbols, hSpace, hLoose, hSize,
    slot, hValue, hSymbolic⟩ := StoreAction.head_gives hDescribed hInside (by rw [hLast]; rfl)
  refine ⟨described, head, after, .bind (.get _) (.bind (.modify _ _) (.pure ref _)), hHead,
    hAfter, ?_, hRegisters, hSymbols, hAfterSetting.trans hSetting, ?_, hLoose, ?_⟩
  · refine ⟨by rw [hSpace]; exact hRows.scalars, by rw [hSpace]; exact hRows.arrays, ?_⟩
    rw [hSpace, hAfterSetting]
    exact hRows.owned
  · rw [hSize]
    simp [described, Arena.createArray]
  · rw [hValue]
    simp only [Option.bind_some, Value.known?, Value.isSymbolic, Value.ofPayload, Value.plain?,
      Option.map_some, Option.getD_some, hSymbolic, if_true]

namespace Value

private theorem setBig_eq (value : Value) (big : Bool) :
    (value.setBig big).known? = value.known? ∧ (value.setBig big).register = value.register ∧
      (value.setBig big).chunk = value.chunk := by
  obtain ⟨payload, register, chunk⟩ := value
  cases payload with
  | constant constant => exact ⟨rfl, rfl, rfl⟩
  | plain scalar => exact ⟨rfl, rfl, rfl⟩
  | missing => exact ⟨rfl, rfl, rfl⟩
  | element element =>
      obtain ⟨slot, offset, index, array⟩ := element
      cases slot with
      | none => exact ⟨rfl, rfl, rfl⟩
      | some slot => exact ⟨rfl, rfl, rfl⟩

end Value

theorem Store.sound_setBig {store : Store} (hSound : store.Sound) {handle : Handle}
    (hUnnamed : store.setting.nameOf handle = none) :
    Store.Sound { store with arena := store.arena.modify handle (·.setBig true) } ∧
      Store.setting { store with arena := store.arena.modify handle (·.setBig true) } =
        store.setting := by
  have hField : ∀ {β : Type} (read : Value → Option β),
      (∀ value : Value, read (value.setBig true) = read value) → ∀ other,
        ((store.arena.modify handle (·.setBig true)).get? other).bind read =
          (store.arena.get? other).bind read := by
    intro β read hRead other
    rw [Arena.get?_modify]
    split
    · rename_i hSame
      rw [hSame]
      cases store.arena.get? handle with
      | none => rfl
      | some value => exact hRead value
    · rfl
  have hSame : SameNamed store
      { store with arena := store.arena.modify handle (·.setBig true) } := by
    refine ⟨Arena.wellFormed_modify hSound.arena _ _, ?_, ?_, ?_, ?_, rfl, rfl, rfl⟩
    · intro other hNamed
      rw [Arena.get?_modify, if_neg]
      rintro rfl
      rw [hUnnamed] at hNamed
      contradiction
    · exact hField Value.register fun value => (value.setBig_eq true).2.1
    · intro other value hValue hNone hPlaced
      rw [Arena.get?_modify] at hValue
      split at hValue
      · obtain ⟨found, hFound, rfl⟩ := Option.map_eq_some_iff.mp hValue
        rw [(found.setBig_eq true).2.2] at hPlaced
        rw [(found.setBig_eq true).1]
        exact hSound.strays handle found hFound hUnnamed hPlaced
      · exact hSound.strays other value hValue hNone hPlaced
    · intro ref
      simp only [Arena.array_congr (Arena.arrays_modify store.arena handle _), and_self]
  have hSetting := hSame.setting_eq rfl
    (funext (hField Value.chunk fun value => (value.setBig_eq true).2.2))
  refine ⟨hSame.sound hSound ?_, hSetting⟩
  rw [hSetting]
  exact hSound.owners

structure Store.PlacesArray (before after : Store) (ref : ArrayRef) (base : Nat) : Prop where
  sound : after.Sound
  rows : after.Rows
  registers : after.registers = before.registers
  symbols : after.symbols = before.symbols
  layout : after.space.layout = before.space.layout
  known : after.setting.known = before.setting.known
  array : after.setting.array =
    Function.update before.setting.array ref (some base, (before.setting.array ref).2)
  start : before.setting.arraysStart ≤ base
  live : ∀ handle, (before.arena.get? handle).isSome = true →
    (after.arena.get? handle).isSome = true

namespace Store

variable {store : Store} (hSound : store.Sound) (hRows : store.Rows) {ref : ArrayRef}
  (hBound : ref < store.arena.arrays.size) (hUndeclared : store.Undeclared ref)

include hSound hRows hBound hUndeclared

/-- An array that fits its segment starts behind the others, and its head takes the first
cell. -/
theorem placesArray_native {head : Handle} (hLoose : store.Loose head)
    (hUnknown : (store.arena.get? head).bind Value.known? = none) {count : UInt64}
    (hCount : 0 < count.toNat)
    (hRoom : store.space.arrays.toNat + count.toNat ≤ store.space.layout.arrays.size.toNat)
    (heads : OrderedMap Address ArrayRef) {change : ArrayInfo → ArrayInfo}
    (hChange : ∀ info, (change info).length = info.length ∧ (change info).base =
      some (store.space.layout.arrays.first + store.space.arrays).toNat) :
    store.setting.owner (store.space.layout.arrays.first + store.space.arrays) = none ∧
      PlacesArray store
        { store.claim (store.space.layout.arrays.first + store.space.arrays) head with
          space := { (store.claim (store.space.layout.arrays.first + store.space.arrays)
            head).space with arrays := store.space.arrays + count, heads := heads }
          arena := (store.claim (store.space.layout.arrays.first + store.space.arrays)
            head).arena.modifyArray ref change }
        ref (store.space.layout.arrays.first + store.space.arrays).toNat := by
  have hOrdered := Layout.ordered_of_fault? hSound.layout
  have hSize := hOrdered.toNat_size_arrays
  have hArrays := hOrdered.arrays
  have hScalars := hOrdered.scalars
  have hScalarsArrays := hOrdered.scalarsArrays
  have hScalarRow := hRows.scalars
  have hScalarSize := hOrdered.toNat_size_scalars
  have hLimit := store.space.layout.arrays.last.toNat_lt
  have hPlace : (store.space.layout.arrays.first + store.space.arrays).toNat =
      store.space.layout.arrays.first.toNat + store.space.arrays.toNat := by
    rw [UInt64.toNat_add]
    omega
  have hMore : (store.space.arrays + count).toNat = store.space.arrays.toNat + count.toNat := by
    rw [UInt64.toNat_add]
    omega
  generalize hAddress : store.space.layout.arrays.first + store.space.arrays = address at *
  have hFree : store.setting.owner address = none := by
    cases hOwner : store.setting.owner address with
    | none => rfl
    | some handle =>
        rcases hRows.owned address handle hOwner with hWhere | hWhere
        all_goals omega
  have hClaimed := sound_claim hSound hLoose hUnknown hFree
  have hSetting := setting_claim address hLoose
  have hClaimedBound : ref < (store.claim address head).arena.arrays.size := by
    rw [claim, Arena.arrays_modify]
    exact hBound
  have hSameArray : (store.claim address head).arena.array ref = store.arena.array ref :=
    Arena.array_congr (Arena.arrays_modify _ _ _) ref
  have hDescribed := setting_modifyArray hClaimedBound change
  rw [hSameArray, (hChange _).1, (hChange _).2, hSetting] at hDescribed
  have hStill : (store.claim address head).Undeclared ref := by
    intro name kind
    rw [hSetting]
    exact hUndeclared name kind
  rw [← hSetting] at hDescribed
  have hDescribedSound := sound_describe hClaimed hStill hDescribed rfl rfl
  rw [hSetting] at hDescribed
  refine ⟨hFree, hDescribedSound.recount _ rfl rfl, ⟨hRows.scalars, ?_, ?_⟩, rfl, rfl, rfl, ?_, ?_,
    ?_, ?_⟩
  · change (store.space.arrays + count).toNat ≤ _
    rw [hMore]
    exact hRoom
  · intro other found hOwner
    have hOwner : (store.setting.claim address head).owner other = some found := by
      rw [← hSetting]
      exact hOwner
    change _ ∨ store.space.layout.arrays.first.toNat ≤ other.toNat ∧
      other.toNat < store.space.layout.arrays.first.toNat + (store.space.arrays + count).toNat
    rw [hMore]
    by_cases hSame : other = address
    · rw [hSame, hPlace]
      exact .inr ⟨by omega, by omega⟩
    · simp only [Setting.claim, Function.update_of_ne hSame] at hOwner
      rcases hRows.owned other found hOwner with hWhere | hWhere
      · exact .inl hWhere
      · exact .inr ⟨hWhere.1, by omega⟩
  · have hKnown := congrArg Setting.known hDescribed
    exact hKnown
  · have hArray := congrArg Setting.array hDescribed
    exact hArray
  · change store.space.layout.arrays.first.toNat ≤ _
    omega
  · intro handle hLive
    change ((store.claim address head).arena.get? handle).isSome = true
    rw [get?_claim, Option.isSome_map]
    exact hLive

/-- An array that is too long for its segment starts above it. -/
theorem placesArray_big (oversized : Nat) {change : ArrayInfo → ArrayInfo}
    (hChange : ∀ info, (change info).length = info.length ∧ (change info).base =
      some (store.space.layout.oversizedStart + store.space.oversized)) :
    PlacesArray store
      { store with
        space := { store.space with oversized := oversized }
        arena := store.arena.modifyArray ref change }
      ref (store.space.layout.oversizedStart + store.space.oversized) := by
  have hOrdered := Layout.ordered_of_fault? hSound.layout
  have hArrays := hOrdered.arrays
  have hOversized := hOrdered.oversized
  have hDescribed := setting_modifyArray hBound change
  rw [(hChange _).1, (hChange _).2] at hDescribed
  have hDescribedSound := sound_describe hSound hUndeclared hDescribed rfl rfl
  have hKnown := congrArg Setting.known hDescribed
  have hArray := congrArg Setting.array hDescribed
  refine ⟨hDescribedSound.recount _ rfl rfl, ⟨hRows.scalars, hRows.arrays, hRows.owned⟩, rfl, rfl,
    rfl, hKnown, hArray, ?_, fun _ hLive => hLive⟩
  change store.space.layout.arrays.first.toNat ≤ _
  omega

end Store

namespace StoreAction

/-- An array is placed, in the array segment or above it, unless the segment is full. -/
theorem allocateArray_run {store : Store} (hSound : store.Sound) (hRows : store.Rows)
    {ref : ArrayRef} (hBound : ref < store.arena.arrays.size) (hUndeclared : store.Undeclared ref)
    (hLength : 0 < (store.arena.array ref).length) {head : Handle} (hLoose : store.Loose head)
    (hUnknown : (store.arena.get? head).bind Value.known? = none) :
    (∃ needed left, (allocateArray ref head).Refuses store (.arraysFull needed left)) ∨
      ∃ base after, (allocateArray ref head).Gives store () after ∧
        store.PlacesArray after ref base := by
  have hPositive : ¬(store.arena.array ref).length ≤ 0 := by omega
  have hArraysRow := hRows.arrays
  by_cases hFits : (store.arena.array ref).length ≤ store.space.layout.arrays.size.toNat
  · have hLimit := store.space.layout.arrays.size.toNat_lt
    have hCount : ((store.arena.array ref).length.toNat.toUInt64).toNat =
        (store.arena.array ref).length.toNat := by
      rw [Nat.toUInt64, UInt64.toNat_ofNat']
      omega
    have hLeft : (store.space.layout.arrays.size - store.space.arrays).toNat =
        store.space.layout.arrays.size.toNat - store.space.arrays.toNat :=
      UInt64.toNat_sub_of_le _ _ (UInt64.le_iff_toNat_le.mpr hArraysRow)
    by_cases hFull : store.space.layout.arrays.size - store.space.arrays <
        (store.arena.array ref).length.toNat.toUInt64
    · refine .inl ⟨((store.arena.array ref).length.toNat.toUInt64).toNat,
        (store.space.layout.arrays.size - store.space.arrays).toNat, Gives.refuses (.get store) ?_⟩
      simp only [hPositive, if_false, hFits, if_true, hFull]
      rfl
    · rw [UInt64.lt_iff_toNat_lt] at hFull
      let change : ArrayInfo → ArrayInfo := fun info => { info with
        base := some (store.space.layout.arrays.first + store.space.arrays).toNat
        kind := .native
        chunk := some (store.space.layout.arrays.first + store.space.arrays) }
      have hChange : ∀ info, (change info).length = info.length ∧ (change info).base =
          some (store.space.layout.arrays.first + store.space.arrays).toNat :=
        fun info => ⟨rfl, rfl⟩
      have hSome : 0 < ((store.arena.array ref).length.toNat.toUInt64).toNat := by omega
      obtain ⟨hFree, hPlaces⟩ := Store.placesArray_native hSound hRows hBound hUndeclared hLoose
        hUnknown hSome (by omega)
        (store.space.heads.set (store.space.layout.arrays.first + store.space.arrays) ref) hChange
      refine .inr ⟨_, _, .bind (.get store) ?_, hPlaces⟩
      rw [← UInt64.lt_iff_toNat_lt] at hFull
      simp only [hPositive, if_false, hFits, if_true, hFull]
      exact .bind (place_gives hLoose hFree) (.bind (.modify _ _) (.modify _ _))
  · let change : ArrayInfo → ArrayInfo := fun info => { info with
      base := some (store.space.layout.oversizedStart + store.space.oversized)
      kind := .big }
    have hChange : ∀ info, (change info).length = info.length ∧ (change info).base =
        some (store.space.layout.oversizedStart + store.space.oversized) := fun info => ⟨rfl, rfl⟩
    refine .inr ⟨_, _, .bind (.get store) ?_,
      Store.placesArray_big hSound hRows hBound hUndeclared
        (store.space.oversized + (store.arena.array ref).length.toNat) hChange⟩
    simp only [hPositive, if_false, hFits]
    exact .bind (.modify _ _) (.modify _ _)

end StoreAction

end RegisterCompiler
