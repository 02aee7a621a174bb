/-
What the operations on values, cells and names do.

Values without a name come and go without notice.  A value that takes a cell, a name
that is declared and a value that becomes known each change the setting in one place.
-/

import Mathlib.Logic.Function.Basic
import RegisterCompiler.Proofs.Store.Registers

set_option autoImplicit false

namespace RegisterCompiler
namespace Store

/-! ### Values without a name -/

/-- Two stores that differ in values without a name and in owned cells. -/
structure SameNamed (before after : Store) : Prop where
  arena : after.arena.WellFormed
  named : ∀ handle, (before.setting.nameOf handle).isSome = true →
    after.arena.get? handle = before.arena.get? handle
  register : ∀ handle, (after.arena.get? handle).bind Value.register =
    (before.arena.get? handle).bind Value.register
  strays : ∀ handle value, after.arena.get? handle = some value →
    before.setting.nameOf handle = none → value.chunk.isSome = true → value.known? = none
  array : ∀ ref, (after.arena.array ref).base = (before.arena.array ref).base ∧
    (after.arena.array ref).length = (before.arena.array ref).length
  layout : after.space.layout = before.space.layout
  registers : after.registers = before.registers
  symbols : after.symbols = before.symbols

namespace SameNamed

variable {before after : Store} (hSame : SameNamed before after)

include hSame

private theorem setting_eq_update : after.setting = { before.setting with
    owner := after.setting.owner, chunk := after.setting.chunk } := by
  refine Setting.ext hSame.layout ?_ ?_ rfl rfl ?_ ?_
  · funext handle
    simp only [setting, hSame.symbols]
  · funext name
    simp only [setting, hSame.symbols]
  · funext handle
    simp only [setting, hSame.symbols]
    split
    · rename_i hNamed
      rw [hSame.named handle hNamed]
    · rfl
  · funext ref
    obtain ⟨hBase, hLength⟩ := hSame.array ref
    simp only [setting, hBase, hLength]

theorem setting_eq (hOwner : after.setting.owner = before.setting.owner)
    (hChunk : after.setting.chunk = before.setting.chunk) : after.setting = before.setting := by
  rw [hSame.setting_eq_update, hOwner, hChunk]

private theorem register? (register : Int) :
    after.register? register = before.register? register := by
  simp only [Store.register?, hSame.registers]

private theorem occupant? (register : Int) :
    after.occupant? register = before.occupant? register := by
  simp only [Store.occupant?, hSame.register?]

/-- Soundness only asks that owners and cells still correspond. -/
theorem sound (hSound : before.Sound)
    (hOwners : ∀ address handle, after.setting.owner address = some handle ↔
      after.setting.chunk handle = some address) : after.Sound := by
  have hSetting := hSame.setting_eq_update
  exact {
    arena := hSame.arena
    layout := by rw [hSame.layout]; exact hSound.layout
    enough := by rw [hSame.registers]; exact hSound.enough
    pointer := by rw [hSame.register?]; exact hSound.pointer
    states := by
      intro register entry hEntry
      rw [hSame.register?] at hEntry
      exact hSound.states register entry hEntry
    occupants := by
      intro register handle
      have hRegister := hSame.register handle
      have hBound : ∀ found : Option Value, (∃ value, found = some value ∧
          value.register = some register) ↔ found.bind Value.register = some register := by
        intro found
        rw [Option.bind_eq_some_iff]
      rw [hSame.occupant?, hSound.occupants, hBound, hBound, hRegister]
    occupantNames := by
      intro register handle hOccupant
      rw [hSame.occupant?] at hOccupant
      rw [hSetting]
      exact hSound.occupantNames register handle hOccupant
    entryNames := by rw [hSame.symbols]; exact hSound.entryNames
    cells := by
      intro name kind handle hDeclared
      rw [hSetting] at hDeclared ⊢
      obtain ⟨hName, hValue⟩ := hSound.cells name kind handle hDeclared
      rw [hSame.named handle (by rw [hName]; rfl), hSame.layout]
      exact ⟨hName, hValue⟩
    strays := by rw [hSetting]; exact hSame.strays
    names := by rw [hSetting]; exact hSound.names
    owners := hOwners
    bases := by rw [hSetting]; exact hSound.bases
    stale := by
      intro name entry hEntry hStale
      rw [hSame.symbols] at hEntry
      obtain ⟨handle, register, hBinding, hOccupant⟩ := hSound.stale name entry hEntry hStale
      exact ⟨handle, register, hBinding, by rw [hSame.occupant?, hOccupant]⟩ }

end SameNamed

/-- A handle that refers to a value without a name and a cell. -/
structure Loose (store : Store) (handle : Handle) : Prop where
  live : (store.arena.get? handle).isSome = true
  unnamed : store.setting.nameOf handle = none
  unplaced : store.setting.chunk handle = none

theorem Loose.congr {before after : Store} {handle : Handle} (hLoose : before.Loose handle)
    (hSetting : after.setting = before.setting)
    (hLive : (before.arena.get? handle).isSome = true → (after.arena.get? handle).isSome = true) :
    after.Loose handle :=
  ⟨hLive hLoose.live, by rw [hSetting]; exact hLoose.unnamed,
    by rw [hSetting]; exact hLoose.unplaced⟩

theorem SameContent.loose {before after : Store} (hSame : SameContent before after)
    {handle : Handle} (hLoose : before.Loose handle) : after.Loose handle := by
  refine hLoose.congr hSame.setting_eq ?_
  intro hLive
  obtain ⟨value, hValue⟩ := Option.isSome_iff_exists.mp hLive
  obtain ⟨found, hFound, -⟩ := hSame.get?_of_get? hValue
  rw [hFound]
  rfl

private theorem Linked.uncached_of_unnamed {store : Store} (hLinked : store.Linked)
    {handle : Handle} (hUnnamed : store.setting.nameOf handle = none) :
    (store.arena.get? handle).bind Value.register = none := by
  cases hRegister : (store.arena.get? handle).bind Value.register with
  | none => rfl
  | some register =>
      obtain ⟨value, hValue, hBound⟩ := Option.bind_eq_some_iff.mp hRegister
      have hOccupant := (hLinked.occupants register handle).mpr ⟨value, hValue, hBound⟩
      have hNamed := hLinked.occupantNames register handle hOccupant
      rw [hUnnamed] at hNamed
      contradiction

private theorem Linked.live_of_named {store : Store} (hLinked : store.Linked) {handle : Handle}
    (hNamed : (store.setting.nameOf handle).isSome = true) :
    (store.arena.get? handle).isSome = true := by
  obtain ⟨name, hName⟩ := Option.isSome_iff_exists.mp hNamed
  obtain ⟨kind, hDeclared⟩ := hLinked.names handle name hName
  obtain ⟨-, value, -, hValue, -⟩ := hLinked.cells name kind handle hDeclared
  rw [hValue]
  rfl

section Creating

variable {store : Store} (hSound : store.Sound) (payload : Payload)

include hSound

private theorem sameNamed_create :
    SameNamed store { store with arena := (store.arena.create payload).2 } := by
  have hBefore := Arena.get?_create_before hSound.arena payload
  have hSelf := Arena.get?_create_self hSound.arena payload
  refine ⟨Arena.wellFormed_create hSound.arena payload, ?_, ?_, ?_, ?_, rfl, rfl, rfl⟩
  · intro handle hNamed
    refine Arena.get?_create_of_ne hSound.arena payload ?_
    rintro rfl
    have hLive := hSound.live_of_named hNamed
    rw [hBefore] at hLive
    contradiction
  · intro handle
    by_cases hNew : handle = (store.arena.create payload).1
    · subst hNew
      simp only [hSelf, hBefore]
      rfl
    · simp only [Arena.get?_create_of_ne hSound.arena payload hNew]
  · intro handle value hValue hUnnamed hPlaced
    by_cases hNew : handle = (store.arena.create payload).1
    · subst hNew
      rw [hSelf] at hValue
      cases hValue
      contradiction
    · rw [Arena.get?_create_of_ne hSound.arena payload hNew] at hValue
      exact hSound.strays handle value hValue hUnnamed hPlaced
  · intro ref
    simp only [Arena.array_congr (Arena.arrays_create store.arena payload), and_self]

theorem setting_create :
    Store.setting { store with arena := (store.arena.create payload).2 } = store.setting := by
  refine (sameNamed_create hSound payload).setting_eq rfl ?_
  funext handle
  by_cases hNew : handle = (store.arena.create payload).1
  · subst hNew
    simp only [setting, Arena.get?_create_self hSound.arena payload,
      Arena.get?_create_before hSound.arena payload]
    rfl
  · simp only [setting, Arena.get?_create_of_ne hSound.arena payload hNew]

theorem sound_create : Store.Sound { store with arena := (store.arena.create payload).2 } :=
  (sameNamed_create hSound payload).sound hSound
    (by rw [setting_create hSound payload]; exact hSound.owners)

theorem loose_create : Loose { store with arena := (store.arena.create payload).2 }
    (store.arena.create payload).1 := by
  have hSelf := Arena.get?_create_self hSound.arena payload
  refine ⟨by simp only [hSelf, Option.isSome_some], ?_, by simp only [setting, hSelf]; rfl⟩
  cases hName : (store.symbols.byValue.lookup (store.arena.create payload).1) with
  | none => exact hName
  | some name =>
      have hLive := hSound.live_of_named (Option.isSome_of_eq_some hName)
      rw [Arena.get?_create_before hSound.arena payload] at hLive
      contradiction

theorem Loose.create {handle : Handle} (hLoose : store.Loose handle) :
    Loose { store with arena := (store.arena.create payload).2 } handle ∧
      handle ≠ (store.arena.create payload).1 ∧
      (store.arena.create payload).2.get? handle = store.arena.get? handle := by
  have hOld : handle ≠ (store.arena.create payload).1 := by
    rintro rfl
    have hLive := hLoose.live
    rw [Arena.get?_create_before hSound.arena payload] at hLive
    contradiction
  have hSame := Arena.get?_create_of_ne hSound.arena payload hOld
  refine ⟨hLoose.congr (setting_create hSound payload) ?_, hOld, hSame⟩
  rw [hSame]
  exact id

end Creating

theorem free_of_loose {store : Store} (hSound : store.Sound) {handle : Handle}
    (hLoose : store.Loose handle) :
    ∃ value arena, store.arena.free? handle = some (value, arena) ∧
      SameNamed store { store with arena := arena } ∧
      Store.setting { store with arena := arena } = store.setting ∧
      Store.Sound { store with arena := arena } ∧
      ∀ other, other ≠ handle → arena.get? other = store.arena.get? other := by
  obtain ⟨value, hValue⟩ := Option.isSome_iff_exists.mp hLoose.live
  obtain ⟨arena, hFree, hWell, hArrays, hOthers⟩ := Arena.free?_of_get? hSound.arena hValue
  have hSame : SameNamed store { store with arena := arena } := by
    refine ⟨hWell, ?_, ?_, ?_, ?_, rfl, rfl, rfl⟩
    · intro other hNamed
      rw [hOthers, if_neg]
      rintro rfl
      rw [hLoose.unnamed] at hNamed
      contradiction
    · intro other
      rw [hOthers]
      split
      · rename_i hEqual
        rw [hEqual, hSound.uncached_of_unnamed hLoose.unnamed]
        rfl
      · rfl
    · intro other found hFound
      rw [hOthers] at hFound
      split at hFound
      · contradiction
      · exact hSound.strays other found hFound
    · intro ref
      simp only [Arena.array_congr hArrays, and_self]
  have hSetting : Store.setting { store with arena := arena } = store.setting := by
    refine hSame.setting_eq rfl ?_
    funext other
    simp only [setting, hOthers]
    split
    · rename_i hEqual
      have hUnplaced : (store.arena.get? handle).bind Value.chunk = none := hLoose.unplaced
      rw [hEqual, hUnplaced]
      rfl
    · rfl
  refine ⟨value, arena, hFree, hSame, hSetting, hSame.sound hSound ?_, ?_⟩
  · rw [hSetting]
    exact hSound.owners
  · intro other hOther
    rw [hOthers, if_neg hOther]

/-! ### Taking and giving back a cell -/

end Store

namespace Setting

def claim (setting : Setting) (address : Address) (handle : Handle) : Setting :=
  { setting with
    owner := Function.update setting.owner address (some handle)
    chunk := Function.update setting.chunk handle (some address) }

def disclaim (setting : Setting) (address : Address) (handle : Handle) : Setting :=
  { setting with
    owner := Function.update setting.owner address none
    chunk := Function.update setting.chunk handle none }

def claimRun (setting : Setting) (start : Address) : List Handle → Setting
  | [] => setting
  | handle :: rest => (setting.claim start handle).claimRun (start + 1) rest

theorem disclaim_claim {setting : Setting} {address : Address} {handle : Handle}
    (hOwner : setting.owner address = none) (hChunk : setting.chunk handle = none) :
    (setting.claim address handle).disclaim address handle = setting := by
  refine Setting.ext rfl rfl rfl ?_ ?_ rfl rfl
  · simp only [disclaim, claim, Function.update_idem]
    rw [← hOwner, Function.update_eq_self]
  · simp only [disclaim, claim, Function.update_idem]
    rw [← hChunk, Function.update_eq_self]

theorem disclaim_claimRun {setting : Setting} {address start : Address} {handle : Handle}
    {rest : List Handle} (hAddress : address.toNat < start.toNat)
    (hRange : start.toNat + rest.length ≤ UInt64.size) (hHandle : handle ∉ rest) :
    (setting.claimRun start rest).disclaim address handle =
      (setting.disclaim address handle).claimRun start rest := by
  induction rest generalizing setting start with
  | nil => rfl
  | cons other rest inductionHypothesis =>
      simp only [List.length_cons] at hRange
      simp only [List.mem_cons, not_or] at hHandle
      have hPlace : start ≠ address := by
        rintro rfl
        omega
      have hSwap : (setting.claim start other).disclaim address handle =
          (setting.disclaim address handle).claim start other := by
        simp only [claim, disclaim]
        rw [Function.update_comm hPlace, Function.update_comm (Ne.symm hHandle.1)]
      by_cases hLast : rest = []
      · subst hLast
        exact hSwap
      · have hMore : 0 < rest.length := List.length_pos_iff.mpr hLast
        have hNext : (start + 1).toNat = start.toNat + 1 := by
          rw [UInt64.toNat_add]
          exact Nat.mod_eq_of_lt (by
            have hSize : UInt64.size = 2 ^ 64 := rfl
            have hOne : (1 : UInt64).toNat = 1 := rfl
            omega)
        simp only [claimRun]
        rw [inductionHypothesis (by omega) (by omega) hHandle.2, hSwap]

/-- Loop cells in a row without owners, and as many values without names and cells. -/
structure Spare (setting : Setting) (start : Address) (handles : List Handle) : Prop where
  owners : ∀ address : Address, start.toNat ≤ address.toNat →
    address.toNat < start.toNat + handles.length → setting.owner address = none
  values : ∀ handle ∈ handles, setting.chunk handle = none ∧ setting.nameOf handle = none
  nodup : handles.Nodup
  first : setting.layout.loop.first.toNat ≤ start.toNat
  last : start.toNat + handles.length ≤ setting.layout.loop.last.toNat + 1

theorem Spare.next {setting : Setting} {start : Address} {handle other : Handle}
    {rest : List Handle} (hSpare : setting.Spare start (handle :: other :: rest)) :
    (start + 1).toNat = start.toNat + 1 := by
  have hLast := hSpare.last
  have hBound := setting.layout.loop.last.toNat_lt
  have hOne : (1 : UInt64).toNat = 1 := rfl
  simp only [List.length_cons] at hLast
  rw [UInt64.toNat_add]
  omega

/-- Behind the first cell the cells stay spare, whether the first one is taken or not. -/
theorem Spare.tail {setting : Setting} {start : Address} {handle : Handle} {rest : List Handle}
    (hSpare : setting.Spare start (handle :: rest)) (hMore : rest ≠ []) :
    setting.Spare (start + 1) rest ∧ (setting.claim start handle).Spare (start + 1) rest := by
  obtain ⟨other, later, rfl⟩ := List.exists_cons_of_ne_nil hMore
  have hNext := hSpare.next
  have hNodup := List.nodup_cons.mp hSpare.nodup
  have hFirst := hSpare.first
  have hLast := hSpare.last
  rw [List.length_cons] at hLast
  have hTail : setting.Spare (start + 1) (other :: later) := by
    refine ⟨?_, fun found hFound => hSpare.values found (List.mem_cons_of_mem _ hFound),
      hNodup.2, by omega, by omega⟩
    intro address hLow hHigh
    refine hSpare.owners address (by omega) ?_
    rw [List.length_cons]
    omega
  refine ⟨hTail, ?_, ?_, hTail.nodup, hTail.first, hTail.last⟩
  · intro address hLow hHigh
    have hAddress : address ≠ start := by
      rintro rfl
      omega
    simp only [claim, Function.update_of_ne hAddress]
    exact hTail.owners address hLow hHigh
  · intro found hFound
    have hOther : found ≠ handle := by
      rintro rfl
      exact hNodup.1 hFound
    simp only [claim, Function.update_of_ne hOther]
    exact hTail.values found hFound

end Setting

namespace Store

def claim (store : Store) (address : Address) (handle : Handle) : Store :=
  { store with
    space := { store.space with chunks := store.space.chunks.set address handle }
    arena := store.arena.modify handle fun value => { value with chunk := some address } }

theorem get?_claim (store : Store) (address : Address) (handle other : Handle) :
    (store.claim address handle).arena.get? other =
      (store.arena.get? other).map fun value =>
        if other = handle then { value with chunk := some address } else value := by
  simp only [claim, Arena.get?_modify]
  by_cases hSame : other = handle
  · subst hSame
    simp only [if_true]
  · simp only [hSame, if_false, Option.map_id']

/-- A cell that has no owner, and a value that has no cell. -/
structure Open (store : Store) (address : Address) (handle : Handle) : Prop where
  vacant : store.space.chunks.get? address = none
  unplaced : ∃ value, store.arena.get? handle = some value ∧ value.chunk = none

section Claim

variable {store : Store} {address : Address} {handle : Handle}

theorem setting_claim (address : Address) (hLoose : store.Loose handle) :
    (store.claim address handle).setting = store.setting.claim address handle := by
  refine Setting.ext rfl rfl rfl ?_ ?_ ?_ ?_
  · funext place
    simp only [setting, claim, OrderedMap.get?_set, Setting.claim, Function.update_apply]
  · funext other
    obtain ⟨value, hValue⟩ := Option.isSome_iff_exists.mp hLoose.live
    simp only [setting, get?_claim, Setting.claim, Function.update_apply]
    by_cases hSame : other = handle
    · subst hSame
      simp only [if_true, hValue, Option.map_some, Option.bind_some]
    · simp only [hSame, if_false, Option.map_id']
  · funext other
    simp only [setting, get?_claim, Setting.claim]
    have hSymbols : (store.claim address handle).symbols = store.symbols := rfl
    rw [hSymbols]
    split
    · cases store.arena.get? other with
      | none => rfl
      | some value =>
          simp only [Option.map_some, Option.bind_some]
          split <;> rfl
    · rfl
  · funext ref
    have hArray : (store.claim address handle).arena.array ref = store.arena.array ref :=
      Arena.array_congr (Arena.arrays_modify _ _ _) ref
    simp only [setting, hArray, Setting.claim]

private theorem sameNamed_claim (hSound : store.Sound) (hLoose : store.Loose handle)
    (hUnknown : (store.arena.get? handle).bind Value.known? = none) (address : Address) :
    SameNamed store (store.claim address handle) := by
  refine ⟨Arena.wellFormed_modify hSound.arena _ _, ?_, ?_, ?_, ?_, rfl, rfl, rfl⟩
  · intro other hNamed
    have hOther : other ≠ handle := by
      rintro rfl
      rw [hLoose.unnamed] at hNamed
      contradiction
    simp only [get?_claim, hOther, if_false, Option.map_id']
  · intro other
    rw [get?_claim]
    cases store.arena.get? other with
    | none => rfl
    | some value =>
        simp only [Option.map_some, Option.bind_some]
        split <;> rfl
  · intro other found hFound hUnnamed hPlaced
    rw [get?_claim] at hFound
    obtain ⟨value, hValue, hClaimed⟩ := Option.map_eq_some_iff.mp hFound
    split at hClaimed
    · rename_i hSame
      rw [← hSame, hValue] at hUnknown
      rw [← hClaimed]
      exact hUnknown
    · rw [← hClaimed] at hPlaced ⊢
      exact hSound.strays other value hValue hUnnamed hPlaced
  · intro ref
    have hArray : (store.claim address handle).arena.array ref = store.arena.array ref :=
      Arena.array_congr (Arena.arrays_modify _ _ _) ref
    rw [hArray]
    exact ⟨rfl, rfl⟩

theorem sound_claim (hSound : store.Sound) (hLoose : store.Loose handle)
    (hUnknown : (store.arena.get? handle).bind Value.known? = none)
    (hFree : store.setting.owner address = none) : (store.claim address handle).Sound := by
  have hSame : SameNamed store (store.claim address handle) :=
    sameNamed_claim hSound hLoose hUnknown address
  refine hSame.sound hSound ?_
  intro place other
  rw [setting_claim address hLoose]
  simp only [Setting.claim, Function.update_apply]
  by_cases hPlace : place = address
  · subst hPlace
    by_cases hOther : other = handle
    · simp [hOther]
    · simp only [if_true, hOther, if_false, Option.some.injEq]
      refine iff_of_false (fun hEqual => hOther hEqual.symm) ?_
      intro hChunk
      rw [(hSound.owners place other).mpr hChunk] at hFree
      contradiction
  · by_cases hOther : other = handle
    · subst hOther
      simp only [if_true, hPlace, if_false, Option.some.injEq]
      refine iff_of_false ?_ (fun hEqual => hPlace hEqual.symm)
      intro hOwner
      have hUnplaced := hLoose.unplaced
      rw [(hSound.owners place other).mp hOwner] at hUnplaced
      contradiction
    · simp only [hPlace, if_false, hOther]
      exact hSound.owners place other

end Claim

def disclaim (store : Store) (address : Address) (handle : Handle) : Store :=
  { store with
    space := { store.space with chunks := store.space.chunks.erase address }
    arena := store.arena.modify handle fun value => { value with chunk := none } }

section Disclaim

variable {store : Store} {address : Address} {handle : Handle}

theorem get?_disclaim (store : Store) (address : Address) (handle other : Handle) :
    (store.disclaim address handle).arena.get? other =
      (store.arena.get? other).map fun value =>
        if other = handle then { value with chunk := none } else value := by
  simp only [disclaim, Arena.get?_modify]
  by_cases hSame : other = handle
  · subst hSame
    simp only [if_true]
  · simp only [hSame, if_false, Option.map_id']

private theorem sameNamed_disclaim (hSound : store.Sound)
    (hUnnamed : store.setting.nameOf handle = none) (address : Address) :
    SameNamed store (store.disclaim address handle) := by
  refine ⟨Arena.wellFormed_modify hSound.arena _ _, ?_, ?_, ?_, ?_, rfl, rfl, rfl⟩
  · intro other hNamed
    have hOther : other ≠ handle := by
      rintro rfl
      rw [hUnnamed] at hNamed
      contradiction
    simp only [get?_disclaim, hOther, if_false, Option.map_id']
  · intro other
    rw [get?_disclaim]
    cases store.arena.get? other with
    | none => rfl
    | some value =>
        simp only [Option.map_some, Option.bind_some]
        split <;> rfl
  · intro other found hFound hOther hPlaced
    rw [get?_disclaim] at hFound
    obtain ⟨value, hValue, hCleared⟩ := Option.map_eq_some_iff.mp hFound
    split at hCleared
    · rw [← hCleared] at hPlaced
      contradiction
    · rw [← hCleared] at hPlaced ⊢
      exact hSound.strays other value hValue hOther hPlaced
  · intro ref
    have hArray : (store.disclaim address handle).arena.array ref = store.arena.array ref :=
      Arena.array_congr (Arena.arrays_modify _ _ _) ref
    rw [hArray]
    exact ⟨rfl, rfl⟩

private theorem setting_disclaim (address : Address) (hSound : store.Sound)
    (hUnnamed : store.setting.nameOf handle = none) :
    (store.disclaim address handle).setting = store.setting.disclaim address handle := by
  rw [(sameNamed_disclaim hSound hUnnamed address).setting_eq_update]
  refine Setting.ext rfl rfl rfl ?_ ?_ rfl rfl
  · funext place
    simp only [setting, disclaim, OrderedMap.get?_erase, Setting.disclaim, Function.update_apply]
  · funext other
    simp only [setting, get?_disclaim, Setting.disclaim, Function.update_apply]
    by_cases hSame : other = handle
    · subst hSame
      cases store.arena.get? other <;> simp
    · simp only [hSame, if_false, Option.map_id']

private theorem sound_disclaim (hSound : store.Sound)
    (hUnnamed : store.setting.nameOf handle = none)
    (hOwner : store.setting.owner address = some handle) :
    (store.disclaim address handle).Sound := by
  refine (sameNamed_disclaim hSound hUnnamed address).sound hSound ?_
  intro place other
  rw [setting_disclaim address hSound hUnnamed]
  simp only [Setting.disclaim, Function.update_apply]
  by_cases hPlace : place = address
  · subst hPlace
    by_cases hOther : other = handle
    · simp [hOther]
    · simp only [if_true, hOther, if_false]
      refine iff_of_false (Option.some_ne_none other).symm ?_
      intro hChunk
      rw [(hSound.owners place other).mpr hChunk] at hOwner
      exact hOther (Option.some.inj hOwner)
  · by_cases hOther : other = handle
    · subst hOther
      simp only [if_true, hPlace, if_false]
      refine iff_of_false ?_ (Option.some_ne_none place).symm
      intro hFound
      have hChunk := (hSound.owners address other).mp hOwner
      rw [(hSound.owners place other).mp hFound] at hChunk
      exact hPlace (Option.some.inj hChunk)
    · simp only [hPlace, if_false, hOther]
      exact hSound.owners place other

end Disclaim

end Store

namespace StoreAction

open Store (Loose SameNamed)

theorem create_gives (store : Store) (payload : Payload) :
    (create payload).Gives store (store.arena.create payload).1
      { store with arena := (store.arena.create payload).2 } :=
  rfl

theorem free_gives {store : Store} {handle : Handle} {found : Value} {arena : Arena}
    (hFree : store.arena.free? handle = some (found, arena)) :
    (free handle).Gives store found { store with arena := arena } := by
  refine .bind (.get store) ?_
  rw [hFree]
  exact .bind (.modify _ store) (.pure found _)

theorem dynamicElement_gives (store : Store) (ref : ArrayRef) (index : String) :
    ∃ payload, (dynamicElement ref index).Gives store (store.arena.create payload).1
      { store with arena := (store.arena.create payload).2 } :=
  ⟨_, rfl⟩

/-! ### Cells in a row -/

theorem place_gives_of_open {store : Store} {address : Address} {handle : Handle}
    (hOpen : store.Open address handle) :
    (place address handle).Gives store () (store.claim address handle) := by
  obtain ⟨hVacant, found, hLive, hUnplaced⟩ := hOpen
  refine .bind (value_gives hLive) (.bind (.get store) ?_)
  rw [hUnplaced]
  have hRecord : (recordOwner address handle).Gives store () { store with
      space := { store.space with chunks := store.space.chunks.set address handle } } := by
    refine .bind (.get store) ?_
    simp only [OrderedMap.insert?, OrderedMap.contains, hVacant]
    exact .modify _ store
  exact .bind hRecord (.modify _ _)

theorem place_gives {store : Store} {address : Address} {handle : Handle}
    (hLoose : store.Loose handle) (hFree : store.setting.owner address = none) :
    (place address handle).Gives store () (store.claim address handle) := by
  obtain ⟨found, hValue⟩ := Option.isSome_iff_exists.mp hLoose.live
  have hUnplaced := hLoose.unplaced
  simp only [Store.setting, hValue, Option.bind_some] at hUnplaced
  exact place_gives_of_open ⟨hFree, found, hValue, hUnplaced⟩

end StoreAction

namespace Layout

structure Ordered (layout : Layout) : Prop where
  loop : layout.loop.first.toNat ≤ layout.loop.last.toNat
  loopScalars : layout.loop.last.toNat < layout.scalars.first.toNat
  scalars : layout.scalars.first.toNat ≤ layout.scalars.last.toNat
  scalarsArrays : layout.scalars.last.toNat < layout.arrays.first.toNat
  arrays : layout.arrays.first.toNat ≤ layout.arrays.last.toNat
  oversized : layout.arrays.last.toNat < layout.oversizedStart

theorem ordered_of_fault? {layout : Layout} (hValid : layout.fault? = none) :
    layout.Ordered := by
  unfold fault? at hValid
  simp only [AddressRange.isEmpty, decide_eq_true_eq] at hValid
  split at hValid
  · contradiction
  rename_i hLoop
  split at hValid
  · contradiction
  rename_i hScalars
  split at hValid
  · contradiction
  rename_i hLoopScalars
  split at hValid
  · contradiction
  rename_i hArrays
  split at hValid
  · contradiction
  rename_i hScalarsArrays
  rw [UInt64.lt_iff_toNat_lt] at hLoop hScalars hArrays
  rw [UInt64.le_iff_toNat_le] at hLoopScalars hScalarsArrays
  cases hBase : layout.oversizedBase with
  | none =>
      rw [hBase] at hValid
      contradiction
  | some base =>
      simp only [hBase] at hValid
      split at hValid
      · contradiction
      · refine ⟨by omega, by omega, by omega, by omega, by omega, ?_⟩
        simp only [oversizedStart, hBase, Option.getD_some]
        omega

end Layout

namespace Space

/-- A run that is found lies in its range and has no owners. -/
theorem findRun_spec {chunks : OrderedMap Address Handle} {range : AddressRange} {count : UInt64}
    {fuel : Nat} {start found : Address} (hCount : 0 < count.toNat)
    (hStart : range.first.toNat ≤ start.toNat)
    (hFound : findRun chunks range count fuel start = some found) :
    range.first.toNat ≤ found.toNat ∧ found.toNat + count.toNat ≤ range.last.toNat + 1 ∧
      ∀ address : Address, found.toNat ≤ address.toNat →
        address.toNat < found.toNat + count.toNat → chunks.get? address = none := by
  induction fuel generalizing start with
  | zero => contradiction
  | succ fuel inductionHypothesis =>
      simp only [findRun, Bool.and_eq_true, decide_eq_true_eq] at hFound
      split at hFound
      · rename_i hFits
        obtain ⟨hLast, hOrder⟩ := hFits
        rw [UInt64.le_iff_toNat_le] at hLast hOrder
        -- the last address of the run does not wrap around
        have hStop : (start + count - 1).toNat = start.toNat + count.toNat - 1 := by
          have hCountBound := count.toNat_lt
          have hStartBound := start.toNat_lt
          rw [UInt64.toNat_sub, UInt64.toNat_add] at hOrder ⊢
          have hOne : (1 : UInt64).toNat = 1 := rfl
          omega
        rw [hStop] at hLast
        cases hClash : (chunks.range start (start + count - 1)).head? with
        | none =>
            rw [hClash] at hFound
            obtain rfl := Option.some.inj hFound
            refine ⟨hStart, by omega, ?_⟩
            intro address hLow hHigh
            refine OrderedMap.get?_of_range_eq_nil (List.head?_eq_none_iff.mp hClash) ?_ ?_
            · exact UInt64.le_iff_toNat_le.mpr hLow
            · rw [UInt64.le_iff_toNat_le, hStop]
              omega
        | some clash =>
            obtain ⟨address, owner⟩ := clash
            simp only [hClash] at hFound
            split at hFound
            · contradiction
            · rename_i hNotLast
              have hMem := (OrderedMap.mem_range_iff chunks start (start + count - 1) _).mp
                (List.mem_of_mem_head? hClash)
              obtain ⟨-, hLow, hHigh⟩ := hMem
              rw [UInt64.le_iff_toNat_le] at hLow hHigh
              rw [hStop] at hHigh
              simp only at hLow hHigh
              have hBelow : address.toNat ≠ range.last.toNat := fun hEqual =>
                hNotLast (UInt64.toNat_inj.mp hEqual)
              have hNext : (address + 1).toNat = address.toNat + 1 := by
                have hBound := range.last.toNat_lt
                have hOne : (1 : UInt64).toNat = 1 := rfl
                rw [UInt64.toNat_add]
                omega
              exact inductionHypothesis (by omega) hFound
      · contradiction

end Space

namespace StoreAction

/-- Values without names take spare cells in a row. -/
theorem placeRun_gives {store : Store} (hSound : store.Sound) {start : Address} (done : Nat)
    {handles : List Handle} (hLoose : ∀ handle ∈ handles, store.Loose handle)
    (hUnknown : ∀ handle ∈ handles, (store.arena.get? handle).bind Value.known? = none)
    (hSpare : store.setting.Spare (start + done.toUInt64) handles) :
    ∃ after, (placeRun start done handles).Gives store () after ∧ after.Sound ∧
      after.setting = store.setting.claimRun (start + done.toUInt64) handles ∧
      after.registers = store.registers ∧ after.symbols = store.symbols ∧
      ∀ other, (after.arena.get? other).isSome = (store.arena.get? other).isSome := by
  induction handles generalizing store done with
  | nil => exact ⟨store, rfl, hSound, rfl, rfl, rfl, fun _ => rfl⟩
  | cons handle rest inductionHypothesis =>
      have hHead := hLoose handle List.mem_cons_self
      have hFree : store.setting.owner (start + done.toUInt64) = none :=
        hSpare.owners _ (Nat.le_refl _) (by simp only [List.length_cons]; omega)
      have hPlaced := Gives.tryCatch (place_gives hHead hFree) fun fault => do
        for step in List.range done do
          unplace (start + step.toUInt64)
        throw fault
      have hClaimed := Store.sound_claim hSound hHead (hUnknown handle List.mem_cons_self)
        hFree
      have hSetting := Store.setting_claim (start + done.toUInt64) hHead
      have hLive : ∀ other, ((store.claim (start + done.toUInt64) handle).arena.get? other).isSome =
          (store.arena.get? other).isSome := by
        intro other
        rw [Store.get?_claim, Option.isSome_map]
      by_cases hLast : rest = []
      · subst hLast
        exact ⟨_, hPlaced.bind (.pure () _), hClaimed, hSetting, rfl, rfl, hLive⟩
      · have hStep : start + (done + 1).toUInt64 = start + done.toUInt64 + 1 := by
          rw [show (done + 1).toUInt64 = done.toUInt64 + 1 from UInt64.ofNat_add done 1,
            ← UInt64.add_assoc]
        have hNew : ∀ other ∈ rest, other ≠ handle := by
          rintro other hOther rfl
          exact (List.nodup_cons.mp hSpare.nodup).1 hOther
        have hStill : ∀ other ∈ rest,
            (store.claim (start + done.toUInt64) handle).Loose other := by
          intro other hOther
          have hFound := hLoose other (List.mem_cons_of_mem _ hOther)
          have hDifferent := hNew other hOther
          refine ⟨by rw [hLive]; exact hFound.live, by rw [hSetting]; exact hFound.unnamed, ?_⟩
          rw [hSetting]
          simp only [Setting.claim, Function.update_of_ne hDifferent]
          exact hFound.unplaced
        obtain ⟨after, hGives, hAfter, hAfterSetting, hRegisters, hSymbols, hAfterLive⟩ :=
          inductionHypothesis hClaimed (done + 1) hStill (by
            intro other hOther
            rw [Store.get?_claim]
            simp only [hNew other hOther, if_false, Option.map_id']
            exact hUnknown other (List.mem_cons_of_mem _ hOther)) (by
            rw [hSetting, hStep]
            exact (hSpare.tail hLast).2)
        refine ⟨after, hPlaced.bind hGives, hAfter, ?_, hRegisters, hSymbols, ?_⟩
        · rw [hAfterSetting, hSetting, hStep]
          rfl
        · intro other
          rw [hAfterLive, hLive]

theorem run_allocate_loop (handle : Handle) (store : Store) :
    (allocate .loop handle).run.run store = (allocateRun .loop [handle]).run.run store := by
  unfold allocate
  rw [run_get_bind]

section Runs

variable {store : Store} {handles : List Handle}

/-- Without a run, no loop cells are taken. -/
theorem allocateRun_refuses_of_findRun (hNonempty : handles ≠ [])
    (hFound : Space.findRun store.space.chunks store.space.layout.loop handles.length.toUInt64
      (store.space.chunks.size + 1) store.space.layout.loop.first = none) :
    (allocateRun .loop handles).Refuses store
      (.noRun store.space.layout.loop handles.length) := by
  have hSome : handles.isEmpty = false := by simpa using hNonempty
  unfold allocateRun
  simp only [ne_eq, not_true_eq_false, if_false, hSome, Bool.false_eq_true]
  refine Gives.refuses (.get store) ?_
  simp only [hFound]
  exact .throw _ store

/-- The loop cells of a run that is found are taken like those of any row. -/
theorem allocateRun_gives_of_findRun (hNonempty : handles ≠ []) {start : Address}
    (hFound : Space.findRun store.space.chunks store.space.layout.loop handles.length.toUInt64
      (store.space.chunks.size + 1) store.space.layout.loop.first = some start) {after : Store}
    (hPlace : (placeRun start 0 handles).Gives store () after) :
    (allocateRun .loop handles).Gives store start after := by
  have hSome : handles.isEmpty = false := by simpa using hNonempty
  unfold allocateRun
  simp only [ne_eq, not_true_eq_false, if_false, hSome, Bool.false_eq_true]
  refine .bind (.get store) ?_
  simp only [hFound]
  exact hPlace.bind (.pure start after)

end Runs

/-- A run of loop cells is taken, or there is none. -/
theorem allocateRun_run {store : Store} (hSound : store.Sound) {handles : List Handle}
    (hNonempty : handles ≠ []) (hShort : handles.length < UInt64.size)
    (hLoose : ∀ handle ∈ handles, store.Loose handle)
    (hUnknown : ∀ handle ∈ handles, (store.arena.get? handle).bind Value.known? = none)
    (hNodup : handles.Nodup) :
    (∃ range count, (allocateRun .loop handles).Refuses store (.noRun range count)) ∨
      ∃ start after, (allocateRun .loop handles).Gives store start after ∧ after.Sound ∧
        store.setting.Spare start handles ∧
        after.setting = store.setting.claimRun start handles ∧
        after.registers = store.registers ∧ after.symbols = store.symbols ∧
        ∀ other, (after.arena.get? other).isSome = (store.arena.get? other).isSome := by
  have hCount : handles.length.toUInt64.toNat = handles.length := Nat.mod_eq_of_lt hShort
  cases hFound : Space.findRun store.space.chunks store.space.layout.loop
      handles.length.toUInt64 (store.space.chunks.size + 1) store.space.layout.loop.first with
  | none => exact .inl ⟨_, _, allocateRun_refuses_of_findRun hNonempty hFound⟩
  | some start =>
      obtain ⟨hFirst, hLast, hFree⟩ := Space.findRun_spec
        (by rw [hCount]; exact List.length_pos_iff.mpr hNonempty) (Nat.le_refl _) hFound
      rw [hCount] at hLast hFree
      have hStart : start + (0 : Nat).toUInt64 = start := UInt64.add_zero start
      have hSpare : store.setting.Spare start handles :=
        ⟨hFree, fun handle hHandle => ⟨(hLoose handle hHandle).unplaced,
          (hLoose handle hHandle).unnamed⟩, hNodup, hFirst, hLast⟩
      obtain ⟨after, hGives, hAfter, hSetting, hRegisters, hSymbols, hLive⟩ :=
        placeRun_gives hSound 0 hLoose hUnknown (by rw [hStart]; exact hSpare)
      rw [hStart] at hSetting
      exact .inr ⟨start, after, allocateRun_gives_of_findRun hNonempty hFound hGives, hAfter, hSpare,
        hSetting, hRegisters, hSymbols, hLive⟩

theorem unplace_gives {store : Store} {address : Address} {handle : Handle}
    (hOwner : store.space.chunks.get? address = some handle) :
    (unplace address).Gives store () (store.disclaim address handle) := by
  refine .bind (.get store) ?_
  rw [hOwner]
  exact .bind (.modify _ store) (.modify _ _)

/-- A loop cell is given back and the value that owned it is destroyed. -/
theorem freeAt_gives {store : Store} (hSound : store.Sound) {address : Address} {handle : Handle}
    (hOwner : store.setting.owner address = some handle)
    (hUnnamed : store.setting.nameOf handle = none)
    (hLoop : address.toNat ≤ store.setting.layout.loop.last.toNat) :
    ∃ value after, (freeAt address).Gives store value after ∧ after.Sound ∧
      after.setting = store.setting.disclaim address handle ∧
      after.registers = store.registers ∧ after.symbols = store.symbols ∧
      ∀ other, other ≠ handle →
        (after.arena.get? other).isSome = (store.arena.get? other).isSome := by
  have hOrdered := Layout.ordered_of_fault? hSound.layout
  have hLoopLast : address.toNat ≤ store.space.layout.loop.last.toNat := hLoop
  have hScalars : store.space.layout.scalars.contains address = false := by
    have hBelow := hOrdered.loopScalars
    simp only [AddressRange.contains, Bool.and_eq_false_iff, decide_eq_false_iff_not,
      UInt64.le_iff_toNat_le]
    omega
  have hArrays : store.space.layout.arrays.contains address = false := by
    have hBelow := hOrdered.loopScalars
    have hMiddle := hOrdered.scalars
    have hAbove := hOrdered.scalarsArrays
    simp only [AddressRange.contains, Bool.and_eq_false_iff, decide_eq_false_iff_not,
      UInt64.le_iff_toNat_le]
    omega
  have hFound : store.space.chunks.get? address = some handle := hOwner
  have hChunk : store.setting.chunk handle = some address :=
    (hSound.owners address handle).mp hOwner
  have hCleared := Store.sound_disclaim hSound hUnnamed hOwner
  have hSetting := Store.setting_disclaim address hSound hUnnamed
  have hLive : ∀ other, ((store.disclaim address handle).arena.get? other).isSome =
      (store.arena.get? other).isSome := by
    intro other
    rw [Store.get?_disclaim, Option.isSome_map]
  have hLoose : (store.disclaim address handle).Loose handle := by
    refine ⟨?_, by rw [hSetting]; exact hUnnamed, ?_⟩
    · obtain ⟨value, hValue, -⟩ := Option.bind_eq_some_iff.mp hChunk
      rw [hLive, hValue]
      rfl
    · rw [hSetting]
      exact Function.update_self ..
  obtain ⟨value, arena, hFree, -, hFreeSetting, hFreeSound, hOthers⟩ :=
    Store.free_of_loose hCleared hLoose
  have hUncount : (uncount address).Gives store () store := by
    refine .bind (.get store) ?_
    simp only [hScalars, hArrays, Bool.false_eq_true, if_false]
    exact .pure () store
  refine ⟨value, _, ?_, hFreeSound, hFreeSetting.trans hSetting, rfl, rfl, ?_⟩
  · refine .bind (.get store) ?_
    simp only [hFound]
    exact hUncount.bind ((unplace_gives hFound).bind (free_gives hFree))
  · intro other hOther
    rw [← hLive]
    simp only [hOthers other hOther]

end StoreAction

end RegisterCompiler
