/-
What the operations on names do.

Elements of arrays come into being unnoticed.  Learning what a variable holds changes
what is known about it.  A declared name is bound to its value, and a name that is not
cached can be removed again.
-/

import RegisterCompiler.Proofs.Store.Cells

set_option autoImplicit false

namespace RegisterCompiler

/-! ### Elements -/

namespace Arena

theorem array_modifyArray_same (arena : Arena) (ref other : ArrayRef)
    {change : ArrayInfo → ArrayInfo} (hBase : ∀ info, (change info).base = info.base)
    (hLength : ∀ info, (change info).length = info.length) :
    ((arena.modifyArray ref change).array other).base = (arena.array other).base ∧
      ((arena.modifyArray ref change).array other).length = (arena.array other).length := by
  simp only [array, modifyArray, Array.getD_eq_getD_getElem?, Array.getElem?_modify]
  cases arena.arrays[other]? with
  | none => by_cases hSame : ref = other <;> simp [hSame]
  | some info =>
      by_cases hSame : ref = other
      · simp [hSame, hBase, hLength]
      · simp [hSame]

end Arena

namespace StoreAction

/-- An element inside its array comes into being unnoticed. -/
theorem element_gives {store : Store} (hSound : store.Sound) {ref : ArrayRef} {offset : Int}
    (hInside : (store.arena.array ref).inRange offset = true) :
    ∃ handle after, (element ref offset).Gives store handle after ∧ after.Sound ∧
      after.setting = store.setting ∧ after.registers = store.registers ∧
      after.symbols = store.symbols ∧
      ∀ other, (store.arena.get? other).isSome = true → (after.arena.get? other).isSome = true := by
  cases hUsed : store.arena.usedElement? ref offset with
  | some handle =>
      refine ⟨handle, store, ?_, hSound, rfl, rfl, rfl, fun _ => id⟩
      refine .bind (.get store) ?_
      simp only [Arena.element?, hInside, if_true, hUsed]
      exact .bind (.modify _ store) (.pure handle _)
  | none =>
      let slot := (store.arena.array ref).newSlot (toString offset)
      let payload := Payload.element ⟨some slot, some offset, none, some ref⟩
      let created : Store := { store with arena := (store.arena.create payload).2 }
      let handle := (store.arena.create payload).1
      let note (info : ArrayInfo) : ArrayInfo := { info with elements := info.elements ++ [handle] }
      let after : Store := { store with arena := created.arena.modifyArray ref note }
      have hCreated := Store.sound_create hSound payload
      have hNoted : Store.SameNamed created after :=
        ⟨Arena.wellFormed_modifyArray hCreated.arena _ _, fun _ _ => rfl, fun _ => rfl,
          hCreated.strays, fun other => Arena.array_modifyArray_same created.arena ref other (fun _ => rfl)
            (fun _ => rfl), rfl, rfl, rfl⟩
      have hSetting : after.setting = created.setting := hNoted.setting_eq rfl rfl
      refine ⟨handle, after, ?_, hNoted.sound hCreated ?_,
        hSetting.trans (Store.setting_create hSound payload), rfl, rfl, ?_⟩
      · refine .bind (.get store) ?_
        simp only [Arena.element?, hInside, if_true, hUsed]
        exact .bind (.modify _ store) (.pure _ _)
      · rw [hSetting]
        exact hCreated.owners
      · intro other hLive
        have hOld : other ≠ handle := by
          rintro rfl
          rw [Arena.get?_create_before hSound.arena payload] at hLive
          contradiction
        have hSame : after.arena.get? other = store.arena.get? other :=
          Arena.get?_create_of_ne hSound.arena payload hOld
        rw [hSame]
        exact hLive

end StoreAction

/-! ### Knowing values -/

namespace Setting

def learn (setting : Setting) (handle : Handle) (known : Option Int) : Setting :=
  { setting with known := Function.update setting.known handle known }

end Setting

namespace Store

/-- Changing what is known about a named value keeps a store sound. -/
theorem sound_learn {store : Store} (hSound : store.Sound) {handle : Handle} {value : Value}
    (hValue : store.arena.get? handle = some value)
    (hNamed : (store.setting.nameOf handle).isSome = true) {change : Value → Value}
    {scalar : PlainVariable} (hChange : change value = { value with payload := .plain scalar }) :
    Store.Sound { store with arena := store.arena.modify handle change } ∧
      Store.setting { store with arena := store.arena.modify handle change } =
        store.setting.learn handle (change value).known? := by
  have hGet : ∀ other, (store.arena.modify handle change).get? other =
      if other = handle then some { value with payload := .plain scalar }
      else store.arena.get? other := by
    intro other
    rw [Arena.get?_modify, hValue, Option.map_some, hChange]
  have hField : ∀ {β : Type} (read : Value → Option β),
      (read { value with payload := .plain scalar } = read value) → ∀ other,
        ((store.arena.modify handle change).get? other).bind read =
          (store.arena.get? other).bind read := by
    intro β read hRead other
    rw [hGet]
    split
    · rename_i hSame
      rw [hSame, hValue, Option.bind_some, Option.bind_some, hRead]
    · rfl
  have hSetting : Store.setting { store with arena := store.arena.modify handle change } =
      store.setting.learn handle (change value).known? := by
    refine Setting.ext rfl rfl rfl rfl (funext (hField Value.chunk rfl)) ?_ ?_
    · funext other
      simp only [setting, Setting.learn, Function.update_apply, hGet]
      by_cases hSame : other = handle
      · subst hSame
        have hFound : (store.symbols.byValue.lookup other).isSome = true := hNamed
        simp only [hFound, if_true, Option.bind_some, hChange]
      · simp only [hSame, if_false]
    · funext ref
      have hArray := Arena.array_congr (Arena.arrays_modify store.arena handle change) ref
      simp only [setting, hArray, Setting.learn]
  refine ⟨?_, hSetting⟩
  exact {
    arena := Arena.wellFormed_modify hSound.arena _ _
    layout := hSound.layout
    enough := hSound.enough
    pointer := hSound.pointer
    states := hSound.states
    occupants := by
      intro register other
      have hBound : ∀ found : Option Value, (∃ value, found = some value ∧
          value.register = some register) ↔ found.bind Value.register = some register := by
        intro found
        rw [Option.bind_eq_some_iff]
      have hRegister := hField Value.register rfl other
      have hBefore := hSound.occupants register other
      rw [hBound] at hBefore ⊢
      rw [hRegister]
      exact hBefore
    occupantNames := hSound.occupantNames
    entryNames := hSound.entryNames
    cells := by
      intro name kind other hDeclared
      obtain ⟨hName, found, address, hFound, hPlain, hChunk, hLow⟩ :=
        hSound.cells name kind other hDeclared
      by_cases hSame : other = handle
      · subst hSame
        rw [hValue] at hFound
        obtain rfl := Option.some.inj hFound
        exact ⟨hName, { value with payload := .plain scalar }, address,
          by rw [hGet, if_pos rfl], fun _ => ⟨scalar, rfl⟩, hChunk, hLow⟩
      · refine ⟨hName, found, address, ?_, hPlain, hChunk, hLow⟩
        rw [hGet, if_neg hSame, hFound]
    strays := by
      intro other found hFound hUnnamed
      have hOther : other ≠ handle := by
        rintro rfl
        rw [hSetting] at hUnnamed
        rw [show store.setting.nameOf other = none from hUnnamed] at hNamed
        contradiction
      rw [hGet, if_neg hOther] at hFound
      rw [hSetting] at hUnnamed
      exact hSound.strays other found hFound hUnnamed
    names := hSound.names
    owners := by rw [hSetting]; exact hSound.owners
    bases := by rw [hSetting]; exact hSound.bases
    stale := hSound.stale }

end Store

namespace StoreAction

theorem change_gives {store : Store} {handle : Handle} {found : Value}
    (hLive : store.arena.get? handle = some found) (update : Value → Value) :
    (change handle update).Gives store (update found)
      { store with arena := store.arena.modify handle update } :=
  .bind (value_gives hLive) (.bind (.modify _ store) (.pure _ _))

theorem forgetSymbolic_gives {store : Store} {handle : Handle} {found : Value}
    {scalar : PlainVariable} (hLive : store.arena.get? handle = some found)
    (hPlain : found.payload = .plain scalar) :
    (forgetSymbolic handle).Gives store ()
      { store with arena := store.arena.modify handle Value.forgetExpression } := by
  refine .bind (value_gives hLive) ?_
  simp only [hPlain]
  exact .modify _ store

end StoreAction

/-! ### Declaring and removing names -/

namespace SymbolTable

theorem lookup_cons_eq_ite {κ ν : Type} [BEq κ] [LawfulBEq κ] [DecidableEq κ] (key other : κ)
    (value : ν) (entries : List (κ × ν)) :
    ((key, value) :: entries).lookup other =
      if other = key then some value else entries.lookup other := by
  rw [List.lookup_cons]
  by_cases hSame : other = key
  · rw [if_pos hSame, beq_iff_eq.mpr hSame]
  · rw [if_neg hSame, beq_eq_false_iff_ne.mpr hSame]

theorem lookup_without {κ : Type} [BEq κ] [LawfulBEq κ] [DecidableEq κ] (key other : κ)
    (entries : List (κ × String)) :
    (without key entries).lookup other = if other = key then none else entries.lookup other := by
  induction entries with
  | nil => simp [without]
  | cons entry entries inductionHypothesis =>
      obtain ⟨found, name⟩ := entry
      unfold without at inductionHypothesis ⊢
      by_cases hFound : found = key
      · subst hFound
        simp only [List.filter_cons, bne_self_eq_false, Bool.false_eq_true, if_false,
          inductionHypothesis, lookup_cons_eq_ite]
        by_cases hSame : other = found
        · rw [if_pos hSame, if_pos hSame]
        · rw [if_neg hSame, if_neg hSame, if_neg hSame]
      · have hKept : (found != key) = true := bne_iff_ne.mpr hFound
        simp only [List.filter_cons, hKept, if_true, lookup_cons_eq_ite, inductionHypothesis]
        by_cases hSame : other = found
        · rw [if_pos hSame, if_pos hSame, if_neg (fun hKey => hFound (hSame.symm.trans hKey))]
        · rw [if_neg hSame, if_neg hSame]

def enter (table : SymbolTable) (name : String) (kind : SymbolKind) (binding : Binding) :
    SymbolTable where
  byName := table.byName.set name ⟨name, kind, binding, true⟩
  byValue :=
    match binding with
    | .value handle => (handle, name) :: without handle table.byValue
    | _ => table.byValue
  byArray :=
    match binding with
    | .array ref => (ref, name) :: without ref table.byArray
    | _ => table.byArray

def leave (table : SymbolTable) (name : String) (binding : Binding) : SymbolTable where
  byName := table.byName.erase name
  byValue :=
    match binding with
    | .value handle => without handle table.byValue
    | _ => table.byValue
  byArray :=
    match binding with
    | .array ref => without ref table.byArray
    | _ => table.byArray

section Entries

variable (table : SymbolTable) (name : String) (kind : SymbolKind) (binding : Binding)

theorem declare_eq :
    table.declare name kind binding =
      if name = "" then .error .emptyName
      else if (table.lookup? name).isSome then .error (.duplicateName name)
      else .ok (table.enter name kind binding) := by
  unfold declare OrderedMap.insert? OrderedMap.contains
  by_cases hEmpty : name = ""
  · rw [if_pos hEmpty, if_pos hEmpty]
  · rw [if_neg hEmpty, if_neg hEmpty]
    by_cases hTaken : (table.byName.get? name).isSome = true
    · have hFound : (table.lookup? name).isSome = true := hTaken
      rw [if_pos hTaken, if_pos hFound]
    · have hNew : ¬(table.lookup? name).isSome = true := hTaken
      rw [if_neg hTaken, if_neg hNew]
      cases binding <;> rfl

theorem remove?_eq :
    table.remove? name =
      (table.lookup? name).map fun entry => (entry, table.leave name entry.binding) := by
  unfold remove?
  cases table.lookup? name with
  | none => rfl
  | some entry =>
      simp only [Option.map_some, leave]
      cases entry.binding <;> rfl

theorem lookup?_enter (other : String) :
    (table.enter name kind binding).lookup? other =
      if other = name then some ⟨name, kind, binding, true⟩ else table.lookup? other :=
  OrderedMap.get?_set _ _ _ _

theorem lookup?_leave (other : String) :
    (table.leave name binding).lookup? other =
      if other = name then none else table.lookup? other :=
  OrderedMap.get?_erase _ _ _

theorem declare_of_new {table : SymbolTable} {name : String} (hName : name ≠ "")
    (hNew : table.lookup? name = none) (kind : SymbolKind) (binding : Binding) :
    table.declare name kind binding = .ok (table.enter name kind binding) := by
  rw [declare_eq, if_neg hName, hNew]
  rfl

end Entries

end SymbolTable

namespace Setting

def bindName (setting : Setting) (name : String) (kind : SymbolKind) (handle : Handle) : Setting :=
  { setting with
    declared := Function.update setting.declared name (some (kind, .value handle))
    nameOf := Function.update setting.nameOf handle (some name) }

def unbindName (setting : Setting) (name : String) (handle : Handle) : Setting :=
  { setting with
    declared := Function.update setting.declared name none
    nameOf := Function.update setting.nameOf handle none }

theorem unbindName_bindName {setting : Setting} {name : String} {kind : SymbolKind}
    {handle : Handle} (hDeclared : setting.declared name = none)
    (hNameOf : setting.nameOf handle = none) :
    (setting.bindName name kind handle).unbindName name handle = setting := by
  refine Setting.ext rfl ?_ ?_ rfl rfl rfl rfl
  · simp only [unbindName, bindName, Function.update_idem]
    rw [← hNameOf, Function.update_eq_self]
  · simp only [unbindName, bindName, Function.update_idem]
    rw [← hDeclared, Function.update_eq_self]

end Setting

namespace Store

def bindName (store : Store) (name : String) (kind : SymbolKind) (handle : Handle) : Store :=
  { store with
    symbols := { store.symbols with
      byName := store.symbols.byName.set name ⟨name, kind, .value handle, true⟩
      byValue := (handle, name) :: SymbolTable.without handle store.symbols.byValue } }

theorem lookup?_bindName (store : Store) (name : String) (kind : SymbolKind) (handle : Handle)
    (other : String) :
    (store.bindName name kind handle).symbols.lookup? other =
      if other = name then some ⟨name, kind, .value handle, true⟩
      else store.symbols.lookup? other :=
  OrderedMap.get?_set _ _ _ _

private theorem nameOf_bindName (store : Store) (name : String) (kind : SymbolKind)
    (handle other : Handle) :
    (store.bindName name kind handle).symbols.byValue.lookup other =
      if other = handle then some name else store.symbols.byValue.lookup other := by
  simp only [bindName, SymbolTable.lookup_cons_eq_ite, SymbolTable.lookup_without]
  by_cases hSame : other = handle
  · rw [if_pos hSame, if_pos hSame]
  · rw [if_neg hSame, if_neg hSame, if_neg hSame]

section BindName

variable {store : Store} {name : String} {kind : SymbolKind} {handle : Handle} {address : Address}

theorem setting_bindName (hLinked : store.Linked) (hChunk : store.setting.chunk handle = some address)
    (hUnnamed : store.setting.nameOf handle = none) :
    (store.bindName name kind handle).setting = store.setting.bindName name kind handle := by
  obtain ⟨value, hValue, hPlace⟩ := Option.bind_eq_some_iff.mp hChunk
  have hUnknown := hLinked.strays handle value hValue hUnnamed (Option.isSome_of_eq_some hPlace)
  refine Setting.ext rfl ?_ ?_ rfl rfl ?_ rfl
  · funext other
    simp only [setting, nameOf_bindName, Setting.bindName, Function.update_apply]
  · funext other
    simp only [setting, lookup?_bindName, Setting.bindName, Function.update_apply]
    split <;> rfl
  · funext other
    have hNone : store.symbols.byValue.lookup handle = none := hUnnamed
    simp only [setting, nameOf_bindName, Setting.bindName]
    by_cases hSame : other = handle
    · subst hSame
      have hArena : (store.bindName name kind other).arena = store.arena := rfl
      simp only [if_true, Option.isSome_some, hArena, hValue, Option.bind_some, hUnknown, hNone,
        Option.isSome_none, Bool.false_eq_true, if_false]
    · simp only [hSame, if_false]
      rfl

/-- A value with a cell below the arrays may get a new name. -/
theorem sound_bindName (hSound : store.Sound) (hNew : store.setting.declared name = none)
    (hChunk : store.setting.chunk handle = some address)
    (hLow : address < store.space.layout.arrays.first)
    (hUnnamed : store.setting.nameOf handle = none)
    (hPlain : kind ≠ .iterator → ∀ value, store.arena.get? handle = some value →
      ∃ scalar, value.payload = .plain scalar) :
    (store.bindName name kind handle).Sound := by
  have hSetting : (store.bindName name kind handle).setting =
      store.setting.bindName name kind handle :=
    setting_bindName hSound.toLinked hChunk hUnnamed
  obtain ⟨value, hValue, hPlace⟩ := Option.bind_eq_some_iff.mp hChunk
  have hOthers : ∀ {other : Handle} {found : String}, store.setting.nameOf other = some found →
      other ≠ handle := by
    rintro other found hFound rfl
    rw [hUnnamed] at hFound
    contradiction
  have hDeclared : ∀ {other : String}, (store.setting.declared other).isSome = true →
      other ≠ name := by
    rintro other hFound rfl
    rw [hNew] at hFound
    contradiction
  exact {
    arena := hSound.arena
    layout := hSound.layout
    enough := hSound.enough
    pointer := hSound.pointer
    states := hSound.states
    occupants := hSound.occupants
    occupantNames := by
      intro register other hOccupant
      obtain ⟨found, hFound⟩ := Option.isSome_iff_exists.mp
        (hSound.occupantNames register other hOccupant)
      rw [hSetting]
      simp only [Setting.bindName, Function.update_of_ne (hOthers hFound), hFound]
      rfl
    entryNames := by
      intro other entry hEntry
      rw [lookup?_bindName] at hEntry
      split at hEntry
      · rename_i hSame
        rw [hSame, ← Option.some.inj hEntry]
      · exact hSound.entryNames other entry hEntry
    cells := by
      intro other found target hFound
      rw [hSetting] at hFound ⊢
      simp only [Setting.bindName, Function.update_apply] at hFound ⊢
      split at hFound
      · rename_i hSame
        obtain ⟨-, hBinding⟩ := Prod.mk.inj (Option.some.inj hFound)
        obtain rfl := Binding.value.inj hBinding
        rw [if_pos rfl, hSame]
        obtain ⟨rfl, -⟩ := Prod.mk.inj (Option.some.inj hFound)
        exact ⟨rfl, value, address, hValue, fun hKind => hPlain hKind value hValue, hPlace, hLow⟩
      · obtain ⟨hName, hRest⟩ := hSound.cells other found target hFound
        rw [if_neg (hOthers hName)]
        exact ⟨hName, hRest⟩
    strays := by
      intro other found hFound hNone
      rw [hSetting] at hNone
      simp only [Setting.bindName, Function.update_apply] at hNone
      split at hNone
      · contradiction
      · exact hSound.strays other found hFound hNone
    names := by
      intro other found hFound
      rw [hSetting] at hFound ⊢
      simp only [Setting.bindName, Function.update_apply] at hFound ⊢
      split at hFound
      · rename_i hSame
        obtain rfl := Option.some.inj hFound
        exact ⟨kind, by rw [if_pos rfl, hSame]⟩
      · obtain ⟨sort, hSort⟩ := hSound.names other found hFound
        exact ⟨sort, by rw [if_neg (hDeclared (Option.isSome_of_eq_some hSort)), hSort]⟩
    owners := by rw [hSetting]; exact hSound.owners
    bases := by
      intro other found ref hFound
      rw [hSetting] at hFound ⊢
      simp only [Setting.bindName, Function.update_apply] at hFound
      split at hFound
      · cases hFound
      · exact hSound.bases other found ref hFound
    stale := by
      intro other entry hEntry hStale
      rw [lookup?_bindName] at hEntry
      split at hEntry
      · rw [← Option.some.inj hEntry] at hStale
        contradiction
      · exact hSound.stale other entry hEntry hStale }

end BindName

def unbindName (store : Store) (name : String) (handle : Handle) : Store :=
  { store with
    symbols := { store.symbols with
      byName := store.symbols.byName.erase name
      byValue := SymbolTable.without handle store.symbols.byValue } }

theorem lookup?_unbindName (store : Store) (name : String) (handle : Handle) (other : String) :
    (store.unbindName name handle).symbols.lookup? other =
      if other = name then none else store.symbols.lookup? other :=
  OrderedMap.get?_erase _ _ _

section UnbindName

variable {store : Store} {name : String} {kind : SymbolKind} {handle : Handle}

theorem setting_unbindName (hUnknown : store.setting.known handle = none) :
    (store.unbindName name handle).setting = store.setting.unbindName name handle := by
  refine Setting.ext rfl ?_ ?_ rfl rfl ?_ rfl
  · funext other
    simp only [setting, unbindName, SymbolTable.lookup_without, Setting.unbindName,
      Function.update_apply]
  · funext other
    simp only [setting, lookup?_unbindName, Setting.unbindName, Function.update_apply]
    split <;> rfl
  · funext other
    simp only [setting, unbindName, SymbolTable.lookup_without, Setting.unbindName]
    by_cases hSame : other = handle
    · subst hSame
      simp only [if_true, Option.isSome_none, Bool.false_eq_true, if_false]
      exact hUnknown.symm
    · simp only [hSame, if_false]

/-- A name that is not cached can be removed. -/
theorem sound_unbindName (hSound : store.Sound)
    (hBound : store.setting.declared name = some (kind, .value handle))
    (hUncached : ∀ register, store.occupant? register ≠ some handle)
    (hUnknown : store.setting.known handle = none) :
    (store.unbindName name handle).Sound := by
  have hSetting : (store.unbindName name handle).setting = store.setting.unbindName name handle :=
    setting_unbindName hUnknown
  have hName : store.setting.nameOf handle = some name := (hSound.cells name kind handle hBound).1
  have hOthers : ∀ {other : Handle} {found : String}, store.setting.nameOf other = some found →
      found ≠ name → other ≠ handle := by
    rintro other found hFound hDifferent rfl
    rw [hName] at hFound
    exact hDifferent (Option.some.inj hFound).symm
  exact {
    arena := hSound.arena
    layout := hSound.layout
    enough := hSound.enough
    pointer := hSound.pointer
    states := hSound.states
    occupants := hSound.occupants
    occupantNames := by
      intro register other hOccupant
      have hDifferent : other ≠ handle := by
        rintro rfl
        exact hUncached register hOccupant
      rw [hSetting]
      simp only [Setting.unbindName, Function.update_of_ne hDifferent]
      exact hSound.occupantNames register other hOccupant
    entryNames := by
      intro other entry hEntry
      rw [lookup?_unbindName] at hEntry
      split at hEntry
      · contradiction
      · exact hSound.entryNames other entry hEntry
    cells := by
      intro other found target hFound
      rw [hSetting] at hFound ⊢
      simp only [Setting.unbindName, Function.update_apply] at hFound ⊢
      split at hFound
      · contradiction
      · rename_i hDifferent
        obtain ⟨hTarget, hRest⟩ := hSound.cells other found target hFound
        rw [if_neg (hOthers hTarget hDifferent)]
        exact ⟨hTarget, hRest⟩
    strays := by
      intro other found hFound hNone
      rw [hSetting] at hNone
      simp only [Setting.unbindName, Function.update_apply] at hNone
      split at hNone
      · rename_i hSame
        obtain ⟨value, hValue⟩ : ∃ value, store.arena.get? handle = some value := by
          rw [← hSame]
          exact ⟨found, hFound⟩
        have hNamed : (store.symbols.byValue.lookup handle).isSome = true := by
          rw [show store.symbols.byValue.lookup handle = some name from hName]
          rfl
        simp only [setting, hNamed, if_true] at hUnknown
        rw [hSame] at hFound
        rw [show store.arena.get? handle = some found from hFound] at hUnknown
        exact fun _ => hUnknown
      · exact hSound.strays other found hFound hNone
    names := by
      intro other found hFound
      rw [hSetting] at hFound ⊢
      simp only [Setting.unbindName, Function.update_apply] at hFound ⊢
      split at hFound
      · contradiction
      · rename_i hDifferent
        obtain ⟨sort, hSort⟩ := hSound.names other found hFound
        refine ⟨sort, ?_⟩
        rw [if_neg, hSort]
        rintro rfl
        rw [hBound] at hSort
        obtain ⟨-, hBinding⟩ := Prod.mk.inj (Option.some.inj hSort)
        exact hDifferent (Binding.value.inj hBinding).symm
    owners := by rw [hSetting]; exact hSound.owners
    bases := by
      intro other found ref hFound
      rw [hSetting] at hFound ⊢
      simp only [Setting.unbindName, Function.update_apply] at hFound
      split at hFound
      · contradiction
      · exact hSound.bases other found ref hFound
    stale := by
      intro other entry hEntry hStale
      rw [lookup?_unbindName] at hEntry
      split at hEntry
      · contradiction
      · exact hSound.stale other entry hEntry hStale }

end UnbindName

end Store

namespace StoreAction

theorem declare_gives {store : Store} {name : String} {kind : SymbolKind} {binding : Binding}
    {symbols : SymbolTable} (hDeclare : store.symbols.declare name kind binding = .ok symbols) :
    (declare name kind binding).Gives store () { store with symbols := symbols } := by
  refine .bind (.get store) ?_
  rw [hDeclare]
  exact .modify _ store

theorem declare_value_gives {store : Store} {name : String} (hName : name ≠ "")
    (hNew : store.setting.declared name = none) (kind : SymbolKind) (handle : Handle) :
    (declare name kind (.value handle)).Gives store () (store.bindName name kind handle) :=
  declare_gives (SymbolTable.declare_of_new hName (Option.map_eq_none_iff.mp hNew) kind _)

theorem undeclare_gives {store : Store} {name : String} {kind : SymbolKind} {handle : Handle}
    (hBound : store.setting.declared name = some (kind, .value handle)) :
    (undeclare name).Gives store () (store.unbindName name handle) := by
  obtain ⟨entry, hEntry, hParts⟩ := Option.map_eq_some_iff.mp hBound
  obtain ⟨-, hBinding⟩ := Prod.mk.inj hParts
  have hRemoved : ((store.symbols.remove? name).map Prod.snd).getD store.symbols =
      store.symbols.leave name (.value handle) := by
    rw [SymbolTable.remove?_eq, hEntry, ← hBinding]
    rfl
  unfold undeclare modifySymbols
  have hGives := Gives.modify (fun store : Store => { store with
    symbols := ((store.symbols.remove? name).map Prod.snd).getD store.symbols }) store
  rw [hRemoved] at hGives
  exact hGives

theorem freeLoopCells_run {store : Store}
    (hNone : ∀ address : Address, store.setting.layout.loop.first ≤ address →
      address ≤ store.setting.layout.loop.last → store.setting.owner address = none) :
    freeLoopCells.run store = ((0, none), store) := by
  have hEmpty : store.space.chunks.range store.space.layout.loop.first
      store.space.layout.loop.last = [] := OrderedMap.range_eq_nil hNone
  change (freeCells 0 ((store.space.chunks.range store.space.layout.loop.first
    store.space.layout.loop.last).map Prod.fst)).run store = _
  rw [hEmpty]
  rfl

end StoreAction

end RegisterCompiler
