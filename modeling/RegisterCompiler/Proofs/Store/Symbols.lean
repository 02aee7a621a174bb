/-
What the names of a store stand for.

A name is bound to a value or an array, and a value or an array finds its way back to the name
declared for it last.  While no value and no array has two names, the ways back agree with the
names: a handle leads to the name bound to it, and the handle of an array element to the name of
the array.
-/

import RegisterCompiler.Proofs.Store.Histories

set_option autoImplicit false

namespace RegisterCompiler

/-! ### Ways back to names -/

/-- The ways back from some keys lead to the names that are bound to them. -/
def Indexes {κ : Type} [BEq κ] (bound : String → Option Binding) (stands : κ → Binding)
    (index : List (κ × String)) : Prop :=
  ∀ key name, index.lookup key = some name ↔ bound name = some (stands key)

namespace Indexes

variable {κ : Type} [BEq κ] {bound : String → Option Binding} {stands : κ → Binding}
  {index : List (κ × String)} {name : String}

private theorem enter_other (hIndexes : Indexes bound stands index) (hNew : bound name = none)
    {binding : Binding} (hOther : ∀ key, binding ≠ stands key) :
    Indexes (Function.update bound name (some binding)) stands index := by
  intro found other
  rw [hIndexes found other]
  by_cases hName : other = name
  · simp [hName, hNew, hOther found]
  · rw [Function.update_of_ne hName]

private theorem leave_other (hIndexes : Indexes bound stands index)
    (hOther : ∀ key, bound name ≠ some (stands key)) :
    Indexes (Function.update bound name none) stands index := by
  intro found other
  rw [hIndexes found other]
  by_cases hName : other = name
  · simp [hName, hOther found]
  · rw [Function.update_of_ne hName]

variable [LawfulBEq κ] [DecidableEq κ]

/-- A new name takes the way back from a key that no other name is bound to. -/
theorem enter (hIndexes : Indexes bound stands index) (hStands : Function.Injective stands)
    (hNew : bound name = none) {key : κ} (hAlone : ∀ other, bound other ≠ some (stands key)) :
    Indexes (Function.update bound name (some (stands key))) stands
      ((key, name) :: SymbolTable.without key index) := by
  intro found other
  rw [SymbolTable.lookup_cons_eq_ite, SymbolTable.lookup_without]
  by_cases hKey : found = key
  · rw [if_pos hKey, hKey]
    by_cases hName : other = name
    · simp [hName]
    · rw [Function.update_of_ne hName]
      simp [Ne.symm hName, hAlone other]
  · rw [if_neg hKey, if_neg hKey, hIndexes found other]
    by_cases hName : other = name
    · have hOther : stands key ≠ stands found := fun hSame => hKey (hStands hSame).symm
      simp [hName, hNew, hOther]
    · rw [Function.update_of_ne hName]

/-- The way back is lost with the name, if only that name was bound to the key. -/
theorem leave (hIndexes : Indexes bound stands index) {key : κ}
    (hStands : Function.Injective stands) (hBound : bound name = some (stands key))
    (hAlone : ∀ other, bound other = some (stands key) → other = name) :
    Indexes (Function.update bound name none) stands (SymbolTable.without key index) := by
  intro found other
  rw [SymbolTable.lookup_without]
  by_cases hKey : found = key
  · rw [if_pos hKey, hKey]
    by_cases hName : other = name
    · simp [hName]
    · rw [Function.update_of_ne hName]
      simp only [reduceCtorEq, false_iff]
      exact fun hOther => hName (hAlone other hOther)
  · rw [if_neg hKey, hIndexes found other]
    by_cases hName : other = name
    · have hOther : stands key ≠ stands found := fun hSame => hKey (hStands hSame).symm
      simp [hName, hBound, hOther]
    · rw [Function.update_of_ne hName]

end Indexes

namespace SymbolTable

def binding? (table : SymbolTable) (name : String) : Option Binding :=
  (table.lookup? name).map SymbolEntry.binding

variable (table : SymbolTable) (name : String) (kind : SymbolKind) (binding : Binding)

private theorem binding?_enter :
    (table.enter name kind binding).binding? =
      Function.update table.binding? name (some binding) := by
  funext other
  rw [binding?, lookup?_enter, Function.update_apply]
  split <;> rfl

private theorem binding?_leave :
    (table.leave name binding).binding? = Function.update table.binding? name none := by
  funext other
  rw [binding?, lookup?_leave, Function.update_apply]
  split <;> rfl

private theorem binding?_setFresh (fresh : Bool) :
    (table.setFresh name fresh).binding? = table.binding? := by
  funext other
  rw [binding?, lookup?_setFresh, Option.map_map]
  congr 1
  funext entry
  rw [Function.comp_apply]
  split <;> rfl

private theorem byArray_setFresh (fresh : Bool) :
    (table.setFresh name fresh).byArray = table.byArray := by
  unfold setFresh
  split <;> rfl

/-- The names, each under its own entry, and the ways back from values and arrays. -/
structure Indexed (table : SymbolTable) : Prop where
  names : ∀ name entry, table.lookup? name = some entry → entry.name = name
  values : Indexes table.binding? .value table.byValue
  arrays : Indexes table.binding? .array table.byArray

def Exclusive (table : SymbolTable) : Prop :=
  ∀ first second binding, binding ≠ .nothing → table.binding? first = some binding →
    table.binding? second = some binding → first = second

namespace Indexed

variable {table : SymbolTable} {name : String} {binding : Binding}

theorem enter (hIndexed : table.Indexed) (hNew : table.lookup? name = none) {kind : SymbolKind}
    (hExclusive : (table.enter name kind binding).Exclusive) :
    (table.enter name kind binding).Indexed := by
  have hUnbound : table.binding? name = none := by
    rw [binding?, hNew]
    rfl
  -- an old name with the binding of the new one would share it
  have hAlone : binding ≠ .nothing → ∀ other, table.binding? other ≠ some binding := by
    intro hBinding other hOther
    have hDifferent : other ≠ name := by
      intro hSame
      rw [hSame, hUnbound] at hOther
      contradiction
    refine hDifferent (hExclusive other name binding hBinding ?_ ?_)
    · rw [binding?_enter, Function.update_of_ne hDifferent, hOther]
    · rw [binding?_enter, Function.update_self]
  constructor
  · intro other entry hEntry
    rw [lookup?_enter] at hEntry
    split at hEntry
    · rename_i hSame
      rw [← Option.some.inj hEntry, hSame]
    · exact hIndexed.names other entry hEntry
  · rw [binding?_enter]
    cases binding with
    | value handle =>
        exact hIndexed.values.enter (fun _ _ => Binding.value.inj) hUnbound (hAlone nofun)
    | array ref => exact hIndexed.values.enter_other hUnbound nofun
    | nothing => exact hIndexed.values.enter_other hUnbound nofun
  · rw [binding?_enter]
    cases binding with
    | value handle => exact hIndexed.arrays.enter_other hUnbound nofun
    | array ref =>
        exact hIndexed.arrays.enter (fun _ _ => Binding.array.inj) hUnbound (hAlone nofun)
    | nothing => exact hIndexed.arrays.enter_other hUnbound nofun

theorem leave (hIndexed : table.Indexed) (hBound : table.binding? name = some binding)
    (hExclusive : table.Exclusive) : (table.leave name binding).Indexed := by
  have hAlone : binding ≠ .nothing → ∀ other, table.binding? other = some binding →
      other = name :=
    fun hBinding other hOther => hExclusive other name binding hBinding hOther hBound
  constructor
  · intro other entry hEntry
    rw [lookup?_leave] at hEntry
    split at hEntry
    · contradiction
    · exact hIndexed.names other entry hEntry
  · rw [binding?_leave]
    cases binding with
    | value handle =>
        exact hIndexed.values.leave (fun _ _ => Binding.value.inj) hBound (hAlone nofun)
    | array ref => exact hIndexed.values.leave_other (by simp [hBound])
    | nothing => exact hIndexed.values.leave_other (by simp [hBound])
  · rw [binding?_leave]
    cases binding with
    | value handle => exact hIndexed.arrays.leave_other (by simp [hBound])
    | array ref =>
        exact hIndexed.arrays.leave (fun _ _ => Binding.array.inj) hBound (hAlone nofun)
    | nothing => exact hIndexed.arrays.leave_other (by simp [hBound])

theorem setFresh (hIndexed : table.Indexed) (name : String) (fresh : Bool) :
    (table.setFresh name fresh).Indexed := by
  constructor
  · intro other entry hEntry
    rw [lookup?_setFresh] at hEntry
    rcases Option.map_eq_some_iff.mp hEntry with ⟨found, hFound, rfl⟩
    have hName := hIndexed.names other found hFound
    split <;> exact hName
  · rw [binding?_setFresh, byValue_setFresh]
    exact hIndexed.values
  · rw [binding?_setFresh, byArray_setFresh]
    exact hIndexed.arrays

end Indexed

end SymbolTable

/-- A handle finds a living element of an array, at a fixed offset or addressed through a
variable. -/
def Arena.IsElement (arena : Arena) (handle : Handle) (ref : ArrayRef) : Prop :=
  ∃ value element, arena.get? handle = some value ∧ value.element? = some element ∧
    element.array = some ref

namespace SymbolTable

/-- A handle leads to the name bound to it, or else to the name of the array it is an element
of. -/
theorem Indexed.lookupValue?_eq_some_iff {table : SymbolTable}
    (hIndexed : table.Indexed) {arena : Arena} {handle : Handle} {entry : SymbolEntry} :
    table.lookupValue? arena handle = some entry ↔
      table.lookup? entry.name = some entry ∧
        (entry.binding = .value handle ∨
          (∀ name, table.binding? name ≠ some (.value handle)) ∧
            ∃ ref, arena.IsElement handle ref ∧ entry.binding = .array ref) := by
  have hBound : ∀ key name, table.byValue.lookup key = some name ↔
      table.binding? name = some (.value key) := hIndexed.values
  have hOwn : table.lookup? entry.name = some entry →
      table.binding? entry.name = some entry.binding := by
    intro hEntry
    rw [binding?, hEntry]
    rfl
  unfold lookupValue?
  cases hWay : table.byValue.lookup handle with
  | some name =>
      have hName := (hBound handle name).mp hWay
      constructor
      · intro hFound
        rcases Option.map_eq_some_iff.mp hName with ⟨found, hEntry, hBinding⟩
        cases hEntry.symm.trans hFound
        rw [hIndexed.names name entry hEntry]
        exact ⟨hEntry, .inl hBinding⟩
      · intro hCases
        rcases hCases with ⟨hEntry, hBinding | ⟨hNone, -⟩⟩
        · have hBack := (hBound handle entry.name).mpr (by rw [hOwn hEntry, hBinding])
          cases hWay.symm.trans hBack
          exact hEntry
        · exact absurd hName (hNone name)
  | none =>
      have hNone : ∀ name, table.binding? name ≠ some (.value handle) := by
        intro name hName
        rw [(hBound handle name).mpr hName] at hWay
        cases hWay
      simp only [Option.bind_eq_bind, Option.bind_eq_some_iff]
      constructor
      · intro hFound
        rcases hFound with ⟨value, hValue, element, hElement, ref, hArray, name, hBack, hEntry⟩
        rcases Option.map_eq_some_iff.mp ((hIndexed.arrays ref name).mp hBack) with
          ⟨found, hThere, hBinding⟩
        cases hThere.symm.trans hEntry
        rw [hIndexed.names name entry hEntry]
        exact ⟨hEntry, .inr ⟨hNone, ref, ⟨value, element, hValue, hElement, hArray⟩, hBinding⟩⟩
      · intro hCases
        rcases hCases with ⟨hEntry, hBinding | ⟨-, ref, hElement, hBinding⟩⟩
        · exact absurd (by rw [hOwn hEntry, hBinding]) (hNone entry.name)
        · rcases hElement with ⟨value, element, hValue, hElement, hArray⟩
          have hBack := (hIndexed.arrays ref entry.name).mpr (by rw [hOwn hEntry, hBinding])
          exact ⟨value, hValue, element, hElement, ref, hArray, entry.name, hBack, hEntry⟩

end SymbolTable

end RegisterCompiler
