/-
The values of declared names.

To declare a scalar is to create its value and to give it a cell; to declare an array is to
create its element at offset zero.  So before the first command there is one value for each
declared name, and no other.
-/

import RegisterCompiler.Proofs.Generator.Thrift

set_option autoImplicit false

namespace RegisterCompiler

open Context (Books)

/-! ### Names and cells -/

/-- A name that could be declared was free, and no other name is touched. -/
theorem SymbolTable.lookup?_of_declare {table after : SymbolTable} {name : String}
    {kind : SymbolKind} {binding : Binding}
    (hDeclare : table.declare name kind binding = .ok after) :
    table.lookup? name = none ∧ ∀ other, after.lookup? other =
      if other = name then some ⟨name, kind, binding, true⟩ else table.lookup? other := by
  rw [declare_eq] at hDeclare
  split at hDeclare
  · cases hDeclare
  · split at hDeclare
    · cases hDeclare
    · rename_i hAbsent
      cases hDeclare
      exact ⟨Option.not_isSome_iff_eq_none.mp hAbsent, lookup?_enter _ _ _ _⟩

namespace StoreAction

private theorem place_leaves_symbols (address : Address) (handle : Handle) :
    (place address handle).Leaves Store.symbols := by
  refine .bind (value_leaves _ handle) fun found => .bind .get fun store => ?_
  split
  · exact .throw _
  · refine .bind (.bind .get fun owners => ?_) fun _ => .modify fun _ => rfl
    split
    · exact .throw _
    · exact .modify fun _ => rfl

private theorem allocate_leaves_symbols (handle : Handle) :
    (allocate .scalars handle).Leaves Store.symbols := by
  refine .bind .get fun store => .bind .get fun found => ?_
  split
  · exact .throw _
  · refine .bind (place_leaves_symbols _ handle) fun _ => ?_
    exact .bind (.modify fun _ => rfl) fun _ => .pure _

private theorem allocateArray_leaves_symbols (ref : ArrayRef) (head : Handle) :
    (allocateArray ref head).Leaves Store.symbols := by
  have hNote : ∀ (count : Space → Space) (describe : Arena → Arena),
      (do modifySpace count; modifyArena describe).Leaves Store.symbols :=
    fun _ _ => .bind (.modify fun _ => rfl) fun _ => .modify fun _ => rfl
  intro before value after hGives
  have hRest := hGives.of_get_bind
  simp only at hRest
  split at hRest
  · cases hRest
  split at hRest
  · split at hRest
    · cases hRest
    · obtain ⟨_, placed, hPlace, hRest⟩ := hRest.exists_of_bind
      exact (hNote _ _ _ _ _ hRest).trans (place_leaves_symbols _ head _ _ _ hPlace)
  · exact hNote _ _ _ _ _ hRest

private theorem element_leaves_symbols (ref : ArrayRef) (offset : Int) :
    (element ref offset).Leaves Store.symbols := by
  refine .bind .get fun store => ?_
  simp only
  split
  · exact .bind (.modify fun _ => rfl) fun _ => .pure _
  · exact .throw _

private theorem change_leaves_symbols (handle : Handle) (update : Value → Value) :
    (change handle update).Leaves Store.symbols :=
  .bind (value_leaves _ handle) fun _ => .bind (.modify fun _ => rfl) fun _ => .pure _

private theorem of_createArray {before after : Store} {name : String} {length : Int}
    {ref : ArrayRef} (hGives : (createArray name length).Gives before ref after) :
    ref = before.arena.arrays.size ∧
      after = { before with arena := (before.arena.createArray name length).2 } := by
  cases hGives
  exact ⟨rfl, rfl⟩

private theorem elements_createArray (arena : Arena) (name : String) (length : Int)
    (ref : ArrayRef) :
    ((arena.createArray name length).2.array ref).elements = (arena.array ref).elements := by
  simp only [Arena.createArray, Arena.array, Array.getD_eq_getD_getElem?, Array.getElem?_push]
  split
  · rename_i hLast
    rw [hLast, Array.getElem?_eq_none (Nat.le_refl _)]
    rfl
  · rfl

instance createArray_steady (name : String) (length : Int) : Steady (createArray name length) where
  keeps := by
    intro before ref after hGives hWell
    obtain ⟨-, rfl⟩ := of_createArray hGives
    apply Store.Keeps.of_marks
    · exact ⟨hWell.nodup, hWell.empty, hWell.used⟩
    · exact fun _ hBorn => hBorn
    · exact fun _ => rfl
    · exact elements_createArray _ name length
    · rfl
    · exact fun _ _ hOccupant => hOccupant

end StoreAction

namespace Context

/-- A context stays balanced when values that are not addressed through a variable take
cells. -/
theorem Balanced.houses {before after : Context} (hBalanced : before.Balanced)
    {handles : List Handle} (hHouses : before.store.Houses handles after.store)
    (hDynamics : after.dynamics = before.dynamics)
    (hHandles : ∀ handle ∈ handles, ∀ owns,
      before.store.arena.mark? handle ≠ some (.dynamic, owns)) : after.Balanced := by
  have hOld : ∀ handle mark owns, after.store.arena.mark? handle = some (mark, owns) →
      ∃ owned, before.store.arena.mark? handle = some (mark, owned) ∧
        (owned = owns ∨ handle ∈ handles ∧ owns = true) := by
    intro handle mark owns hMark
    rw [hHouses.marks] at hMark
    split at hMark
    · rename_i hHandle
      obtain ⟨⟨found, owned⟩, hBefore, hSame⟩ := Option.map_eq_some_iff.mp hMark
      cases hSame
      exact ⟨owned, hBefore, .inr ⟨hHandle, rfl⟩⟩
    · exact ⟨owns, hMark, .inl rfl⟩
  constructor
  · exact hHouses.wellFormed
  · intro address handle hOwner
    cases hHouses.owners address handle hOwner with
    | inl hBefore => exact hHouses.housed (hBalanced.owners address handle hBefore)
    | inr hHoused => exact hHoused
  · intro register handle hOccupant
    rw [Store.occupant?, Store.register?, hHouses.registers] at hOccupant
    exact hHouses.housed (hBalanced.occupants register handle hOccupant)
  · intro handle hHandle
    rw [hDynamics] at hHandle
    obtain ⟨hBorn, hMarks⟩ := hBalanced.dynamics handle hHandle
    refine ⟨(hHouses.born handle).mpr hBorn, ?_⟩
    intro mark hMark
    obtain ⟨owned, hBefore, hOwns⟩ := hOld handle mark.1 mark.2 hMark
    obtain ⟨hDynamic, hLoose⟩ := Prod.mk.inj (hMarks _ hBefore)
    rcases hOwns with hOwns | ⟨hHere, -⟩
    · exact Prod.ext hDynamic (hOwns.symm.trans hLoose)
    · rw [hDynamic] at hBefore
      exact absurd hBefore (hHandles handle hHere owned)
  · intro handle mark hMark
    obtain ⟨owned, hBefore, hOwns⟩ := hOld handle mark false hMark
    rcases hOwns with rfl | ⟨-, hOwns⟩
    · rw [hDynamics]
      exact hBalanced.loose handle mark hBefore
    · cases hOwns
  · intro handle hMark
    obtain ⟨owned, hBefore, hOwns⟩ := hOld handle .dynamic true hMark
    rcases hOwns with rfl | ⟨hHere, -⟩
    · exact hBalanced.placed handle hBefore
    · exact hHandles handle hHere owned hBefore
  · intro handle ref offset owns hMark
    obtain ⟨owned, hBefore, -⟩ := hOld handle _ owns hMark
    rw [hHouses.elements]
    exact hBalanced.listed handle ref offset owned hBefore
  · intro ref handle hHandle
    rw [hHouses.elements] at hHandle
    obtain ⟨hBorn, hMarks⟩ := hBalanced.elements ref handle hHandle
    refine ⟨(hHouses.born handle).mpr hBorn, ?_⟩
    intro mark owns hMark
    obtain ⟨owned, hBefore, -⟩ := hOld handle mark owns hMark
    exact hMarks mark owned hBefore
  · intro first second ref offset owns owned hFirst hSecond
    obtain ⟨_, hFirst, -⟩ := hOld first _ owns hFirst
    obtain ⟨_, hSecond, -⟩ := hOld second _ owned hSecond
    exact hBalanced.unique first second ref offset _ _ hFirst hSecond

/-! ### One value for each name -/

/-- A value is that of a declared scalar, or the element at offset zero of a declared array. -/
def Furnishes (context : Context) (handle : Handle) (mark : Mark) (owns : Bool) : Prop :=
  (mark = .other ∧ owns = true ∧
      ∃ name, context.setting.declared name = some (.scalar, .value handle)) ∨
    ∃ name ref, mark = .fixed ref 0 ∧ context.setting.declared name = some (.array, .array ref)

structure Furnished (context : Context) : Prop where
  balanced : context.Balanced
  values : ∀ handle mark owns, context.store.arena.mark? handle = some (mark, owns) →
    context.Furnishes handle mark owns
  heads : ∀ name kind ref, context.setting.declared name = some (kind, .array ref) →
    ∃ handle owns, context.store.arena.mark? handle = some (.fixed ref 0, owns)
  apart : ∀ first second kind other ref,
    context.setting.declared first = some (kind, .array ref) →
      context.setting.declared second = some (other, .array ref) → first = second

private theorem declared_of_lookup?_eq {before after : Context} {name : String} {kind : SymbolKind}
    {binding : Binding} (hLookup : ∀ other, after.store.symbols.lookup? other =
      if other = name then some ⟨name, kind, binding, true⟩
      else before.store.symbols.lookup? other) (other : String) :
    after.setting.declared other =
      if other = name then some (kind, binding) else before.setting.declared other := by
  simp only [setting, Store.setting, hLookup]
  split <;> rfl

/-- A new name with a new value, which is a scalar or the first element of a new array. -/
theorem Furnished.declare {before placed after : Context} (hFurnished : before.Furnished)
    (hBalanced : placed.Balanced) (hSymbols : placed.store.symbols = before.store.symbols)
    {handle : Handle} {mark : Mark} {owns : Bool} (hFresh : ¬before.store.arena.Born handle)
    (hMarks : ∀ other, placed.store.arena.mark? other =
      if other = handle then some (mark, owns) else before.store.arena.mark? other)
    {name : String} {kind : SymbolKind} {binding : Binding}
    (hNew : kind = .scalar ∧ binding = .value handle ∧ mark = .other ∧ owns = true ∨
      ∃ ref, kind = .array ∧ binding = .array ref ∧ mark = .fixed ref 0 ∧
        before.store.Undeclared ref)
    (hRun : (Generating.onStore (StoreAction.declare name kind binding)).run.run placed =
      (.ok (), after)) : after.Furnished := by
  obtain ⟨hGives, hAfter⟩ := Generating.of_onStore hRun
  have hBooks := Generating.Thrifty.books _ _ _ hRun hBalanced
  have hGives := hGives.of_get_bind
  cases hDeclare : placed.store.symbols.declare name kind binding with
  | error fault => rw [hDeclare] at hGives; cases hGives
  | ok symbols =>
      rw [hDeclare] at hGives
      obtain ⟨-, hStore⟩ := (StoreAction.Gives.modify _ placed.store).unique hGives
      rw [hSymbols] at hDeclare
      obtain ⟨hAbsent, hLookup⟩ := SymbolTable.lookup?_of_declare hDeclare
      have hArena : after.store.arena = placed.store.arena := by rw [← hStore]
      have hUndeclared : before.setting.declared name = none := by
        simp only [setting, Store.setting, hAbsent, Option.map_none]
      have hDeclared : ∀ other, after.setting.declared other =
          if other = name then some (kind, binding) else before.setting.declared other := by
        apply declared_of_lookup?_eq
        rw [← hStore]
        exact hLookup
      have hOthers : ∀ other found, before.setting.declared other = some found →
          after.setting.declared other = some found := by
        intro other found hFound
        have hDifferent : other ≠ name := by
          rintro rfl
          rw [hUndeclared] at hFound
          cases hFound
        rw [hDeclared, if_neg hDifferent, hFound]
      have hKept : ∀ other found, before.store.arena.mark? other = some found →
          after.store.arena.mark? other = some found := by
        intro other found hFound
        have hDifferent : other ≠ handle := by
          rintro rfl
          exact hFresh (Arena.born_of_mark? hFound)
        rw [hArena, hMarks, if_neg hDifferent, hFound]
      constructor
      · exact hBooks.balanced
      · intro other found owned hFound
        rw [hArena, hMarks] at hFound
        split at hFound
        · rename_i hSame
          cases hFound
          rw [hSame]
          rcases hNew with ⟨rfl, rfl, rfl, rfl⟩ | ⟨ref, rfl, rfl, rfl, -⟩
          · exact .inl ⟨rfl, rfl, name, by rw [hDeclared, if_pos rfl]⟩
          · exact .inr ⟨name, ref, rfl, by rw [hDeclared, if_pos rfl]⟩
        · rcases hFurnished.values other found owned hFound with
            ⟨rfl, rfl, named, hNamed⟩ | ⟨named, ref, rfl, hNamed⟩
          · exact .inl ⟨rfl, rfl, named, hOthers named _ hNamed⟩
          · exact .inr ⟨named, ref, rfl, hOthers named _ hNamed⟩
      · intro other sort ref hFound
        rw [hDeclared] at hFound
        split at hFound
        · cases hFound
          rcases hNew with ⟨_, hScalar, _⟩ | ⟨_, -, hArray, rfl, -⟩
          · cases hScalar
          · cases hArray
            exact ⟨handle, owns, by rw [hArena, hMarks, if_pos rfl]⟩
        · obtain ⟨head, owned, hHead⟩ := hFurnished.heads other sort ref hFound
          exact ⟨head, owned, hKept head _ hHead⟩
      · -- The new name does not share its array with an old one.
        have hAlone : ∀ other sort ref, binding = .array ref →
            before.setting.declared other ≠ some (sort, .array ref) := by
          intro other sort ref hSame
          rcases hNew with ⟨_, hScalar, _⟩ | ⟨_, -, hArray, -, hUnnamed⟩
          · rw [hScalar] at hSame
            cases hSame
          · rw [hArray] at hSame
            cases hSame
            exact hUnnamed other sort
        intro first second sort other ref hFirst hSecond
        rw [hDeclared] at hFirst hSecond
        split at hFirst
        · cases hFirst
          split at hSecond
          · rename_i hSame hSameToo
            rw [hSame, hSameToo]
          · exact absurd hSecond (hAlone second other ref rfl)
        · split at hSecond
          · cases hSecond
            exact absurd hFirst (hAlone first sort ref rfl)
          · exact hFurnished.apart first second sort other ref hFirst hSecond

private theorem Furnished.note {context : Context} (hFurnished : context.Furnished)
    (placements : Array Placement) : Furnished { context with placements := placements } := by
  have hStill : Books ∅ context { context with placements := placements } :=
    .still hFurnished.balanced rfl rfl
  exact ⟨hStill.balanced, hFurnished.values, hFurnished.heads, hFurnished.apart⟩

theorem furnished_empty (options : GeneratorOptions) : (Context.empty options).Furnished := by
  have hBlank : ∀ handle, (Context.empty options).store.arena.mark? handle = none := by
    intro handle
    simp [Context.empty, Store.empty, Arena.empty, Arena.mark?, Arena.get?]
  have hFlat : ∀ register, (Context.empty options).store.occupant? register = none := by
    intro register
    simp only [Context.empty, Store.empty, Store.occupant?, Store.register?, Array.getElem?_replicate]
    split
    · rfl
    · split <;> rfl
  have hNone : ∀ {handle : Handle} {mark : Mark × Bool} {goal : Prop},
      (Context.empty options).store.arena.mark? handle = some mark → goal := by
    intro handle mark goal hMark
    rw [hBlank] at hMark
    cases hMark
  constructor
  · constructor
    · exact Arena.wellFormed_empty
    · intro address handle hOwner
      cases hOwner
    · intro register handle hOccupant
      rw [hFlat] at hOccupant
      cases hOccupant
    · intro handle hHandle
      cases hHandle
    · exact fun _ _ => hNone
    · exact fun _ => hNone
    · exact fun _ _ _ _ => hNone
    · intro ref handle hHandle
      cases hHandle
    · exact fun _ _ _ _ _ _ => hNone
  · exact fun _ _ _ => hNone
  · intro name kind ref hDeclared
    cases hDeclared
  · intro first second kind other ref hDeclared
    cases hDeclared

end Context

/-! ### Declarations -/

namespace Generating

variable {context after : Context}

private theorem declareScalar_furnished (hFurnished : context.Furnished) {name : String}
    (hRun : (declareScalar name).run.run context = (.ok (), after)) : after.Furnished := by
  obtain ⟨handle, created, hCreate, hRun⟩ := exists_of_run_bind hRun
  obtain ⟨address, placed, hPlace, hRun⟩ := exists_of_run_bind hRun
  obtain ⟨_, declared, hDeclare, hNote⟩ := exists_of_run_bind hRun
  cases hNote
  obtain ⟨hCreateGives, hCreated⟩ := of_onStore hCreate
  obtain ⟨hPlaceGives, hPlaced⟩ := of_placing hPlace
  have hBalanced := hFurnished.balanced
  obtain ⟨hCreates, hArrays⟩ := StoreAction.create_creates hBalanced.wellFormed hCreateGives
  have hSpawns := Store.Spawns.cons hCreates hArrays (.nil hCreates.wellFormed)
  have hHouses := StoreAction.allocate_houses hSpawns.wellFormed hPlaceGives
  have hBooks := books_of_houses hBalanced hSpawns hHouses (by rw [hPlaced, hCreated])
  have hSymbols : placed.store.symbols = context.store.symbols := by
    have hFirst : created.store.symbols = context.store.symbols := by
      rw [← ((StoreAction.create_gives context.store _).unique hCreateGives).2]
    exact (StoreAction.allocate_leaves_symbols handle _ _ _ hPlaceGives).trans hFirst
  apply Context.Furnished.note
  apply hFurnished.declare hBooks.balanced hSymbols hCreates.fresh _ (.inl ⟨rfl, rfl, rfl, rfl⟩)
    hDeclare
  intro other
  rw [hHouses.marks, hCreates.marks]
  by_cases hSame : other = handle
  · rw [if_pos (List.mem_singleton.mpr hSame), if_pos hSame, if_pos hSame]
    rfl
  · rw [if_neg (fun hMem => hSame (List.mem_singleton.mp hMem)), if_neg hSame, if_neg hSame]

/-- A long array may be marked before its name is declared. -/
theorem markBig_keeps (hBalanced : context.Balanced) {head : Handle} {big : Prop}
    [Decidable big] {result : Unit} {next : Generating Unit}
    (hRun : (do
      if big then
        let _ ← onStore (StoreAction.change head (·.setBig true))
      next).run.run context = (.ok result, after)) :
    ∃ marked : Context, marked.Balanced ∧ marked.store.symbols = context.store.symbols ∧
      (∀ other, marked.store.arena.mark? other = context.store.arena.mark? other) ∧
      next.run.run marked = (.ok result, after) := by
  by_cases hBig : big
  · rw [if_pos hBig] at hRun
    obtain ⟨_, marked, hMark, hNext⟩ := exists_of_run_bind hRun
    have hSetBig : ∀ value : Value, (value.setBig true).payload.mark = value.payload.mark ∧
        (value.setBig true).chunk = value.chunk := fun value => value.mark_mapPlain _
    have hSteady := StoreAction.change_steady head hSetBig
    have hBooks := Thrifty.books _ _ _ hMark hBalanced
    obtain ⟨hGives, -⟩ := of_onStore hMark
    refine ⟨marked, hBooks.balanced, StoreAction.change_leaves_symbols _ _ _ _ _ hGives, ?_, hNext⟩
    obtain ⟨_, found, hValue, hGives⟩ := hGives.exists_of_bind
    obtain ⟨_, changed, hModify, hPure⟩ := hGives.exists_of_bind
    obtain ⟨-, rfl⟩ := (StoreAction.Gives.modify _ found).unique hModify
    obtain ⟨-, hLast⟩ := (StoreAction.Gives.pure _ _).unique hPure
    have hFound : found = context.store := StoreAction.value_leaves id head _ _ _ hValue
    intro other
    rw [← hLast, hFound]
    exact Arena.mark?_modify hSetBig head other
  · rw [if_neg hBig] at hRun
    exact ⟨context, hBalanced, rfl, fun _ => rfl, hRun⟩

private theorem declareArray_furnished (hFurnished : context.Furnished)
    (hLinked : context.store.Linked) {name : String} {length : Nat}
    (hRun : (declareArray name length).run.run context = (.ok (), after)) : after.Furnished := by
  obtain ⟨ref, described, hDescribe, hRun⟩ := exists_of_run_bind hRun
  obtain ⟨head, headed, hHead, hRun⟩ := exists_of_run_bind hRun
  obtain ⟨_, placed, hPlace, hRun⟩ := exists_of_run_bind hRun
  have hRun := of_get_bind hRun
  obtain ⟨hDescribeGives, hDescribed⟩ := of_onStore hDescribe
  obtain ⟨hHeadGives, hHeaded⟩ := of_onStore hHead
  obtain ⟨hPlaceGives, hPlaced⟩ := of_placing hPlace
  have hDescribedBooks := Thrifty.books _ _ _ hDescribe hFurnished.balanced
  obtain ⟨rfl, hStore⟩ := StoreAction.of_createArray hDescribeGives
  have hUndeclared := Store.undeclared_next hLinked
  -- The new array lists no element yet.
  have hBlank : described.store.arena.usedElement? context.store.arena.arrays.size 0 = none := by
    have hElements : (described.store.arena.array context.store.arena.arrays.size).elements =
        [] := by
      rw [hStore]
      apply (StoreAction.elements_createArray _ _ _ _).trans
      rw [Arena.array, Array.getD_eq_getD_getElem?, Array.getElem?_eq_none (Nat.le_refl _)]
      rfl
    rw [Arena.usedElement?, hElements]
    rfl
  have hHeadedBalanced : headed.Balanced := by
    rw [hHeaded]
    exact (Books.element hDescribedBooks.balanced hHeadGives).balanced
  rcases StoreAction.element_cases hDescribedBooks.balanced.wellFormed hHeadGives with
    ⟨-, hUsed⟩ | ⟨-, hCreates, -⟩
  · rw [hBlank] at hUsed
    cases hUsed
  have hMark : headed.store.arena.mark? head =
      some (.fixed context.store.arena.arrays.size 0, false) := by
    rw [hCreates.marks, if_pos rfl]
  obtain ⟨owns, hBalanced, hMarks⟩ : ∃ owns, placed.Balanced ∧
      ∀ other, placed.store.arena.mark? other =
        if other = head then some (.fixed context.store.arena.arrays.size 0, owns)
        else context.store.arena.mark? other := by
    have hOld : ∀ other, described.store.arena.mark? other = context.store.arena.mark? other := by
      rw [hStore]
      exact fun _ => rfl
    have hDynamics : placed.dynamics = headed.dynamics := by rw [hPlaced]
    have hFixed : ∀ owns, headed.store.arena.mark? head ≠ some (.dynamic, owns) := by
      intro owns hDynamic
      rw [hMark] at hDynamic
      cases hDynamic
    rcases StoreAction.allocateArray_houses hHeadedBalanced.wellFormed hPlaceGives with
      hHouses | hHouses
    · refine ⟨false, hHeadedBalanced.houses hHouses hDynamics ?_, ?_⟩
      · intro handle hHandle
        cases hHandle
      intro other
      rw [hHouses.marks, if_neg List.not_mem_nil, hCreates.marks, hOld]
    · refine ⟨true, hHeadedBalanced.houses hHouses hDynamics ?_, ?_⟩
      · intro handle hHandle
        rw [List.mem_singleton.mp hHandle]
        exact hFixed
      · intro other
        rw [hHouses.marks]
        by_cases hSame : other = head
        · rw [if_pos (List.mem_singleton.mpr hSame), if_pos hSame, hSame, hMark]
          rfl
        · rw [if_neg (fun hMem => hSame (List.mem_singleton.mp hMem)), if_neg hSame,
            hCreates.marks, if_neg hSame, hOld]
  have hSymbols : placed.store.symbols = context.store.symbols := by
    rw [StoreAction.allocateArray_leaves_symbols _ _ _ _ _ hPlaceGives,
      StoreAction.element_leaves_symbols _ _ _ _ _ hHeadGives, hStore]
  obtain ⟨marked, hMarkedBalanced, hMarkedSymbols, hMarkedMarks, hRun⟩ :=
    markBig_keeps hBalanced hRun
  obtain ⟨_, declared, hDeclare, hNote⟩ := exists_of_run_bind hRun
  cases hNote
  apply Context.Furnished.note
  have hFresh : ¬context.store.arena.Born head := by
    intro hBorn
    apply hCreates.fresh
    rw [hStore]
    exact hBorn
  exact hFurnished.declare hMarkedBalanced (hMarkedSymbols.trans hSymbols) hFresh
    (fun other => (hMarkedMarks other).trans (hMarks other))
    (.inr ⟨_, rfl, rfl, rfl, hUndeclared⟩) hDeclare

private theorem declareName_furnished (hFurnished : context.Furnished)
    (hLinked : context.store.Linked) {declaration : Declaration}
    (hRun : (declareName declaration).run.run context = (.ok (), after)) : after.Furnished := by
  rcases declareName_cases hRun with ⟨-, hScalar⟩ | ⟨length, -, -, hArray⟩
  · exact declareScalar_furnished hFurnished hScalar
  · exact declareArray_furnished hFurnished hLinked hArray

theorem declareAll_furnished {done declarations : List Declaration}
    (hOpening : context.Opening done) (hFurnished : context.Furnished)
    (hRun : (declareAll declarations).run.run context = (.ok (), after)) : after.Furnished := by
  induction declarations generalizing context done with
  | nil =>
      cases hRun
      exact hFurnished
  | cons declaration rest inductionHypothesis =>
      have hNamed := named_of_declareAll hRun declaration List.mem_cons_self
      rw [declareAll] at hRun
      obtain ⟨_, named, hName, hRest⟩ := exists_of_run_bind hRun
      have hOpened := ((Context.declareName_ensures hOpening hNamed).of_run hName).1
      apply inductionHypothesis hOpened _ hRest
      exact declareName_furnished hFurnished hOpening.store.toLinked hName

end Generating

end RegisterCompiler
