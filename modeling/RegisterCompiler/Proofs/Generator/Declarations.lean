/-
The cells of declared names.

Every declared name gets its cells before the first command is compiled.  Then no register
is used, nothing is known, and the arrays start where the placements say.
-/

import RegisterCompiler.Proofs.Generator.Branching
import RegisterCompiler.Proofs.Store.Placing

set_option autoImplicit false

namespace RegisterCompiler

open Generating (Ensures)

/-! ### Placements -/

def Placement.bases (placements : List Placement) : Bases := fun name =>
  ((placements.find? fun placement => placement.name == name).map Placement.address).getD 0

namespace Placement

private theorem bases_append_of_mem {placements : List Placement} {name : String}
    (hPlaced : name ∈ placements.map Placement.name) (rest : List Placement) :
    bases (placements ++ rest) name = bases placements name := by
  have hFound : (placements.find? fun placement => placement.name == name).isSome = true := by
    obtain ⟨placement, hMem, hName⟩ := List.mem_map.mp hPlaced
    exact List.find?_isSome.mpr ⟨placement, hMem, beq_iff_eq.mpr hName⟩
  obtain ⟨placement, hFound⟩ := Option.isSome_iff_exists.mp hFound
  simp only [bases, List.find?_append, hFound, Option.some_or]

private theorem bases_append_of_not_mem {placements : List Placement} {placement : Placement}
    (hNew : placement.name ∉ placements.map Placement.name) :
    bases (placements ++ [placement]) placement.name = placement.address := by
  have hNone : (placements.find? fun other => other.name == placement.name) = none := by
    rw [List.find?_eq_none]
    intro other hMem hName
    exact hNew (List.mem_map.mpr ⟨other, hMem, beq_iff_eq.mp hName⟩)
  simp only [bases, List.find?_append, hNone, Option.none_or, List.find?_cons, beq_self_eq_true,
    Option.map_some, Option.getD_some]

end Placement

def Declaration.Stands (declaration : Declaration) (setting : Setting) : Prop :=
  match declaration.length with
  | none => ∃ handle, setting.declared declaration.name = some (.scalar, .value handle)
  | some length => ∃ ref base, setting.declared declaration.name = some (.array, .array ref) ∧
      setting.array ref = (some base, (length : Int))

namespace Declaration.Stands

variable {declaration : Declaration} {before after : Setting}
  (hStands : declaration.Stands before)

include hStands

theorem isSome_declared : (before.declared declaration.name).isSome = true := by
  unfold Declaration.Stands at hStands
  cases hLength : declaration.length with
  | none =>
      rw [hLength] at hStands
      obtain ⟨handle, hDeclared⟩ := hStands
      exact Option.isSome_of_eq_some hDeclared
  | some length =>
      rw [hLength] at hStands
      obtain ⟨ref, base, hDeclared, -⟩ := hStands
      exact Option.isSome_of_eq_some hDeclared

private theorem congr
    (hDeclared : after.declared declaration.name = before.declared declaration.name)
    (hArrays : ∀ kind ref, before.declared declaration.name = some (kind, .array ref) →
      after.array ref = before.array ref) : declaration.Stands after := by
  unfold Declaration.Stands at hStands ⊢
  cases hLength : declaration.length with
  | none =>
      rw [hLength] at hStands
      obtain ⟨handle, hFound⟩ := hStands
      exact ⟨handle, hDeclared.trans hFound⟩
  | some length =>
      rw [hLength] at hStands
      obtain ⟨ref, base, hFound, hArray⟩ := hStands
      exact ⟨ref, base, hDeclared.trans hFound, (hArrays _ ref hFound).trans hArray⟩

end Declaration.Stands

structure Setting.Declares (setting : Setting) (declarations : List Declaration) : Prop where
  stands : ∀ declaration ∈ declarations, declaration.Stands setting
  others : ∀ name, name ∉ declarations.map Declaration.name → setting.declared name = none

namespace Generating.Ensures

variable {α : Type} {context : Context} {post : α → Context → Prop}

theorem run_placing (name : String) (action : StoreAction α) (context : Context) :
    (Generating.placing name action).run.run context =
      ((action.run.run context.store).1.mapError (.placing name),
        { context with store := (action.run.run context.store).2 }) := by
  have hGet : ∀ next : Context → Generating α,
      (MonadState.get >>= next).run.run context = (next context).run.run context := fun _ => rfl
  rw [Generating.placing, hGet]
  rcases action.run.run context.store with ⟨result, store⟩
  cases result with
  | ok value => rfl
  | error fault => rfl

private theorem placing {name : String} {action : StoreAction α} {value : α} {store : Store}
    (hGives : action.Gives context.store value store)
    (hPost : post value { context with store := store }) :
    Ensures (Generating.placing name action) context post := by
  unfold StoreAction.Gives at hGives
  unfold Ensures
  rw [run_placing, hGives]
  exact hPost

private theorem placing_bind {β : Type} {name : String} {action : StoreAction β}
    {next : β → Generating α} {value : β} {store : Store}
    (hGives : action.Gives context.store value store)
    (hNext : Ensures (next value) { context with store := store } post) :
    Ensures (Generating.placing name action >>= next) context post := by
  have hHere : Ensures (Generating.placing name action) context fun found after =>
      found = value ∧ after = { context with store := store } := .placing hGives ⟨rfl, rfl⟩
  refine .bind hHere ?_
  rintro _ _ ⟨rfl, rfl⟩
  exact hNext

private theorem placing_refuses {name : String} {action : StoreAction α} {fault : StoreFault}
    (hRefuses : action.Refuses context.store fault) (hUsual : fault.isExhaustion = true) :
    Ensures (Generating.placing name action) context post := by
  unfold StoreAction.Refuses at hRefuses
  unfold Ensures
  rw [run_placing, hRefuses]
  exact hUsual

end Generating.Ensures

namespace Context

variable {context : Context}

/-- A context in which nothing but some declarations was compiled. -/
structure Opening (context : Context) (declarations : List Declaration) : Prop where
  blank : context = { Context.empty context.options with
    store := context.store, placements := context.placements }
  store : context.store.Sound
  rows : context.store.Rows
  registers : context.store.registers =
    Array.replicate context.options.registers.toNat ⟨.free, none⟩
  unknown : ∀ handle, context.setting.known handle = none
  declares : context.setting.Declares declarations
  bases : context.setting.HasBases (Placement.bases context.placements.toList)
  placed : ∀ name, name ∈ context.placements.toList.map Placement.name ↔
    name ∈ declarations.map Declaration.name

/-! ### One declaration -/

/-- A new name keeps what was declared before. -/
theorem Opening.extend {declarations : List Declaration} (hOpening : context.Opening declarations)
    {store : Store} (hStore : store.Sound) (hRows : store.Rows)
    (hRegisters : store.registers = context.store.registers)
    (hKnown : store.setting.known = context.setting.known) {declaration : Declaration}
    (hNew : context.setting.declared declaration.name = none)
    (hOthers : ∀ other, other ≠ declaration.name →
      store.setting.declared other = context.setting.declared other)
    (hArrays : ∀ name kind ref, context.setting.declared name = some (kind, .array ref) →
      store.setting.array ref = context.setting.array ref)
    (hStands : declaration.Stands store.setting) {placement : Placement}
    (hName : placement.name = declaration.name)
    (hBase : ∀ kind ref, store.setting.declared declaration.name = some (kind, .array ref) →
      (store.setting.array ref).1 = some placement.address) :
    Opening { context with store := store, placements := context.placements.push placement }
      (declarations ++ [declaration]) := by
  have hOld : declaration.name ∉ declarations.map Declaration.name := by
    intro hMem
    obtain ⟨other, hOther, hSame⟩ := List.mem_map.mp hMem
    have hStood := hOpening.declares.stands other hOther
    have hFound := hStood.isSome_declared
    rw [hSame, hNew] at hFound
    contradiction
  have hUnplaced : placement.name ∉ context.placements.toList.map Placement.name := by
    rw [hName, hOpening.placed]
    exact hOld
  refine ⟨?_, hStore, hRows, hRegisters.trans hOpening.registers, ?_, ⟨?_, ?_⟩, ?_, ?_⟩
  · have hBlank := hOpening.blank
    rw [hBlank]
    rfl
  · intro handle
    change store.setting.known handle = none
    rw [hKnown]
    exact hOpening.unknown handle
  · intro other hOther
    rcases List.mem_append.mp hOther with hBefore | hHere
    · have hStood := hOpening.declares.stands other hBefore
      have hDifferent : other.name ≠ declaration.name := by
        intro hSame
        exact hOld (List.mem_map.mpr ⟨other, hBefore, hSame⟩)
      exact hStood.congr (hOthers other.name hDifferent) (hArrays other.name)
    · rw [List.mem_singleton.mp hHere]
      exact hStands
  · intro name hAbsent
    simp only [List.map_append, List.map_cons, List.map_nil, List.mem_append, List.mem_singleton,
      not_or] at hAbsent
    exact (hOthers name hAbsent.2).trans (hOpening.declares.others name hAbsent.1)
  · intro name kind ref hDeclared
    change (store.setting.array ref).1 = _
    rw [Array.toList_push]
    by_cases hSame : name = declaration.name
    · rw [hSame, ← hName, Placement.bases_append_of_not_mem hUnplaced]
      exact hBase kind ref (hSame ▸ hDeclared)
    · have hBefore : context.setting.declared name = some (kind, .array ref) :=
        (hOthers name hSame).symm.trans hDeclared
      have hMem : name ∈ context.placements.toList.map Placement.name := by
        rw [hOpening.placed]
        apply Classical.byContradiction
        intro hAbsent
        rw [hOpening.declares.others name hAbsent] at hBefore
        contradiction
      rw [Placement.bases_append_of_mem hMem, hArrays name kind ref hBefore]
      exact hOpening.bases name kind ref hBefore
  · intro name
    simp only [Array.toList_push, List.map_append, List.map_cons, List.map_nil, List.mem_append,
      List.mem_singleton, hOpening.placed, hName]

private theorem declareScalar_ensures {declarations : List Declaration}
    (hOpening : context.Opening declarations) {declaration : Declaration}
    (hName : declaration.name ≠ "") (hScalar : declaration.length = none)
    (hNew : context.setting.declared declaration.name = none) :
    Ensures (Generating.declareScalar declaration.name) context fun _ after =>
      after.Opening (declarations ++ [declaration]) ∧ after.options = context.options := by
  obtain ⟨handle, created, hCreate, hCreated, hRows, hSetting, hSameRegisters, hLoose, hValue⟩ :=
    StoreAction.createScalar_gives hOpening.store hOpening.rows declaration.name
  refine .onStore_bind hCreate ?_
  rcases StoreAction.allocate_scalars_run hCreated hRows hLoose (by rw [hValue]; rfl) with
    ⟨range, hRefuses⟩ |
    ⟨address, placed, hGives, hPlaced, hPlacedRows, hClaimed, hLow, hRegisters, hGet⟩
  · exact .bind (.placing_refuses hRefuses rfl) fun _ _ hFalse => hFalse
  refine .placing_bind hGives ?_
  rw [hSetting] at hClaimed
  have hChunk : placed.setting.chunk handle = some address := by
    rw [hClaimed]
    exact Function.update_self _ _ _
  have hUnnamed : placed.setting.nameOf handle = none := by
    rw [hClaimed, ← hSetting]
    exact hLoose.unnamed
  have hAbsent : placed.setting.declared declaration.name = none := by
    rw [hClaimed]
    exact hNew
  have hBound : (placed.bindName declaration.name .scalar handle).setting =
      (context.setting.claim address handle).bindName declaration.name .scalar handle := by
    rw [Store.setting_bindName hPlaced.toLinked hChunk hUnnamed, hClaimed]
  have hDeclared : (placed.bindName declaration.name .scalar handle).setting.declared =
      Function.update context.setting.declared declaration.name (some (.scalar, .value handle)) :=
    congrArg Setting.declared hBound
  have hBoundSound : (placed.bindName declaration.name .scalar handle).Sound := by
    refine Store.sound_bindName hPlaced hAbsent hChunk ?_ hUnnamed ?_
    · have hLayout : placed.space.layout = created.space.layout := by
        have hSame := congrArg Setting.layout (hClaimed.trans (by rw [← hSetting]))
        exact hSame
      rw [hLayout]
      exact hLow
    · intro _ value hFound
      rw [hGet, Store.get?_claim, hValue, Option.map_some, if_pos rfl] at hFound
      cases hFound
      exact ⟨_, rfl⟩
  refine .onStore_bind (StoreAction.declare_value_gives hName hAbsent .scalar handle) ?_
  refine .modify ⟨hOpening.extend hBoundSound ?_ ?_ ?_ hNew ?_ ?_ ?_ rfl ?_, rfl⟩
  · exact ⟨hPlacedRows.scalars, hPlacedRows.arrays, hPlacedRows.owned⟩
  · exact hRegisters.trans hSameRegisters
  · rw [hBound]
    rfl
  · intro other hOther
    rw [hDeclared, Function.update_of_ne hOther]
  · intro name kind ref _
    rw [hBound]
    rfl
  · unfold Declaration.Stands
    rw [hScalar, hDeclared]
    exact ⟨handle, Function.update_self _ _ _⟩
  · intro kind ref hArray
    rw [hDeclared, Function.update_self] at hArray
    cases hArray

/-- A placed array may be marked as lying above the segments before it is declared. -/
theorem markBig_ensures (hSound : context.store.Sound) {head : Handle}
    (hLive : (context.store.arena.get? head).isSome = true)
    (hUnnamed : context.setting.nameOf head = none) (big : Prop) [Decidable big]
    {next : Generating Unit} {post : Unit → Context → Prop}
    (hNext : ∀ store : Store, store.Sound → store.setting = context.setting →
      store.space = context.store.space → store.registers = context.store.registers →
      Ensures next { context with store := store } post) :
    Ensures (do
      if big then
        let _ ← Generating.onStore (StoreAction.change head (·.setBig true))
      next) context post := by
  by_cases hBig : big
  · rw [if_pos hBig]
    obtain ⟨value, hValue⟩ := Option.isSome_iff_exists.mp hLive
    obtain ⟨hMarked, hSetting⟩ := Store.sound_setBig hSound hUnnamed
    exact .onStore_bind (StoreAction.change_gives hValue _) (hNext _ hMarked hSetting rfl rfl)
  · rw [if_neg hBig]
    exact hNext context.store hSound rfl rfl rfl

/-- A placed array keeps what was declared before. -/
theorem Opening.extendArray {declarations : List Declaration}
    (hOpening : context.Opening declarations) {declaration : Declaration} {length : Nat}
    (hArray : declaration.length = some length)
    (hNew : context.setting.declared declaration.name = none) {head : Handle} {base : Nat}
    {described placed marked : Store}
    (hDescribes : context.store.DescribesArray described length head)
    (hPlaces : described.PlacesArray placed context.store.arena.arrays.size base)
    (hMarked : marked.Sound) (hSetting : marked.setting = placed.setting)
    (hSpace : marked.space = placed.space) (hRegisters : marked.registers = placed.registers)
    (hAbsent : marked.setting.declared declaration.name = none) {placement : Placement}
    (hName : placement.name = declaration.name) (hAddress : placement.address = base) :
    Opening { context with
      store := marked.bindArray declaration.name context.store.arena.arrays.size
      placements := context.placements.push placement } (declarations ++ [declaration]) := by
  let ref := context.store.arena.arrays.size
  have hMarkedArray : marked.setting.array =
      Function.update described.setting.array ref (some base, (length : Int)) := by
    rw [hSetting, hPlaces.array, hDescribes.array]
  have hInfo : marked.setting.array ref = (some base, (length : Int)) := by
    rw [hMarkedArray]
    exact Function.update_self _ _ _
  have hStart : marked.setting.arraysStart ≤ base := by
    have hSame : marked.setting.arraysStart = described.setting.arraysStart := by
      rw [hSetting]
      exact congrArg (fun layout : Layout => layout.arrays.first.toNat) hPlaces.layout
    rw [hSame]
    exact hPlaces.start
  have hDeclaredMarked : marked.setting.declared = context.setting.declared := by
    rw [hSetting, ← show described.setting.declared = _ from hDescribes.declared]
    simp only [Store.setting, hPlaces.symbols]
  have hFinal := Store.setting_bindArray marked declaration.name ref
  have hDeclared : (marked.bindArray declaration.name ref).setting.declared =
      Function.update context.setting.declared declaration.name (some (.array, .array ref)) := by
    rw [hFinal, ← hDeclaredMarked]
    rfl
  refine hOpening.extend (Store.sound_bindArray hMarked hAbsent (congrArg Prod.fst hInfo) hStart)
    ?_ ?_ ?_ hNew ?_ ?_ ?_ hName ?_
  · have hRows := hPlaces.rows
    refine ⟨by rw [show (marked.bindArray _ _).space = _ from hSpace]; exact hRows.scalars,
      by rw [show (marked.bindArray _ _).space = _ from hSpace]; exact hRows.arrays, ?_⟩
    rw [show (marked.bindArray _ _).space = _ from hSpace, hFinal]
    have hOwned := hRows.owned
    rw [← hSetting] at hOwned
    exact hOwned
  · exact (hRegisters.trans hPlaces.registers).trans hDescribes.registers
  · rw [hFinal]
    change marked.setting.known = _
    rw [hSetting, hPlaces.known, hDescribes.setting]
    rfl
  · intro other hOther
    rw [hDeclared, Function.update_of_ne hOther]
  · intro name kind other hOther
    have hDifferent : other ≠ ref := by
      rintro rfl
      exact Store.undeclared_next hOpening.store.toLinked name kind hOther
    rw [hFinal]
    change marked.setting.array other = _
    rw [hMarkedArray, Function.update_of_ne hDifferent, hDescribes.setting]
    exact Function.update_of_ne hDifferent _ _
  · unfold Declaration.Stands
    rw [hArray, hDeclared]
    refine ⟨ref, base, Function.update_self _ _ _, ?_⟩
    rw [hFinal]
    exact hInfo
  · intro kind other hOther
    rw [hDeclared, Function.update_self] at hOther
    cases hOther
    rw [hFinal, hAddress]
    exact congrArg Prod.fst hInfo

private theorem declareArray_ensures {declarations : List Declaration}
    (hOpening : context.Opening declarations) {declaration : Declaration}
    (hName : declaration.name ≠ "") {length : Nat} (hArray : declaration.length = some length)
    (hLength : length ≠ 0) (hNew : context.setting.declared declaration.name = none) :
    Ensures (Generating.declareArray declaration.name length) context fun _ after =>
      after.Opening (declarations ++ [declaration]) ∧ after.options = context.options := by
  obtain ⟨between, head, described, hCreate, hHead, hDescribes⟩ :=
    StoreAction.describeArray_gives hOpening.store hOpening.rows declaration.name hLength
  refine .onStore_bind hCreate (.onStore_bind hHead ?_)
  have hPositive : 0 < (described.arena.array context.store.arena.arrays.size).length := by
    rw [hDescribes.length_eq]
    omega
  rcases StoreAction.allocateArray_run hDescribes.sound hDescribes.rows hDescribes.bound
    (hDescribes.undeclared hOpening.store) hPositive hDescribes.loose hDescribes.unknown with
    ⟨needed, left, hRefuses⟩ | ⟨base, placed, hGives, hPlaces⟩
  · exact .bind (.placing_refuses hRefuses rfl) fun _ _ hFalse => hFalse
  have hUnnamed : placed.setting.nameOf head = none := by
    simp only [Store.setting, hPlaces.symbols]
    exact hDescribes.loose.unnamed
  have hBase : (placed.arena.array context.store.arena.arrays.size).base = some base := by
    have hInfo := congrFun hPlaces.array context.store.arena.arrays.size
    rw [Function.update_self] at hInfo
    exact congrArg Prod.fst hInfo
  refine .placing_bind hGives (.get ?_)
  refine markBig_ensures hPlaces.sound (hPlaces.live head hDescribes.loose.live) hUnnamed _ ?_
  intro marked hMarked hSetting hSpace hRegisters
  have hAbsent : marked.setting.declared declaration.name = none := by
    rw [hSetting]
    simp only [setting, Store.setting, hPlaces.symbols, hDescribes.symbols]
    exact hNew
  refine .onStore_bind (StoreAction.declare_array_gives hName hAbsent _) ?_
  refine .modify ⟨hOpening.extendArray hArray hNew hDescribes hPlaces hMarked hSetting hSpace
    hRegisters hAbsent rfl ?_, rfl⟩
  simp only [hBase, Option.getD_some]

theorem declareName_ensures {declarations : List Declaration}
    (hOpening : context.Opening declarations) {declaration : Declaration}
    (hName : declaration.name ≠ "") :
    Ensures (Generating.declareName declaration) context fun _ after =>
      after.Opening (declarations ++ [declaration]) ∧ after.options = context.options := by
  refine .get ?_
  cases hLookup : context.store.symbols.lookup? declaration.name with
  | some entry => exact .bind (.refuse _ _) fun _ _ hFalse => hFalse
  | none =>
      have hNew : context.setting.declared declaration.name = none := by
        simp only [setting, Store.setting, hLookup, Option.map_none]
      cases hLength : declaration.length with
      | none => exact declareScalar_ensures hOpening hName hLength hNew
      | some length =>
          by_cases hZero : length = 0
          · simp only [hZero, if_true]
            exact .bind (.refuse _ _) fun _ _ hFalse => hFalse
          · simp only [hZero, if_false]
            exact declareArray_ensures hOpening hName hLength hZero hNew

/-! ### All declarations -/

theorem declareAll_ensures {done : List Declaration} (hOpening : context.Opening done)
    {declarations : List Declaration}
    (hNames : ∀ declaration ∈ declarations, declaration.name ≠ "") :
    Ensures (Generating.declareAll declarations) context fun _ after =>
      after.Opening (done ++ declarations) ∧ after.options = context.options := by
  induction declarations generalizing context done with
  | nil =>
      rw [List.append_nil]
      exact .pure ⟨hOpening, rfl⟩
  | cons declaration rest inductionHypothesis =>
      rw [Generating.declareAll]
      refine .bind (declareName_ensures hOpening (hNames declaration List.mem_cons_self)) ?_
      rintro - named ⟨hNamed, hOptions⟩
      refine (inductionHypothesis hNamed fun other hOther =>
        hNames other (List.mem_cons_of_mem _ hOther)).mono ?_
      rintro - after ⟨hAfter, hSame⟩
      rw [List.append_assoc] at hAfter
      exact ⟨hAfter, hSame.trans hOptions⟩

theorem opening_empty {options : GeneratorOptions}
    (hRegisters : GeneratorOptions.leastRegisters ≤ options.registers)
    (hLayout : options.layout.fault? = none) : (Context.empty options).Opening [] := by
  have hCount : 5 ≤ options.registers := hRegisters
  have hRegister? : ∀ register entry, (Context.empty options).store.register? register =
      some entry → entry = ⟨.free, none⟩ := by
    intro register entry hEntry
    obtain ⟨-, hFound⟩ := Store.register?_eq_some_iff.mp hEntry
    simp only [Context.empty, Store.empty, Array.getElem?_replicate] at hFound
    split at hFound
    · exact (Option.some.inj hFound).symm
    · contradiction
  have hOccupant : ∀ register, (Context.empty options).store.occupant? register = none := by
    intro register
    unfold Store.occupant?
    cases hEntry : (Context.empty options).store.register? register with
    | none => rfl
    | some entry =>
        rw [hRegister? register entry hEntry]
        rfl
  have hValues : ∀ handle, (Context.empty options).store.arena.get? handle = none := by
    intro handle
    simp [Context.empty, Store.empty, Arena.empty, Arena.get?]
  refine {
    blank := rfl
    store := ?_
    rows := ⟨Nat.zero_le _, Nat.zero_le _, fun _ _ hOwner => by cases hOwner⟩
    registers := rfl
    unknown := fun _ => rfl
    declares := ⟨fun _ hNone => absurd hNone List.not_mem_nil, fun _ _ => rfl⟩
    bases := fun _ _ _ hDeclared => by cases hDeclared
    placed := fun name => Iff.rfl }
  refine ⟨{
    arena := Arena.wellFormed_empty
    layout := hLayout
    enough := ?_
    pointer := ?_
    states := fun register entry hEntry => .inl (by rw [hRegister? register entry hEntry]; simp)
    occupants := ?_
    occupantNames := fun register handle hFound => absurd (hOccupant register) (by simp [hFound])
    entryNames := fun _ _ hEntry => by cases hEntry
    cells := fun _ _ _ hDeclared => by cases hDeclared
    strays := fun handle value hValue => absurd hValue (by simp [hValues])
    names := fun _ _ hName => by cases hName
    owners := ?_
    bases := fun _ _ _ hDeclared => by cases hDeclared }, fun _ _ hEntry => by cases hEntry⟩
  · simp only [Context.empty, Store.empty, Array.size_replicate]
    omega
  · have hFirst : 0 < options.registers.toNat := by omega
    refine Store.register?_eq_some_iff.mpr ⟨Int.le_refl 0, ?_⟩
    simp [Context.empty, Store.empty, hFirst]
  · intro register handle
    simp [hOccupant, hValues]
  · intro address handle
    simp only [Store.setting, hValues]
    exact ⟨fun hOwner => (by cases hOwner), fun hChunk => by cases hChunk⟩

namespace Opening

variable {declarations : List Declaration} (hOpening : context.Opening declarations)

include hOpening

private theorem register? (register : Int) (entry : Register)
    (hEntry : context.store.register? register = some entry) : entry = ⟨.free, none⟩ := by
  obtain ⟨-, hFound⟩ := Store.register?_eq_some_iff.mp hEntry
  rw [hOpening.registers, Array.getElem?_replicate] at hFound
  split at hFound
  · exact (Option.some.inj hFound).symm
  · contradiction

private theorem flat : context.Flat := by
  intro register
  unfold Store.occupant?
  cases hEntry : context.store.register? register with
  | none => rfl
  | some entry =>
      rw [hOpening.register? register entry hEntry]
      rfl

private theorem tidy : context.Tidy := by
  have hDynamics : context.dynamics = [] := congrArg Context.dynamics hOpening.blank
  have hSize : (context.store.registers.size : Int) = context.options.registers := by
    have hEnough := hOpening.store.enough
    rw [hOpening.registers, Array.size_replicate] at hEnough ⊢
    omega
  refine ⟨⟨hOpening.store, hSize, ?_, ?_, ?_⟩, ?_, ?_⟩
  · rw [hDynamics]
    exact fun _ hNone => absurd hNone List.not_mem_nil
  · rw [hDynamics]
    exact List.nodup_nil
  · intro emission hEmission
    rw [hOpening.blank] at hEmission
    exact absurd hEmission nofun
  · intro register
    refine ⟨fun hNone => absurd hNone List.not_mem_nil, fun hHolds => ?_⟩
    have hFree := hOpening.register? register _ hHolds
    cases hFree
  · intro register handle hEntry
    have hFree := hOpening.register? register _ hEntry
    cases hFree

theorem prepared : context.Prepared (Placement.bases context.placements.toList) :=
  ⟨hOpening.tidy, hOpening.bases, fun _ address _ hLast =>
    hOpening.rows.vacant hOpening.store.layout address hLast⟩

theorem knows (scalar : String → Option Nat) : context.Knows scalar := by
  intro _ name handle number _ hKnown
  rw [hOpening.unknown] at hKnown
  contradiction

/-- Before the first command a machine shows every state whose cells it has. -/
theorem shows {state : SourceState} {snapshot : Snapshot}
    (hScalars : ∀ name address value, state.scalars name = some value →
      snapshot.memory address = some value)
    (hCells : ∀ address value, state.cells address = some value →
      snapshot.memory address = some value)
    (hInput : snapshot.input = state.input) (hOutput : snapshot.output = state.output) :
    context.Shows (state.picture [] fun _ => none) snapshot where
  pointer := by
    rw [hOpening.blank]
    exact fun _ hNone => absurd hNone nofun
  memory := fun name _ _ address value _ _ hValue => hScalars name _ value hValue
  cache := by
    intro register handle _ _ hOccupant
    rw [hOpening.flat register] at hOccupant
    contradiction
  mirror := by
    intro register handle _ _ _ hOccupant
    rw [hOpening.flat register] at hOccupant
    contradiction
  cells := fun address value _ hValue => hCells address value hValue
  scratch := fun _ _ hNone => absurd hNone nofun
  held := fun _ _ hNone => absurd hNone nofun
  input := hInput
  output := hOutput

end Opening

end Context

end RegisterCompiler
