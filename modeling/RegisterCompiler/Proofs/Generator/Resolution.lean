/-
Names and the operands they resolve to.

Resolving a reference finds an operand that is placed and, in every picture that agrees
with what is known, has the value the reference has.  Resolving a target finds an
operand such that writing it writes the cell the reference denotes.
-/

import RegisterCompiler.Proofs.Generator.Storing

set_option autoImplicit false

namespace RegisterCompiler

open Generating (Ensures)
open Source (Position)

def Picture.valuation (picture : Picture) : Valuation :=
  ⟨picture.scalar, picture.cell⟩

def Setting.HasBases (setting : Setting) (bases : Bases) : Prop :=
  ∀ name kind ref, setting.declared name = some (kind, .array ref) →
    (setting.array ref).1 = some (bases name)

namespace Context

variable {context : Context}

/-- Outside all constructs, what is known about a scalar is its value. -/
def Knows (context : Context) (scalar : String → Option Nat) : Prop :=
  context.depth = 0 → ∀ name handle known,
    context.setting.declared name = some (.scalar, .value handle) →
    context.setting.known handle = some known → scalar name = some known.toNat

theorem Knows.congr {after : Context} {scalar : String → Option Nat}
    (hKnows : context.Knows scalar) (hWorks : Works context after) : after.Knows scalar := by
  unfold Knows
  rw [hWorks.quiet.depth, hWorks.setting]
  exact hKnows

/-! ### Plain names -/

theorem declared_ensures (position : Position) (name : String) :
    Ensures (Generating.declared position name) context fun entry after =>
      after = context ∧ context.store.symbols.lookup? name = some entry := by
  refine .get ?_
  cases hEntry : context.store.symbols.lookup? name with
  | none => exact .refuse _ _
  | some entry => exact .pure ⟨rfl, rfl⟩

theorem declared_of_lookup? {name : String} {entry : SymbolEntry}
    (hEntry : context.store.symbols.lookup? name = some entry) :
    context.setting.declared name = some (entry.kind, entry.binding) := by
  simp only [setting, Store.setting, hEntry, Option.map_some]

theorem known?_ensures (entry : SymbolEntry) {handle : Handle}
    (hNamed : (context.setting.nameOf handle).isSome = true) :
    Ensures (Generating.known? entry handle) context fun result after =>
      after = context ∧ ∀ value, result = some value → context.depth = 0 ∧ entry.kind = .scalar ∧
        ∃ known, context.setting.known handle = some known ∧ known.toNat = value := by
  have hNone : ∀ value : Nat, none = some value → context.depth = 0 ∧ entry.kind = .scalar ∧
      ∃ known, context.setting.known handle = some known ∧ known.toNat = value :=
    fun _ hFalse => by contradiction
  refine .get ?_
  split
  · rename_i hAllowed
    simp only [Bool.and_eq_true, beq_iff_eq] at hAllowed
    obtain ⟨⟨-, hDepth⟩, hKind⟩ := hAllowed
    cases hValue : context.store.arena.get? handle with
    | none => exact .pure ⟨rfl, hNone⟩
    | some value =>
        simp only
        split
        · exact .pure ⟨rfl, hNone⟩
        · rename_i hVisible
          refine .pure ⟨rfl, ?_⟩
          intro number hNumber
          obtain ⟨known, hKnown, hEqual⟩ := Option.map_eq_some_iff.mp hNumber
          refine ⟨hDepth, hKind, known, ?_, hEqual⟩
          have hFound : (context.store.symbols.byValue.lookup handle).isSome = true := hNamed
          simp only [setting, Store.setting, hFound, if_true, hValue, Option.bind_some,
            Value.known?, if_neg hVisible]
          exact hKnown
  · exact .pure ⟨rfl, hNone⟩

theorem scalarCell_ensures (hSound : context.Sound) (position : Position) {name : String}
    {kind : SymbolKind} {handle : Handle}
    (hDeclared : context.setting.declared name = some (kind, .value handle)) :
    Ensures (Generating.scalarCell position name handle) context fun cell after =>
      after = context ∧ cell.name = name ∧ cell.handle = handle ∧
        cell.Placed context.setting := by
  obtain ⟨-, value, address, hValue, -, hChunk, -⟩ :=
    hSound.store.cells name kind handle hDeclared
  refine .value_bind hValue ?_
  rw [hChunk]
  refine .pure ⟨rfl, rfl, rfl, kind, address, Setting.cell?_eq_some_iff.mpr ⟨hDeclared, ?_⟩, rfl⟩
  simp only [setting, Store.setting, hValue, Option.bind_some, hChunk]

/-- Reading a scalar yields its value, known or not. -/
theorem viewScalar_ensures (hSound : context.Sound) (position : Position) {name : String}
    {entry : SymbolEntry} {handle : Handle}
    (hEntry : context.store.symbols.lookup? name = some entry)
    (hBinding : entry.binding = .value handle) :
    Ensures (Generating.viewScalar position entry handle) context fun view after =>
      after = context ∧ view.operand.Placed context.setting ∧
        ∀ picture, context.Knows picture.scalar →
          view.operand.value? picture = picture.scalar name := by
  have hDeclared := declared_of_lookup? hEntry
  rw [hBinding] at hDeclared
  have hName := (hSound.store.cells name entry.kind handle hDeclared).1
  refine .bind (known?_ensures entry (Option.isSome_of_eq_some hName)) ?_
  rintro result _ ⟨rfl, hKnown⟩
  cases result with
  | some value =>
      obtain ⟨hDepth, hKind, known, hFound, rfl⟩ := hKnown value rfl
      refine .pure ⟨rfl, trivial, ?_⟩
      intro picture hKnows
      rw [hKind] at hDeclared
      exact (hKnows hDepth name handle known hDeclared hFound).symm
  | none =>
      rw [hSound.store.entryNames name entry hEntry]
      refine .bind (scalarCell_ensures hSound position hDeclared) ?_
      rintro cell _ ⟨rfl, hCellName, -, hPlaced⟩
      refine .pure ⟨rfl, hPlaced, ?_⟩
      intro picture _
      rw [← hCellName]
      rfl

/-! ### Elements of arrays -/

/-- An operand found without changing a value or a register. -/
structure Finds (before after : Context) (operand : Operand) : Prop extends
    Turns before after Eq where
  registers : after.store.registers = before.store.registers
  placed : operand.Placed after.setting

theorem resolveElement_ensures (hSound : context.Sound) {bases : Bases}
    (hBases : context.setting.HasBases bases) (position : Position) {name : String}
    {kind : SymbolKind} {ref : ArrayRef}
    (hDeclared : context.setting.declared name = some (kind, .array ref)) (offset : Nat) :
    Ensures (Generating.resolveElement position ref offset) context fun operand after =>
      Finds context after operand ∧ operand = .element (bases name + offset) := by
  have hBase : (context.store.arena.array ref).base = some (bases name) :=
    hBases name kind ref hDeclared
  obtain ⟨base, hFound, hStart⟩ := hSound.store.bases name kind ref hDeclared
  have hSame : base = bases name := Option.some.inj (hFound.symm.trans hBase)
  refine .get ?_
  simp only
  split
  · rename_i hInside
    obtain ⟨handle, store, hGives, hStore, hSetting, hRegisters, hSymbols, hLive⟩ :=
      StoreAction.element_gives hSound.store hInside
    have hTurns : Turns context { context with store := store } Eq := by
      refine .onStore hSound hStore (by rw [hRegisters]) hSetting ?_ ?_
      · exact fun other hLoose => hLoose.congr hSetting (hLive other)
      · rintro start _ snapshot rfl hShows
        exact hShows.congr_setting hRegisters hSymbols hSetting
    refine .onStore_bind hGives (.pure ⟨⟨hTurns, hRegisters, ?_⟩, ?_⟩)
    · rw [hTurns.setting, hBase]
      change context.setting.arraysStart ≤ bases name + offset
      rw [← hSame]
      exact Nat.le_trans hStart (Nat.le_add_right _ _)
    · rw [hBase]
      rfl
  · exact .refuse _ _

/-- The element of an array whose index is in a scalar. -/
theorem resolveDynamic_ensures (hSound : context.Sound) {bases : Bases}
    (hBases : context.setting.HasBases bases) {name : String} {kind : SymbolKind} {ref : ArrayRef}
    (hDeclared : context.setting.declared name = some (kind, .array ref)) {index : ScalarCell}
    (hIndex : index.Placed context.setting) :
    Ensures (Generating.resolveDynamic ref index) context fun operand after =>
      Finds context after operand ∧ operand = .dynamic (bases name) index := by
  obtain ⟨payload, hGives⟩ := StoreAction.dynamicElement_gives context.store ref index.name
  have hStore := Store.sound_create hSound.store payload
  have hSetting := Store.setting_create hSound.store payload
  let created : Store :=
    { context.store with arena := (context.store.arena.create payload).2 }
  have hArray : (created.arena.array ref).base = some (bases name) := by
    have hHere : (created.setting.array ref).1 = some (bases name) := by
      rw [show created.setting = context.setting from hSetting]
      exact hBases name kind ref hDeclared
    exact hHere
  obtain ⟨base, hFound, hStart⟩ := hSound.store.bases name kind ref hDeclared
  have hSame : base = bases name :=
    Option.some.inj (hFound.symm.trans (hBases name kind ref hDeclared))
  have hOld : ∀ handle ∈ context.dynamics, _ := fun handle hHandle =>
    Store.Loose.create hSound.store payload (hSound.dynamics handle hHandle)
  let after : Context := { context with
    store := created
    dynamics := context.dynamics ++ [(context.store.arena.create payload).1] }
  have hAfter : after.Sound := by
    refine ⟨hStore, hSound.size, ?_, ?_, hSound.recorded⟩
    · intro handle hHandle
      rcases List.mem_append.mp hHandle with hFirst | hLast
      · exact (hOld handle hFirst).1
      · rw [List.mem_singleton.mp hLast]
        exact Store.loose_create hSound.store payload
    · refine List.nodup_append.mpr ⟨hSound.distinct, by simp, ?_⟩
      intro handle hHandle other hOther
      rw [List.mem_singleton.mp hOther]
      exact (hOld handle hHandle).2.1
  have hTurns : Turns context after Eq := by
    refine ⟨⟨⟨hAfter, ⟨rfl, rfl, rfl, rfl, rfl⟩, .refl _ _⟩, hSetting⟩, ?_⟩
    rintro picture _ rfl
    exact .still rfl fun snapshot hShows => hShows.congr_setting rfl rfl hSetting
  refine .onStore_bind hGives (.modify_bind (.get (.pure
    ⟨⟨hTurns, rfl, ?_, ?_⟩, ?_⟩)))
  · rw [show ((context.store.arena.create payload).2.array ref).base = _ from hArray]
    change (Setting.arraysStart created.setting) ≤ bases name
    rw [show created.setting = context.setting from hSetting, ← hSame]
    exact hStart
  · rw [show after.setting = context.setting from hSetting]
    exact hIndex
  · rw [show ((context.store.arena.create payload).2.array ref).base = _ from hArray]
    rfl

structure Denotes (context : Context) (bases : Bases) (array : String) (index : Index)
    (operand : Operand) : Prop where
  read : ∀ picture : Picture, context.Knows picture.scalar → operand.value? picture =
    (index.address? bases picture.valuation array).bind picture.cell
  write : ∀ picture : Picture, context.Knows picture.scalar → ∀ value, operand.write? picture value =
    (index.address? bases picture.valuation array).map fun address =>
      picture.setCell address value
  isVariable : operand.constant? = none
  isElement : ∀ cell, operand ≠ .scalar cell

theorem Denotes.learned {bases : Bases} {array : String} {index : Index} {operand : Operand}
    (hDenotes : context.Denotes bases array index operand) (setting : Setting)
    (known : Option Nat) : operand.learned setting known = setting := by
  cases operand with
  | scalar cell => exact absurd rfl (hDenotes.isElement cell)
  | _ => rfl

private theorem denotes_element {bases : Bases} {array : String} {index : Index} {offset : Nat}
    (hOffset : ∀ picture : Picture, context.Knows picture.scalar →
      index.address? bases picture.valuation array = some (bases array + offset)) :
    context.Denotes bases array index (.element (bases array + offset)) where
  read := fun picture hKnows => by rw [hOffset picture hKnows]; rfl
  write := fun picture hKnows value => by rw [hOffset picture hKnows]; rfl
  isVariable := rfl
  isElement := fun _ hScalar => by contradiction

theorem viewIndex_ensures (hSound : context.Sound) (position : Position) (name : String) :
    Ensures (Generating.viewIndex position name) context fun view after =>
      after = context ∧ view.operand.Placed context.setting ∧
        ∀ picture, context.Knows picture.scalar →
          view.operand.value? picture = picture.scalar name := by
  refine .bind (declared_ensures position name) ?_
  rintro entry _ ⟨rfl, hEntry⟩
  cases hBinding : entry.binding with
  | value handle => exact viewScalar_ensures hSound position hEntry hBinding
  | array ref => exact .refuse _ _
  | nothing => exact .refuse _ _

private theorem resolveArray_ensures (hSound : context.Sound) {bases : Bases}
    (hBases : context.setting.HasBases bases) {cell : Reference} {kind : SymbolKind}
    {ref : ArrayRef} (hDeclared : context.setting.declared cell.name = some (kind, .array ref)) :
    Ensures (Generating.resolveArray cell ref) context fun operand after =>
      Finds context after operand ∧ ∃ index, cell.index = some index ∧
        context.Denotes bases cell.name index operand := by
  unfold Generating.resolveArray
  cases hIndex : cell.index with
  | none => exact .refuse _ _
  | some index =>
      cases index with
      | number span offset =>
          refine (resolveElement_ensures hSound hBases _ hDeclared offset).mono ?_
          rintro _ after ⟨hFinds, rfl⟩
          exact ⟨hFinds, _, rfl, denotes_element fun _ _ => rfl⟩
      | name span other =>
          refine .bind (viewIndex_ensures hSound span.first other) ?_
          rintro view _ ⟨rfl, hPlaced, hValue⟩
          cases view with
          | known offset =>
              refine (resolveElement_ensures hSound hBases _ hDeclared offset).mono ?_
              rintro _ after ⟨hFinds, rfl⟩
              refine ⟨hFinds, _, rfl, denotes_element ?_⟩
              intro picture hKnows
              change (picture.scalar other).map (bases cell.name + ·) = _
              rw [← hValue picture hKnows]
              rfl
          | cell place =>
              refine (resolveDynamic_ensures hSound hBases hDeclared hPlaced).mono ?_
              rintro _ after ⟨hFinds, rfl⟩
              have hScalar : ∀ picture : Picture, Context.Knows _ picture.scalar →
                  picture.scalar place.name = picture.scalar other := hValue
              refine ⟨hFinds, _, rfl, ?_, ?_, rfl, fun _ hScalar => by contradiction⟩
              · intro picture hKnows
                change (picture.scalar place.name).bind _ =
                  ((picture.scalar other).map (bases cell.name + ·)).bind picture.cell
                rw [hScalar picture hKnows, Option.bind_map]
                rfl
              · intro picture hKnows value
                change (picture.scalar place.name).map _ =
                  ((picture.scalar other).map (bases cell.name + ·)).map _
                rw [hScalar picture hKnows, Option.map_map]
                rfl

/-! ### References -/

theorem resolveSource_ensures (hSound : context.Sound) {bases : Bases}
    (hBases : context.setting.HasBases bases) (cell : Reference) :
    Ensures (Generating.resolveSource cell) context fun operand after =>
      Finds context after operand ∧ ∀ picture, context.Knows picture.scalar →
        operand.value? picture = cell.value? bases picture.valuation := by
  refine .bind (declared_ensures cell.span.first cell.name) ?_
  rintro entry _ ⟨rfl, hEntry⟩
  have hDeclared := declared_of_lookup? hEntry
  cases hBinding : entry.binding with
  | value handle =>
      by_cases hElement : cell.isElement = true
      · simp only [if_pos hElement]
        exact .bind (.refuse _ _) fun _ _ hFalse => hFalse
      · simp only [if_neg hElement]
        refine .bind (viewScalar_ensures hSound _ hEntry hBinding) ?_
        rintro view _ ⟨rfl, hPlaced, hValue⟩
        refine .pure ⟨⟨.refl hSound, rfl, hPlaced⟩, ?_⟩
        intro picture hKnows
        have hPlain : cell.index = none := by
          cases hIndex : cell.index with
          | none => rfl
          | some index => simp [Reference.isElement, hIndex] at hElement
        rw [hValue picture hKnows, Reference.value?, hPlain]
        rfl
  | array ref =>
      rw [hBinding] at hDeclared
      refine (resolveArray_ensures hSound hBases hDeclared).mono ?_
      rintro operand after ⟨hFinds, index, hIndex, hDenotes⟩
      refine ⟨hFinds, ?_⟩
      intro picture hKnows
      rw [hDenotes.read picture hKnows, Reference.value?, hIndex]
      rfl
  | nothing => exact .refuse _ _

theorem resolve_ensures (hSound : context.Sound) {bases : Bases}
    (hBases : context.setting.HasBases bases) (atom : Atom) :
    Ensures (Generating.resolve atom) context fun operand after =>
      Finds context after operand ∧ ∀ picture, context.Knows picture.scalar →
        operand.value? picture = atom.value? bases picture.valuation := by
  cases atom with
  | number span value => exact .pure ⟨⟨.refl hSound, rfl, trivial⟩, fun _ _ => rfl⟩
  | reference cell => exact resolveSource_ensures hSound hBases cell

inductive Targets (context : Context) (bases : Bases) (cell : Reference) : Operand → Prop
  | scalar {kind : SymbolKind} {place : ScalarCell} (hPlain : cell.index = none)
      (hName : place.name = cell.name)
      (hDeclared : context.setting.declared cell.name = some (kind, .value place.handle))
      (hKind : kind ≠ .iterator) : Targets context bases cell (.scalar place)
  | element {index : Index} {operand : Operand} (hIndex : cell.index = some index)
      (hDenotes : context.Denotes bases cell.name index operand) :
      Targets context bases cell operand

theorem resolveTarget_ensures (hSound : context.Sound) {bases : Bases}
    (hBases : context.setting.HasBases bases) (cell : Reference) :
    Ensures (Generating.resolveTarget cell) context fun operand after =>
      Finds context after operand ∧ context.Targets bases cell operand := by
  refine .bind (declared_ensures cell.span.first cell.name) ?_
  rintro entry _ ⟨rfl, hEntry⟩
  have hDeclared := declared_of_lookup? hEntry
  cases hBinding : entry.binding with
  | value handle =>
      rw [hBinding] at hDeclared
      by_cases hElement : cell.isElement = true
      · simp only [if_pos hElement]
        exact .bind (.refuse _ _) fun _ _ hFalse => hFalse
      · simp only [if_neg hElement]
        by_cases hKind : entry.kind = .iterator
        · simp only [if_pos hKind]
          exact .bind (.refuse _ _) fun _ _ hFalse => hFalse
        · simp only [if_neg hKind]
          refine .bind (scalarCell_ensures hSound _ hDeclared) ?_
          rintro place _ ⟨rfl, hName, rfl, hPlaced⟩
          refine .pure ⟨⟨.refl hSound, rfl, hPlaced⟩, .scalar ?_ hName hDeclared hKind⟩
          cases hIndex : cell.index with
          | none => rfl
          | some index => simp [Reference.isElement, hIndex] at hElement
  | array ref =>
      rw [hBinding] at hDeclared
      refine (resolveArray_ensures hSound hBases hDeclared).mono ?_
      rintro operand after ⟨hFinds, index, hIndex, hDenotes⟩
      exact ⟨hFinds, .element hIndex hDenotes⟩
  | nothing => exact .refuse _ _

end Context

end RegisterCompiler
