/-
What commands gain.

A reference to an element of an array gains the element where the generator knows its offset:
where the index is a number, or a scalar whose value is propagated.  A program gains the
elements of all references that are looked up while its commands are compiled, at every depth,
and no others.
-/

import RegisterCompiler.Proofs.Generator.Refusals
import RegisterCompiler.Proofs.Generator.Thrift

set_option autoImplicit false

namespace RegisterCompiler

open Context (Books Resolving)

/-- The offset of the element a reference denotes, where the generator knows it. -/
def Reference.offset? (cell : Reference) (context : Context) : Option Nat :=
  match cell.index with
  | none => none
  | some (.number _ offset) => some offset
  | some (.name span name) =>
      match ((Generating.viewIndex span.first name).run.run context).1 with
      | .ok (.known offset) => some offset
      | _ => none

def Context.elements (context : Context) (references : List Reference) : Set (ArrayRef × Int) :=
  { place | ∃ cell ∈ references, ∃ kind offset,
      context.setting.declared cell.name = some (kind, .array place.1) ∧
        cell.offset? context = some offset ∧ place.2 = (offset : Int) }

def Operand.Housed (operand : Operand) (context : Context) : Prop :=
  ∀ cell, operand = .scalar cell → context.store.arena.Housed cell.handle

namespace Context

variable {context after : Context}

private theorem elements_append (context : Context) (first second : List Reference) :
    context.elements (first ++ second) = context.elements first ∪ context.elements second := by
  ext place
  constructor
  · rintro ⟨cell, hCell, hFound⟩
    cases List.mem_append.mp hCell with
    | inl hFirst => exact .inl ⟨cell, hFirst, hFound⟩
    | inr hSecond => exact .inr ⟨cell, hSecond, hFound⟩
  · rintro (⟨cell, hCell, hFound⟩ | ⟨cell, hCell, hFound⟩)
    · exact ⟨cell, List.mem_append_left second hCell, hFound⟩
    · exact ⟨cell, List.mem_append_right first hCell, hFound⟩

@[simp]
theorem elements_nil (context : Context) : context.elements [] = ∅ := by
  ext place
  constructor
  · rintro ⟨cell, hCell, -⟩
    cases hCell
  · exact fun hNone => hNone.elim

private theorem elements_eq_empty {cell : Reference} {kind : SymbolKind} {handle : Handle}
    (hDeclared : context.setting.declared cell.name = some (kind, .value handle)) :
    context.elements [cell] = ∅ := by
  ext place
  constructor
  · rintro ⟨found, hFound, other, offset, hArray, -⟩
    rw [List.mem_singleton.mp hFound, hDeclared] at hArray
    cases hArray
  · exact fun hNone => hNone.elim

private theorem mem_elements_iff {cell : Reference} {kind : SymbolKind} {ref : ArrayRef}
    (hDeclared : context.setting.declared cell.name = some (kind, .array ref))
    {place : ArrayRef × Int} :
    place ∈ context.elements [cell] ↔
      place.1 = ref ∧ ∃ offset, cell.offset? context = some offset ∧ place.2 = (offset : Int) := by
  constructor
  · rintro ⟨found, hFound, other, offset, hArray, hOffset⟩
    rw [List.mem_singleton.mp hFound] at hArray hOffset
    rw [hDeclared] at hArray
    cases hArray
    exact ⟨rfl, offset, hOffset⟩
  · rintro ⟨hRef, offset, hOffset⟩
    exact ⟨cell, List.mem_singleton.mpr rfl, kind, offset, hRef ▸ hDeclared, hOffset⟩

end Context

namespace Generating

variable {context after : Context}

/-! ### Looking names up -/

theorem of_declared {position : Source.Position} {name : String} {entry : SymbolEntry}
    (hRun : (declared position name).run.run context = (.ok entry, after)) :
    context.store.symbols.lookup? name = some entry ∧ after = context := by
  have hRun := of_get_bind hRun
  cases hEntry : context.store.symbols.lookup? name with
  | none => rw [hEntry] at hRun; cases hRun
  | some found => rw [hEntry] at hRun; cases hRun; exact ⟨rfl, rfl⟩

private theorem of_scalarCell {position : Source.Position} {name : String} {handle : Handle}
    {cell : ScalarCell}
    (hRun : (scalarCell position name handle).run.run context = (.ok cell, after)) :
    after = context ∧ cell.handle = handle ∧ context.store.arena.Housed handle := by
  obtain ⟨value, middle, hValue, hRest⟩ := exists_of_run_bind hRun
  obtain ⟨hLive, rfl⟩ := of_value hValue
  cases hChunk : value.chunk with
  | none => rw [hChunk] at hRest; cases hRest
  | some address =>
      rw [hChunk] at hRest
      cases hRest
      exact ⟨rfl, rfl, Arena.housed_of_get? hLive (Option.isSome_of_eq_some hChunk)⟩

private theorem of_known? {entry : SymbolEntry} {handle : Handle} {known : Option Nat}
    (hRun : (known? entry handle).run.run context = (.ok known, after)) : after = context := by
  have hRun := of_get_bind hRun
  split at hRun
  · split at hRun
    · cases hRun; rfl
    · split at hRun
      · cases hRun; rfl
      · cases hRun; rfl
  · cases hRun; rfl

private theorem of_viewScalar {position : Source.Position} {entry : SymbolEntry} {handle : Handle}
    {view : ScalarView}
    (hRun : (viewScalar position entry handle).run.run context = (.ok view, after)) :
    after = context ∧ view.operand.Housed context := by
  obtain ⟨known, middle, hKnown, hRest⟩ := exists_of_run_bind hRun
  obtain rfl := of_known? hKnown
  cases known with
  | some number =>
      cases hRest
      exact ⟨rfl, nofun⟩
  | none =>
      obtain ⟨cell, found, hCell, hPure⟩ := exists_of_run_bind hRest
      cases hPure
      obtain ⟨rfl, hHandle, hHoused⟩ := of_scalarCell hCell
      refine ⟨rfl, ?_⟩
      intro other hOther
      cases hOther
      rw [hHandle]
      exact hHoused

private theorem of_viewIndex {position : Source.Position} {name : String} {view : ScalarView}
    (hRun : (viewIndex position name).run.run context = (.ok view, after)) : after = context := by
  obtain ⟨entry, middle, hEntry, hRest⟩ := exists_of_run_bind hRun
  obtain ⟨-, rfl⟩ := of_declared hEntry
  cases hBinding : entry.binding with
  | value handle =>
      rw [hBinding] at hRest
      exact (of_viewScalar hRest).1
  | array ref => rw [hBinding] at hRest; cases hRest
  | nothing => rw [hBinding] at hRest; cases hRest

/-! ### References -/

theorem resolveElement_books {position : Source.Position} {ref : ArrayRef} {offset : Nat}
    {operand : Operand} (hBalanced : context.Balanced)
    (hRun : (resolveElement position ref offset).run.run context = (.ok operand, after)) :
    Books {(ref, (offset : Int))} context after ∧ operand.Housed after := by
  have hRun := of_get_bind hRun
  simp only at hRun
  split at hRun
  · obtain ⟨handle, middle, hElement, hPure⟩ := exists_of_run_bind hRun
    cases hPure
    obtain ⟨hGives, hAfter⟩ := of_onStore hElement
    refine ⟨?_, nofun⟩
    rw [hAfter]
    exact .element hBalanced hGives
  · cases hRun

private theorem resolveDynamic_books {ref : ArrayRef} {index : ScalarCell} {operand : Operand}
    (hBalanced : context.Balanced)
    (hRun : (resolveDynamic ref index).run.run context = (.ok operand, after)) :
    Books ∅ context after ∧ operand.Housed after := by
  obtain ⟨handle, middle, hElement, hRun⟩ := exists_of_run_bind hRun
  obtain ⟨_, noted, hNote, hRun⟩ := exists_of_run_bind hRun
  cases hNote
  cases of_get_bind hRun
  obtain ⟨hGives, hMiddle⟩ := of_onStore hElement
  refine ⟨?_, nofun⟩
  rw [hMiddle]
  exact .dynamicElement hBalanced hGives

private theorem resolveArray_books {cell : Reference} {kind : SymbolKind} {ref : ArrayRef}
    {operand : Operand} (hBalanced : context.Balanced)
    (hDeclared : context.setting.declared cell.name = some (kind, .array ref))
    (hRun : (resolveArray cell ref).run.run context = (.ok operand, after)) :
    Books (context.elements [cell]) context after ∧ operand.Housed after := by
  have hGain : ∀ offset, cell.offset? context = some offset →
      {(ref, (offset : Int))} = context.elements [cell] := by
    intro offset hOffset
    ext place
    rw [Context.mem_elements_iff hDeclared, hOffset]
    constructor
    · rintro rfl
      exact ⟨rfl, offset, rfl, rfl⟩
    · rintro ⟨hRef, other, hSame, hOther⟩
      cases hSame
      exact Prod.ext hRef hOther
  unfold resolveArray at hRun
  cases hIndex : cell.index with
  | none => rw [hIndex] at hRun; cases hRun
  | some index =>
      rw [hIndex] at hRun
      cases index with
      | number span offset =>
          have hOffset : cell.offset? context = some offset := by
            simp only [Reference.offset?, hIndex]
          obtain ⟨hBooks, hHoused⟩ := resolveElement_books hBalanced hRun
          exact ⟨hBooks.congr (hGain offset hOffset), hHoused⟩
      | name span name =>
          obtain ⟨view, middle, hView, hRest⟩ := exists_of_run_bind hRun
          obtain rfl := of_viewIndex hView
          cases view with
          | known offset =>
              have hOffset : cell.offset? middle = some offset := by
                simp only [Reference.offset?, hIndex, hView]
              obtain ⟨hBooks, hHoused⟩ := resolveElement_books hBalanced hRest
              exact ⟨hBooks.congr (hGain offset hOffset), hHoused⟩
          | cell place =>
              obtain ⟨hBooks, hHoused⟩ := resolveDynamic_books hBalanced hRest
              refine ⟨hBooks.congr ?_, hHoused⟩
              ext found
              rw [Context.mem_elements_iff hDeclared]
              simp [Reference.offset?, hIndex, hView]

private theorem resolveSource_books {cell : Reference} {operand : Operand}
    (hBalanced : context.Balanced)
    (hRun : (resolveSource cell).run.run context = (.ok operand, after)) :
    Books (context.elements [cell]) context after ∧ operand.Housed after := by
  obtain ⟨entry, middle, hEntry, hRest⟩ := exists_of_run_bind hRun
  obtain ⟨hLookup, rfl⟩ := of_declared hEntry
  have hDeclared := Context.declared_of_lookup? hLookup
  cases hBinding : entry.binding with
  | array ref =>
      rw [hBinding] at hRest hDeclared
      exact resolveArray_books hBalanced hDeclared hRest
  | nothing => rw [hBinding] at hRest; cases hRest
  | value handle =>
      rw [hBinding] at hRest hDeclared
      simp only at hRest
      split at hRest
      · cases hRest
      · obtain ⟨view, found, hView, hPure⟩ := exists_of_run_bind hRest
        cases hPure
        obtain ⟨rfl, hHoused⟩ := of_viewScalar hView
        rw [Context.elements_eq_empty hDeclared]
        exact ⟨.still hBalanced rfl rfl, hHoused⟩

theorem resolveTarget_books {cell : Reference} {operand : Operand} (hBalanced : context.Balanced)
    (hRun : (resolveTarget cell).run.run context = (.ok operand, after)) :
    Books (context.elements [cell]) context after ∧ operand.Housed after := by
  obtain ⟨entry, middle, hEntry, hRest⟩ := exists_of_run_bind hRun
  obtain ⟨hLookup, rfl⟩ := of_declared hEntry
  have hDeclared := Context.declared_of_lookup? hLookup
  cases hBinding : entry.binding with
  | array ref =>
      rw [hBinding] at hRest hDeclared
      exact resolveArray_books hBalanced hDeclared hRest
  | nothing => rw [hBinding] at hRest; cases hRest
  | value handle =>
      rw [hBinding] at hRest hDeclared
      simp only at hRest
      split at hRest
      · cases hRest
      split at hRest
      · cases hRest
      · obtain ⟨place, found, hPlace, hPure⟩ := exists_of_run_bind hRest
        cases hPure
        obtain ⟨rfl, hHandle, hHoused⟩ := of_scalarCell hPlace
        rw [Context.elements_eq_empty hDeclared]
        refine ⟨.still hBalanced rfl rfl, ?_⟩
        intro other hOther
        cases hOther
        rw [hHandle]
        exact hHoused

end Generating

/-! ### One reference after the other -/

namespace Reference

variable {start context : Context}

private theorem offset?_name {cell : Reference} {span : Source.Span} {name : String}
    (hIndex : cell.index = some (.name span name)) (hSound : context.Sound) :
    cell.offset? context = context.knows? name := by
  simp only [offset?, hIndex]
  cases hDeclared : context.setting.declared name with
  | none =>
      have hRun : ((Generating.viewIndex span.first name).run.run context).1 =
          .error (.misuse ⟨span.first, .undeclared name⟩) := by
        rw [Generating.viewIndex, ExceptT.run_bind, StateT.run_bind,
          Generating.declared_refuses span.first hDeclared]
        rfl
      rw [hRun]
      simp [Context.knows?, hDeclared]
  | some found =>
      obtain ⟨kind, binding⟩ := found
      obtain ⟨entry, hEntry, -, hBinding⟩ := Context.exists_lookup?_of_declared hDeclared
      cases binding with
      | value handle =>
          obtain ⟨cell, hRun⟩ := Context.viewIndex_run hSound span.first hDeclared
          rw [hRun]
          cases context.knows? name with
          | none => rfl
          | some number => rfl
      | array ref =>
          rw [Generating.viewIndex, Generating.run_bind_of_run
            (Context.declared_run span.first hEntry), hBinding]
          simp only [Context.knows?, hDeclared, ite_self]
          rfl
      | nothing =>
          rw [Generating.viewIndex, Generating.run_bind_of_run
            (Context.declared_run span.first hEntry), hBinding]
          simp only [Context.knows?, hDeclared, ite_self]
          rfl

private theorem offset?_congr (cell : Reference) (hStart : start.Sound) (hSound : context.Sound)
    (hSetting : context.setting = start.setting) (hOptions : context.options = start.options)
    (hDepth : context.depth = start.depth) : cell.offset? context = cell.offset? start := by
  cases hIndex : cell.index with
  | none => simp only [offset?, hIndex]
  | some index =>
      cases index with
      | number span offset => simp only [offset?, hIndex]
      | name span name =>
          rw [offset?_name hIndex hSound, offset?_name hIndex hStart]
          exact Context.knows?_congr hSetting hOptions hDepth name

end Reference

namespace Context

private theorem elements_congr {start context : Context} (hStart : start.Sound)
    (hSound : context.Sound) (hSetting : context.setting = start.setting)
    (hOptions : context.options = start.options) (hDepth : context.depth = start.depth)
    (references : List Reference) :
    context.elements references = start.elements references := by
  unfold elements
  simp only [hSetting, Reference.offset?_congr _ hStart hSound hSetting hOptions hDepth]

private theorem Works.elements {start context : Context} (hWorks : Works start context)
    (hStart : start.Sound) (references : List Reference) :
    context.elements references = start.elements references :=
  elements_congr hStart hWorks.sound hWorks.setting hWorks.quiet.options hWorks.quiet.depth references

end Context

namespace Generating

variable {context after : Context} {bases : Bases}

theorem resolve_books {atom : Atom} {operand : Operand} (hBalanced : context.Balanced)
    (hRun : (resolve atom).run.run context = (.ok operand, after)) :
    Books (context.elements atom.references) context after ∧ operand.Housed after := by
  cases atom with
  | number span value =>
      cases hRun
      rw [Atom.references, Context.elements_nil]
      exact ⟨.still hBalanced rfl rfl, nofun⟩
  | reference cell => exact resolveSource_books hBalanced hRun

/-- Two operands are found one after the other. -/
theorem resolveBoth_books {α : Type} (hSound : context.Sound)
    (hBases : context.setting.HasBases bases) (hBalanced : context.Balanced) {left right : Atom}
    {next : Operand → Operand → Generating α} {result : α}
    (hRun : (do
      let first ← resolve left
      let second ← resolve right
      next first second).run.run context = (.ok result, after))
    (hNext : ∀ first second found, found.Balanced →
      (next first second).run.run found = (.ok result, after) → Books ∅ found after) :
    Books (context.elements (left.references ++ right.references)) context after := by
  obtain ⟨first, middle, hFirst, hRun⟩ := exists_of_run_bind hRun
  obtain ⟨second, found, hSecond, hRun⟩ := exists_of_run_bind hRun
  have hWorks := ((Context.resolve_ensures hSound hBases left).of_run hFirst).1.toWorks
  obtain ⟨hMiddle, -⟩ := resolve_books hBalanced hFirst
  obtain ⟨hFound, -⟩ := resolve_books hMiddle.balanced hSecond
  rw [hWorks.elements hSound] at hFound
  have hAfter := hNext first second found hFound.balanced hRun
  rw [Context.elements_append]
  exact ((hMiddle.trans hFound).trans hAfter).congr (Set.union_empty _)

/-! ### Commands without commands inside -/

theorem bind_books {register : Int} {handle : Handle} (hBalanced : context.Balanced)
    (hHoused : context.store.arena.Housed handle)
    (hRun : (onStore (StoreAction.bind register handle)).run.run context = (.ok (), after)) :
    Books ∅ context after := by
  obtain ⟨hGives, hAfter⟩ := of_onStore hRun
  rw [hAfter]
  exact .onStore hBalanced (StoreAction.bind_keeps hBalanced.wellFormed hHoused hGives)

private theorem readOperand_books {operand : Operand} {register : Int}
    (hBalanced : context.Balanced) (hHoused : operand.Housed context)
    (hRun : (readOperand operand).run.run context = (.ok register, after)) :
    Books ∅ context after := by
  cases operand with
  | constant value => exact @Thrifty.books _ (take (.constant value)) _ _ _ _ hRun hBalanced
  | element address => exact @Thrifty.books _ (take (.element address)) _ _ _ _ hRun hBalanced
  | dynamic base index => exact @Thrifty.books _ (take (.dynamic base index)) _ _ _ _ hRun hBalanced
  | scalar cell =>
      obtain ⟨value, middle, hValue, hRest⟩ := exists_of_run_bind hRun
      obtain ⟨hLive, rfl⟩ := of_value hValue
      cases hRegister : value.register with
      | some found =>
          rw [hRegister] at hRest
          exact Thrifty.books _ _ _ hRest hBalanced
      | none =>
          rw [hRegister] at hRest
          obtain ⟨found, loaded, hLoad, hRun⟩ := exists_of_run_bind hRest
          have hLoaded := Thrifty.books _ _ _ hLoad hBalanced
          have hBound : Books ∅ loaded after := by
            apply books_of_first hRun
            intro _ bound hBind
            exact bind_books hLoaded.balanced (hLoaded.housed _ (hHoused cell rfl)) hBind
          exact (hLoaded.trans hBound).congr (Set.union_empty ∅)

private theorem storeOperand_books {operand : Operand} {register : Int}
    (hBalanced : context.Balanced) (hHoused : operand.Housed context)
    (hRun : (storeOperand operand register).run.run context = (.ok (), after)) :
    Books ∅ context after := by
  cases operand with
  | constant value => cases hRun; exact .still hBalanced rfl rfl
  | element address =>
      have hThrifty : Thrifty (storeOperand (.element address) register) := by
        unfold storeOperand
        infer_instance
      exact hThrifty.books _ _ _ hRun hBalanced
  | dynamic base index =>
      have hThrifty : Thrifty (storeOperand (.dynamic base index) register) := by
        unfold storeOperand
        infer_instance
      exact hThrifty.books _ _ _ hRun hBalanced
  | scalar cell =>
      have hCached : ∀ freed : Context, Books ∅ context freed →
          (do
            onStore (StoreAction.bind register cell.handle)
            onStore (StoreAction.setFresh cell.name false)).run.run freed = (.ok (), after) →
          Books ∅ context after := by
        intro freed hFreed hRun
        have hBound : Books ∅ freed after := by
          apply books_of_first hRun
          intro _ bound hBind
          exact bind_books hFreed.balanced (hFreed.housed _ (hHoused cell rfl)) hBind
        exact (hFreed.trans hBound).congr (Set.union_empty ∅)
      obtain ⟨value, middle, hValue, hRest⟩ := exists_of_run_bind hRun
      obtain ⟨hLive, rfl⟩ := of_value hValue
      have hStill : Books ∅ middle middle := .still hBalanced rfl rfl
      cases hRegister : value.register with
      | none =>
          rw [hRegister] at hRest
          exact hCached middle hStill hRest
      | some previous =>
          simp only [hRegister] at hRest
          split at hRest
          · obtain ⟨_, freed, hFree, hRest⟩ := exists_of_run_bind hRest
            exact hCached freed (Thrifty.books _ _ _ hFree hBalanced) hRest
          · exact hCached middle hStill hRest

private theorem resolveExpression_books (hSound : context.Sound)
    (hBases : context.setting.HasBases bases) (hBalanced : context.Balanced)
    {expression : Expression} {calculation : Calculation}
    (hRun : (resolveExpression expression).run.run context = (.ok calculation, after)) :
    Books (context.elements expression.references) context after := by
  cases expression with
  | atom span value =>
      apply books_of_first hRun
      exact fun operand middle hResolve => (resolve_books hBalanced hResolve).1
  | operation span left operator right =>
      apply resolveBoth_books hSound hBases hBalanced hRun
      exact fun _ _ found hFound hPure => Thrifty.books found _ after hPure hFound

private theorem assign_books (hSound : context.Sound) (hBases : context.setting.HasBases bases)
    (hBalanced : context.Balanced) {target : Reference} {value : Expression}
    (hRun : (assign target value).run.run context = (.ok (), after)) :
    Books (context.elements (target :: value.references)) context after := by
  obtain ⟨destination, found, hTarget, hRun⟩ := exists_of_run_bind hRun
  obtain ⟨calculation, resolved, hResolve, hRun⟩ := exists_of_run_bind hRun
  obtain ⟨register, calculated, hCalculate, hRun⟩ := exists_of_run_bind hRun
  obtain ⟨hFound, hHoused⟩ := resolveTarget_books hBalanced hTarget
  have hWorks := ((Context.resolveTarget_ensures hSound hBases target).of_run hTarget).1.toWorks
  have hFoundBases : found.setting.HasBases bases := by
    rw [hWorks.setting]
    exact hBases
  have hResolved := resolveExpression_books hWorks.sound hFoundBases hFound.balanced hResolve
  rw [hWorks.elements hSound] at hResolved
  have hCalculated := Thrifty.books _ _ _ hCalculate hResolved.balanced
  have hStored : Books ∅ calculated after := by
    apply books_of_first hRun
    intro _ stored hStore
    apply storeOperand_books hCalculated.balanced _ hStore
    intro cell hCell
    exact hCalculated.housed _ (hResolved.housed _ (hHoused cell hCell))
  have hGain : context.elements (target :: value.references) =
      context.elements [target] ∪ context.elements value.references :=
    context.elements_append [target] value.references
  rw [hGain]
  apply ((hFound.trans hResolved).trans (hCalculated.trans hStored)).congr
  rw [Set.union_empty, Set.union_empty]

private theorem readInput_books (hBalanced : context.Balanced) {target : Reference}
    (hRun : (readInput target).run.run context = (.ok (), after)) :
    Books (context.elements [target]) context after := by
  obtain ⟨destination, found, hTarget, hRun⟩ := exists_of_run_bind hRun
  obtain ⟨hFound, hHoused⟩ := resolveTarget_books hBalanced hTarget
  have hRead : Books ∅ found after := by
    apply books_of_rest hFound.balanced hRun
    intro register acquired hAcquire hAcquired hRun
    have hHeld := (Thrifty.books _ _ _ hAcquire hFound.balanced).housed
    apply books_of_rest hAcquired hRun
    intro _ emitted hEmit hEmitted hRun
    have hKept := (Thrifty.books _ _ _ hEmit hAcquired).housed
    apply books_of_first hRun
    intro _ stored hStore
    apply storeOperand_books hEmitted _ hStore
    exact fun cell hCell => hKept _ (hHeld _ (hHoused cell hCell))
  exact (hFound.trans hRead).congr (Set.union_empty _)

private theorem writeOutput_books (hBalanced : context.Balanced) {value : Atom}
    (hRun : (writeOutput value).run.run context = (.ok (), after)) :
    Books (context.elements value.references) context after := by
  obtain ⟨operand, found, hResolve, hRun⟩ := exists_of_run_bind hRun
  obtain ⟨hFound, hHoused⟩ := resolve_books hBalanced hResolve
  have hRead : Books ∅ found after := by
    apply books_of_first hRun
    exact fun register read hRead => readOperand_books hFound.balanced hHoused hRead
  exact (hFound.trans hRead).congr (Set.union_empty _)

/-! ### Constructs -/

theorem testCondition_books (hSound : context.Sound) (hBases : context.setting.HasBases bases)
    (hBalanced : context.Balanced) {condition : Condition}
    (hRun : (testCondition condition).run.run context = (.ok (), after)) :
    Books (context.elements (condition.left.references ++ condition.right.references)) context
      after := by
  apply resolveBoth_books hSound hBases hBalanced hRun
  intro first second found hFound hRun
  split at hRun
  · exact Thrifty.books _ _ _ hRun hFound
  · exact Thrifty.books _ _ _ hRun hFound

/-- The variable of a loop takes a cell at once. -/
theorem placeIterator_books (hBalanced : context.Balanced) {scalar : PlainVariable}
    {handle : Handle} {created : Context} {address : Address}
    (hCreate : (onStore (StoreAction.create (.plain scalar))).run.run context = (.ok handle, created))
    (hPlace : (placeIterator handle).run.run created = (.ok address, after)) :
    Books ∅ context after := by
  obtain ⟨hGives, hCreated⟩ := of_onStore hCreate
  obtain ⟨hCreates, hArrays⟩ := StoreAction.create_creates hBalanced.wellFormed hGives
  have hSpawns := Store.Spawns.cons hCreates hArrays (.nil hCreates.wellFormed)
  have hTake := of_tryCatch (fun fault => .right fun _ => .throw fault) hPlace
  obtain ⟨hAllocate, hAfter⟩ := of_onStore hTake
  apply books_of_houses hBalanced hSpawns
  · exact StoreAction.allocate_houses hSpawns.wellFormed hAllocate
  · rw [hAfter, hCreated]

theorem openLoop_books (hSound : context.Sound) (hBases : context.setting.HasBases bases)
    (hBalanced : context.Balanced) {position : Source.Position} {iterator : String}
    {first last : Atom} {direction : Direction} {cells : LoopCells}
    (hRun : (openLoop position iterator first last direction).run.run context =
      (.ok cells, after)) :
    Books (context.elements (first.references ++ last.references)) context after := by
  have hRun := of_get_bind hRun
  simp only at hRun
  split at hRun
  · cases hRun
  apply resolveBoth_books hSound hBases hBalanced hRun
  intro start stop found hFound hRun
  apply books_of_rest hFound hRun
  intro rounds counted _ hCounted hRun
  apply books_of_rest hCounted hRun
  intro counter taken _ hTaken hRun
  apply books_of_rest hTaken hRun
  intro _ stored _ hStored hRun
  obtain ⟨handle, created, hCreate, hRun⟩ := exists_of_run_bind hRun
  obtain ⟨address, placed, hPlace, hRun⟩ := exists_of_run_bind hRun
  have hPlaced := placeIterator_books hStored hCreate hPlace
  have hNote : Thrifty
      (modify fun context => { context with loops := context.loops + 1 } : Generating Unit) :=
    .modify (fun _ => rfl) fun _ => rfl
  exact (hPlaced.trans (Thrifty.books _ _ _ hRun hPlaced.balanced)).congr (Set.union_empty ∅)

end Generating

/-! ### Commands -/

/-- The context in which the references of a command are looked up.  The condition of a WHILE
loop is looked up inside the loop. -/
def Command.site (command : Command) (start : Context) : Context :=
  match command with
  | .whileLoop _ _ _ => start.atDepth (start.depth + 1)
  | _ => start

namespace Generating

/-- The elements that the references of some commands denote where they are looked up, at every
depth. -/
def Gained (commands : List Command) (context : Context) : Set (ArrayRef × Int) :=
  { place | ∃ names command start, Visits commands context names command start ∧
      place ∈ (command.site start).elements command.references }

variable {context after : Context} {bases : Bases}

private theorem gained_nil (context : Context) : Gained [] context = ∅ := by
  ext place
  constructor
  · rintro ⟨names, command, start, hVisits, -⟩
    cases hVisits
  · exact fun hNone => hNone.elim

private theorem gained_cons {first : Command} {rest : List Command} {compiled settled : Context}
    (hCompile : (compileCommand first).run.run context = (.ok (), compiled))
    (hSettle : tidyUp.run.run compiled = (.ok (), settled)) :
    Gained (first :: rest) context = Gained [first] context ∪ Gained rest settled := by
  ext place
  constructor
  · rintro ⟨names, command, start, hVisits, hPlace⟩
    cases hVisits with
    | here => exact .inl ⟨[], first, context, .here, hPlace⟩
    | inside hBody hLead hInside =>
        exact .inl ⟨_, command, start, .inside hBody hLead hInside, hPlace⟩
    | later hCompileToo hSettleToo hRest =>
        rw [hCompile] at hCompileToo
        cases hCompileToo
        rw [hSettle] at hSettleToo
        cases hSettleToo
        exact .inr ⟨names, command, start, hRest, hPlace⟩
  · rintro (⟨names, command, start, hVisits, hPlace⟩ | ⟨names, command, start, hVisits, hPlace⟩)
    · cases hVisits with
      | here => exact ⟨[], first, context, .here, hPlace⟩
      | inside hBody hLead hInside =>
          exact ⟨_, command, start, .inside hBody hLead hInside, hPlace⟩
      | later _ _ hNone => cases hNone
    · exact ⟨names, command, start, .later hCompile hSettle hVisits, hPlace⟩

/-- A command gains what its own references denote and what the commands of its bodies gain. -/
theorem mem_gained_iff {command : Command} {place : ArrayRef × Int} :
    place ∈ Gained [command] context ↔
      place ∈ (command.site context).elements command.references ∨
        ∃ body ∈ command.bodies, ∃ note inside, body.lead.run.run context = (.ok note, inside) ∧
          place ∈ Gained body.commands inside := by
  constructor
  · rintro ⟨names, found, start, hVisits, hPlace⟩
    cases hVisits with
    | here => exact .inl hPlace
    | later _ _ hNone => cases hNone
    | inside hBody hLead hInside =>
        exact .inr ⟨_, hBody, _, _, hLead, _, found, start, hInside, hPlace⟩
  · rintro (hPlace | ⟨body, hBody, note, inside, hLead, names, found, start, hVisits, hPlace⟩)
    · exact ⟨[], command, context, .here, hPlace⟩
    · exact ⟨_, found, start, .inside hBody hLead hVisits, hPlace⟩

private theorem gained_eq_elements {command : Command} (hBodies : command.bodies = []) :
    Gained [command] context = (command.site context).elements command.references := by
  ext place
  rw [mem_gained_iff, hBodies]
  simp

private theorem gained_eq_union {command : Command} {body : Body}
    (hBodies : command.bodies = [body]) {note : body.Note} {inside : Context}
    (hLead : body.lead.run.run context = (.ok note, inside)) :
    Gained [command] context =
      (command.site context).elements command.references ∪ Gained body.commands inside := by
  ext place
  rw [mem_gained_iff, hBodies, Set.mem_union]
  apply or_congr_right
  constructor
  · rintro ⟨found, hFound, other, entered, hLeadToo, hPlace⟩
    cases List.mem_singleton.mp hFound
    rw [hLead] at hLeadToo
    cases hLeadToo
    exact hPlace
  · exact fun hPlace => ⟨body, List.mem_singleton.mpr rfl, note, inside, hLead, hPlace⟩

/-- A construct keeps the books when its opening code and its body do. -/
theorem construct_books {command : Command} {body : Body} (hPrepared : context.Prepared bases)
    (hBodies : command.bodies = [body]) (hTrail : ∀ note, Thrifty (body.trail note))
    (hRun : (compileCommand command).run.run context = (.ok (), after))
    (hLead : ∀ note inside, body.lead.run.run context = (.ok note, inside) →
      Books ((command.site context).elements command.references) context inside)
    (hCommands : ∀ inside bodied : Context, inside.Prepared bases → inside.Balanced →
      (compileCommands body.commands).run.run inside = (.ok (), bodied) →
      Books (Gained body.commands inside) inside bodied) :
    Books (Gained [command] context) context after := by
  have hBody : body ∈ command.bodies := by
    rw [hBodies]
    exact List.mem_singleton.mpr rfl
  obtain ⟨note, inside, bodied, hEnter, hInside, hLeave⟩ := exists_of_compileCommand hRun hBody
  have hEntered := hLead note inside hEnter
  have hEntrance := Context.entrance_of_lead hPrepared hBody hEnter
  have hBodied := hCommands inside bodied hEntrance.prepared hEntered.balanced hInside
  have hLeft := (hTrail note).books bodied () after hLeave hBodied.balanced
  rw [gained_eq_union hBodies hEnter]
  exact ((hEntered.trans hBodied).trans hLeft).congr (Set.union_empty _)

/-- The opening code of a WHILE loop looks the condition up inside the loop. -/
theorem while_books (hPrepared : context.Prepared bases) (hBalanced : context.Balanced)
    {condition : Condition} {line : Nat}
    (hRun : (do
      clearCache
      forgetPointer
      let start ← nextLine
      descend
      testCondition condition
      return start).run.run context = (.ok line, after)) :
    Books ((context.atDepth (context.depth + 1)).elements
      (condition.left.references ++ condition.right.references)) context after := by
  apply books_of_rest hBalanced hRun
  intro _ cleared hClear hCleared hRun
  have hTurns := ((Context.clearCache_ensures hPrepared.toSound).of_run hClear).1
  apply books_of_rest hCleared hRun
  intro _ _ hForget hForgotten hRun
  cases hForget
  apply books_of_rest hForgotten hRun
  intro start _ hLine _ hRun
  cases hLine
  apply books_of_rest hForgotten hRun
  intro _ _ hDescend hDescended hRun
  cases hDescend
  apply books_of_first hRun
  intro _ tested hTest
  let deeper : Context := { cleared with pointer := none, depth := cleared.depth + 1 }
  have hSetting : deeper.setting = context.setting := hTurns.setting
  have hSound : deeper.Sound :=
    ⟨hTurns.sound.store, hTurns.sound.size, hTurns.sound.dynamics, hTurns.sound.distinct,
      hTurns.sound.recorded⟩
  have hBases : deeper.setting.HasBases bases := by
    rw [hSetting]
    exact hPrepared.bases
  apply (testCondition_books hSound hBases hDescended hTest).congr
  have hDepth : deeper.depth = context.depth + 1 := congrArg (· + 1) hTurns.quiet.depth
  exact Context.elements_congr (hPrepared.toSound.atDepth (context.depth + 1)) hSound hSetting
    hTurns.quiet.options hDepth _

mutual

theorem compileCommand_books {command : Command} {context after : Context}
    (hPrepared : context.Prepared bases) (hBalanced : context.Balanced)
    (hRun : (compileCommand command).run.run context = (.ok (), after)) :
    Books (Gained [command] context) context after := by
  have hSound := hPrepared.toSound
  have hBases := hPrepared.bases
  cases command with
  | assign span target value =>
      rw [compileCommand] at hRun
      rw [gained_eq_elements rfl]
      exact assign_books hSound hBases hBalanced hRun
  | read span target =>
      rw [compileCommand] at hRun
      rw [gained_eq_elements rfl]
      exact readInput_books hBalanced hRun
  | write span value =>
      rw [compileCommand] at hRun
      rw [gained_eq_elements rfl]
      exact writeOutput_books hBalanced hRun
  | skip span =>
      rw [compileCommand] at hRun
      cases hRun
      rw [gained_eq_elements rfl, Command.references, Context.elements_nil]
      exact .still hBalanced rfl rfl
  | ifThen span condition body =>
      apply construct_books hPrepared rfl (fun _ => leaveBranch_holds.holds) hRun
      · intro _ inside hLead
        apply books_of_first hLead
        exact fun _ tested hTest => testCondition_books hSound hBases hBalanced hTest
      · exact fun inside bodied hInside => compileCommands_books hInside
  | ifElse span condition body orElse =>
      have hFirst : _ ∈ (Command.ifElse span condition body orElse).bodies := List.mem_cons_self
      have hSecond : _ ∈ (Command.ifElse span condition body orElse).bodies :=
        List.mem_cons_of_mem _ List.mem_cons_self
      obtain ⟨_, inside, bodied, hLead, hBody, hTrail⟩ := exists_of_compileCommand hRun hFirst
      obtain ⟨_, switched, hSwitch, hTrail⟩ := exists_of_run_bind hTrail
      obtain ⟨_, turned, hOrElse, hLeave⟩ := exists_of_run_bind hTrail
      have hEntrance := Context.entrance_of_lead hPrepared hFirst hLead
      have hTurn : (do
          testCondition condition
          descend
          compileCommands body
          switchBranch).run.run context = (.ok (), switched) := by
        obtain ⟨_, tested, hTest, hDescend⟩ := exists_of_run_bind hLead
        rw [run_bind_of_run hTest, run_bind_of_run hDescend, run_bind_of_run hBody]
        exact hSwitch
      have hTurned := Context.entrance_of_lead hPrepared hSecond hTurn
      have hTested : Books (context.elements (condition.left.references ++
          condition.right.references)) context inside := by
        apply books_of_first hLead
        exact fun _ tested hTest => testCondition_books hSound hBases hBalanced hTest
      have hBodied := compileCommands_books hEntrance.prepared hTested.balanced hBody
      have hSwitched := Thrifty.books _ _ _ hSwitch hBodied.balanced
      have hOther := compileCommands_books hTurned.prepared hSwitched.balanced hOrElse
      have hLeft := Thrifty.books _ _ _ hLeave hOther.balanced
      apply ((((hTested.trans hBodied).trans hSwitched).trans hOther).trans hLeft).congr
      rw [Set.union_empty, Set.union_empty]
      ext place
      rw [mem_gained_iff]
      constructor
      · rintro ((hHere | hInside) | hBehind)
        · exact .inl hHere
        · exact .inr ⟨_, hFirst, (), inside, hLead, hInside⟩
        · exact .inr ⟨_, hSecond, (), switched, hTurn, hBehind⟩
      · rintro (hHere | ⟨found, hFound, note, entered, hEnter, hPlace⟩)
        · exact .inl (.inl hHere)
        · cases List.mem_cons.mp hFound with
          | inl hSame =>
              cases hSame
              rw [hLead] at hEnter
              cases hEnter
              exact .inl (.inr hPlace)
          | inr hSame =>
              cases List.mem_singleton.mp hSame
              rw [hTurn] at hEnter
              cases hEnter
              exact .inr hPlace
  | whileLoop span condition body =>
      apply construct_books hPrepared rfl _ hRun
      · exact fun _ inside hLead => while_books hPrepared hBalanced hLead
      · exact fun inside bodied hInside => compileCommands_books hInside
      · infer_instance
  | forLoop span iterator first last direction body =>
      apply construct_books hPrepared rfl _ hRun
      · intro _ inside hLead
        apply books_of_first hLead
        exact fun cells opened hOpen => openLoop_books hSound hBases hBalanced hOpen
      · exact fun inside bodied hInside => compileCommands_books hInside
      · infer_instance

theorem compileCommands_books {commands : List Command} {context after : Context}
    (hPrepared : context.Prepared bases) (hBalanced : context.Balanced)
    (hRun : (compileCommands commands).run.run context = (.ok (), after)) :
    Books (Gained commands context) context after := by
  cases commands with
  | nil =>
      rw [compileCommands] at hRun
      cases hRun
      rw [gained_nil]
      exact .still hBalanced rfl rfl
  | cons command rest =>
      obtain ⟨compiled, settled, hCompile, hSettle, hRest⟩ := exists_of_compileCommands_cons hRun
      obtain ⟨hSettled, -⟩ := Context.settles_of_runs hPrepared hCompile hSettle
      have hCompiled := compileCommand_books hPrepared hBalanced hCompile
      have hTidied := Thrifty.books _ _ _ hSettle hCompiled.balanced
      have hAfter := compileCommands_books hSettled hTidied.balanced hRest
      rw [gained_cons hCompile hSettle]
      apply ((hCompiled.trans hTidied).trans hAfter).congr
      rw [Set.union_empty]

end

end Generating

end RegisterCompiler
