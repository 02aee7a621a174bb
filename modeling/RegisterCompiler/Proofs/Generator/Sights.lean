/-
What operands look like.

Before an operand is found, what is known about the scalars already says what it will look
like: a number, a scalar, or an element at a fixed address or at an index.  So the cells that a
command needs can be read off its text and off what is known.
-/

import RegisterCompiler.Proofs.Generator.Needs

set_option autoImplicit false

namespace RegisterCompiler

namespace Sight

def plain (knows : String → Option Nat) (name : String) : Sight :=
  ((knows name).map number).getD (scalar name)

def item (knows : String → Option Nat) (base : Nat) (name : String) : Sight :=
  ((knows name).map fun offset => element (base + offset)).getD (dynamic base name)

variable {knows : String → Option Nat} {name : String}

theorem plain_eq_number_iff {value : Nat} :
    plain knows name = .number value ↔ knows name = some value := by
  cases hKnows : knows name <;> simp [plain, hKnows]

private theorem plain_eq_scalar_iff {other : String} :
    plain knows name = .scalar other ↔ knows name = none ∧ other = name := by
  cases hKnows : knows name <;> simp [plain, hKnows, eq_comm]

end Sight

def Reference.sight (bases : Bases) (knows : String → Option Nat) (cell : Reference) : Sight :=
  match cell.index with
  | none => .plain knows cell.name
  | some (.number _ offset) => .element (bases cell.name + offset)
  | some (.name _ other) => .item knows (bases cell.name) other

def Atom.sight (bases : Bases) (knows : String → Option Nat) : Atom → Sight
  | .number _ value => .number value
  | .reference cell => cell.sight bases knows

namespace Context

open Source (Position)

variable {context after : Context} {bases : Bases}

private theorem viewScalar_sight (hSound : context.Sound) {position : Position} {name : String}
    {entry : SymbolEntry} {handle : Handle} {view : ScalarView}
    (hEntry : context.store.symbols.lookup? name = some entry)
    (hBinding : entry.binding = .value handle)
    (hRun : (Generating.viewScalar position entry handle).run.run context = (.ok view, after)) :
    after = context ∧ view.operand.sight = .plain context.knows? name := by
  have hDeclared := declared_of_lookup? hEntry
  rw [hBinding] at hDeclared
  have hName := (hSound.store.cells name entry.kind handle hDeclared).1
  rw [Generating.viewScalar, Generating.run_bind_of_run
    (known?_run entry hDeclared (Option.isSome_of_eq_some hName))] at hRun
  unfold Sight.plain
  cases hKnows : context.knows? name with
  | some number =>
      rw [hKnows] at hRun
      cases hRun
      exact ⟨rfl, rfl⟩
  | none =>
      rw [hKnows] at hRun
      obtain ⟨cell, middle, hCell, hRun⟩ := Generating.exists_of_run_bind hRun
      cases hRun
      rw [hSound.store.entryNames name entry hEntry] at hCell
      obtain ⟨rfl, hFound, -⟩ := (scalarCell_ensures hSound position hDeclared).of_run hCell
      exact ⟨rfl, congrArg Sight.scalar hFound⟩

private theorem viewIndex_sight (hSound : context.Sound) {position : Position} {name : String}
    {view : ScalarView}
    (hRun : (Generating.viewIndex position name).run.run context = (.ok view, after)) :
    after = context ∧ view.operand.sight = .plain context.knows? name := by
  obtain ⟨entry, middle, hDeclared, hView⟩ := Generating.exists_of_run_bind hRun
  obtain ⟨rfl, hEntry⟩ := (declared_ensures position name).of_run hDeclared
  cases hBinding : entry.binding with
  | value handle =>
      rw [hBinding] at hView
      exact viewScalar_sight hSound hEntry hBinding hView
  | array ref => rw [hBinding] at hView; cases hView
  | nothing => rw [hBinding] at hView; cases hView

private theorem resolveArray_sight (hSound : context.Sound)
    (hBases : context.setting.HasBases bases) {cell : Reference} {kind : SymbolKind}
    {ref : ArrayRef} {operand : Operand}
    (hDeclared : context.setting.declared cell.name = some (kind, .array ref))
    (hRun : (Generating.resolveArray cell ref).run.run context = (.ok operand, after)) :
    operand.sight = cell.sight bases context.knows? := by
  unfold Generating.resolveArray at hRun
  unfold Reference.sight
  cases hIndex : cell.index with
  | none => rw [hIndex] at hRun; cases hRun
  | some index =>
      rw [hIndex] at hRun
      cases index with
      | number span offset =>
          obtain ⟨-, rfl⟩ :=
            (resolveElement_ensures hSound hBases _ hDeclared offset).of_run hRun
          rfl
      | name span other =>
          obtain ⟨view, middle, hView, hFind⟩ := Generating.exists_of_run_bind hRun
          obtain ⟨-, hPlaced, -⟩ := (viewIndex_ensures hSound _ other).of_run hView
          obtain ⟨rfl, hSight⟩ := viewIndex_sight hSound hView
          change _ = Sight.item _ _ _
          unfold Sight.item
          cases view with
          | known offset =>
              obtain ⟨-, rfl⟩ :=
                (resolveElement_ensures hSound hBases _ hDeclared offset).of_run hFind
              rw [Sight.plain_eq_number_iff.mp hSight.symm]
              rfl
          | cell place =>
              obtain ⟨-, rfl⟩ :=
                (resolveDynamic_ensures hSound hBases hDeclared hPlaced).of_run hFind
              obtain ⟨hKnows, hName⟩ := Sight.plain_eq_scalar_iff.mp hSight.symm
              rw [hKnows]
              exact congrArg (Sight.dynamic _) hName

/-- An operand looks as what is known says. -/
theorem resolve_sight (hSound : context.Sound) (hBases : context.setting.HasBases bases)
    {atom : Atom} {operand : Operand}
    (hRun : (Generating.resolve atom).run.run context = (.ok operand, after)) :
    operand.sight = atom.sight bases context.knows? := by
  cases atom with
  | number span value =>
      cases hRun
      rfl
  | reference cell =>
      obtain ⟨entry, middle, hFound, hFind⟩ := Generating.exists_of_run_bind hRun
      obtain ⟨rfl, hEntry⟩ := (declared_ensures cell.span.first cell.name).of_run hFound
      have hDeclared := declared_of_lookup? hEntry
      cases hBinding : entry.binding with
      | value handle =>
          rw [hBinding] at hFind
          cases hIndex : cell.index with
          | none =>
              have hPlain : cell.isElement = false := Generating.index_eq_none_iff.mpr hIndex
              simp only [hPlain, Bool.false_eq_true, if_false] at hFind
              obtain ⟨view, _, hView, hPure⟩ := Generating.exists_of_run_bind hFind
              cases hPure
              rw [(viewScalar_sight hSound hEntry hBinding hView).2, Atom.sight, Reference.sight,
                hIndex]
          | some index =>
              have hElement : cell.isElement = true := by simp [Reference.isElement, hIndex]
              simp only [hElement, if_true] at hFind
              obtain ⟨_, _, hRefuse, -⟩ := Generating.exists_of_run_bind hFind
              cases hRefuse
      | array ref =>
          rw [hBinding] at hFind hDeclared
          exact resolveArray_sight hSound hBases hDeclared hFind
      | nothing => rw [hBinding] at hFind; cases hFind

theorem clear_of_placed (hSound : context.Sound) {left right : Operand}
    (hLeft : left.Placed context.setting) (hRight : right.Placed context.setting) :
    left.Clear right := by
  have hCells : ∀ {first second : ScalarCell}, first.Placed context.setting →
      second.Placed context.setting → (first.handle = second.handle ↔ first.name = second.name) ∧
        (first.address = second.address ↔ first.name = second.name) := by
    rintro first second ⟨_, address, hFirst, hAddress⟩ ⟨_, other, hSecond, hOther⟩
    obtain ⟨hDeclared, hChunk⟩ := Setting.cell?_eq_some_iff.mp hFirst
    obtain ⟨hOtherDeclared, hOtherChunk⟩ := Setting.cell?_eq_some_iff.mp hSecond
    have hName := (hSound.store.cells _ _ _ hDeclared).1
    have hOtherName := (hSound.store.cells _ _ _ hOtherDeclared).1
    have hNames : first.handle = second.handle → first.name = second.name := by
      intro hSame
      rw [hSame, hOtherName] at hName
      exact (Option.some.inj hName).symm
    have hBoth : first.name = second.name → first.handle = second.handle ∧ address = other := by
      intro hSame
      rw [hSame, hSecond, Option.some.injEq, Prod.mk.injEq, Prod.mk.injEq] at hFirst
      exact ⟨hFirst.2.1.symm, hFirst.2.2.symm⟩
    refine ⟨⟨hNames, fun hSame => (hBoth hSame).1⟩, ?_, ?_⟩
    · intro hSame
      apply hNames
      rw [← hAddress, ← hOther] at hSame
      have hOwner := (hSound.store.owners _ _).mpr hChunk
      rw [UInt64.toNat_inj.mp hSame, (hSound.store.owners _ _).mpr hOtherChunk] at hOwner
      exact (Option.some.inj hOwner).symm
    · intro hSame
      rw [← hAddress, ← hOther, (hBoth hSame).2]
  unfold Operand.Clear
  rw [Bool.eq_iff_iff, decide_eq_true_iff]
  cases left with
  | constant first => cases right <;> simp [Operand.same, Operand.sight]
  | scalar first =>
      cases right with
      | scalar second => simpa [Operand.same, Operand.sight] using (hCells hLeft hRight).2
      | _ => simp [Operand.same, Operand.sight]
  | element first => cases right <;> simp [Operand.same, Operand.sight]
  | dynamic base first =>
      cases right with
      | dynamic other second =>
          simp [Operand.same, Operand.sight, (hCells hLeft.2 hRight.2).1]
      | _ => simp [Operand.same, Operand.sight]

end Context

/-! ### Cells of commands -/

def Expression.cells (bases : Bases) (knows : String → Option Nat) : Expression → Nat
  | .atom _ _ => 0
  | .operation _ left operator right =>
      operator.cells (left.sight bases knows) (right.sight bases knows)

def Condition.cells (bases : Bases) (knows : String → Option Nat) (condition : Condition) : Nat :=
  condition.relation.cells (condition.left.sight bases knows) (condition.right.sight bases knows)

namespace Generating

variable {context : Context} {bases : Bases}

private theorem resolveBoth_costs {α : Type} (hSound : context.Sound)
    (hBases : context.setting.HasBases bases) (hBalanced : context.Balanced) (left right : Atom)
    {next : Operand → Operand → Generating α} {count : Nat}
    (hNext : ∀ first second middle, middle.Balanced → first.Clear second → second.Clear first →
      first.sight = left.sight bases context.knows? →
      second.sight = right.sight bases context.knows? → Costs (next first second) count middle) :
    Costs (do
      let first ← resolve left
      let second ← resolve right
      next first second) count context := by
  apply Costs.behind_frugal hBalanced
  intro first one hFirst hOne
  obtain ⟨hFinds, -⟩ := (Context.resolve_ensures hSound hBases left).of_run hFirst
  have hOneBases : one.setting.HasBases bases := hFinds.setting ▸ hBases
  have hKnows : one.knows? = context.knows? :=
    funext (Context.knows?_congr hFinds.setting hFinds.quiet.options hFinds.quiet.depth)
  apply Costs.behind_frugal hOne
  intro second two hSecond hTwo
  obtain ⟨hFindsMore, -⟩ := (Context.resolve_ensures hFinds.sound hOneBases right).of_run hSecond
  have hPlaced : first.Placed two.setting := by
    rw [hFindsMore.setting]
    exact hFinds.placed
  apply hNext first second two hTwo
  · exact Context.clear_of_placed hFindsMore.sound hPlaced hFindsMore.placed
  · exact Context.clear_of_placed hFindsMore.sound hFindsMore.placed hPlaced
  · exact Context.resolve_sight hSound hBases hFirst
  · rw [← hKnows]
    exact Context.resolve_sight hFinds.sound hOneBases hSecond

theorem testCondition_costs (hSound : context.Sound) (hBases : context.setting.HasBases bases)
    (hBalanced : context.Balanced) (condition : Condition) :
    Costs (testCondition condition) (condition.cells bases context.knows?) context := by
  apply resolveBoth_costs hSound hBases hBalanced
  intro left right middle hMiddle hClear hBack hLeft hRight
  rw [Condition.cells, ← hLeft, ← hRight]
  exact test_costs hMiddle hClear hBack condition.relation

theorem assign_costs (hSound : context.Sound) (hBases : context.setting.HasBases bases)
    (hBalanced : context.Balanced) (target : Reference) (value : Expression) :
    Costs (assign target value) (value.cells bases context.knows?) context := by
  unfold assign
  apply Costs.behind_frugal hBalanced
  intro destination one hTarget hOne
  obtain ⟨hFinds, -⟩ := (Context.resolveTarget_ensures hSound hBases target).of_run hTarget
  have hKnows : one.knows? = context.knows? :=
    funext (Context.knows?_congr hFinds.setting hFinds.quiet.options hFinds.quiet.depth)
  cases value with
  | atom span value =>
      simp only [resolveExpression, bind_assoc, pure_bind, calculate]
      exact .of_frugal hOne
  | operation span left operator right =>
      simp only [resolveExpression, bind_assoc, pure_bind, calculate]
      apply resolveBoth_costs hFinds.sound (hFinds.setting ▸ hBases) hOne
      intro first second middle hMiddle hClear _ hLeft hRight
      rw [Expression.cells, ← hKnows, ← hLeft, ← hRight]
      exact (operate_costs hMiddle hClear operator).before_frugal hMiddle

instance readInput_frugal (target : Reference) : Frugal (readInput target) := by
  unfold readInput
  infer_instance

instance writeOutput_frugal (value : Atom) : Frugal (writeOutput value) := by
  unfold writeOutput
  infer_instance

end Generating

/-! ### Knowing more -/

namespace Sight

variable {knows : String → Option Nat}

def sharpen (knows : String → Option Nat) : Sight → Sight
  | number value => number value
  | scalar name => plain knows name
  | element address => element address
  | dynamic base index => item knows base index

private theorem isNumber_sharpen {sight : Sight} (hNumber : sight.isNumber = true) :
    (sight.sharpen knows).isNumber = true := by
  cases sight with
  | number value => rfl
  | _ => cases hNumber

private theorem isPower_sharpen {sight : Sight} (hPower : sight.isPower = true) :
    (sight.sharpen knows).isPower = true := by
  cases sight with
  | number value => exact hPower
  | _ => cases hPower

end Sight

private theorem Atom.sight_sharpen {fewer more : String → Option Nat}
    (hMore : ∀ name value, fewer name = some value → more name = some value) (bases : Bases)
    (atom : Atom) : atom.sight bases more = (atom.sight bases fewer).sharpen more := by
  cases atom with
  | number span value => rfl
  | reference cell =>
      rw [Atom.sight, Atom.sight, Reference.sight, Reference.sight]
      split
      · cases hFewer : fewer cell.name with
        | none => simp [Sight.plain, Sight.sharpen, hFewer]
        | some value => simp [Sight.plain, Sight.sharpen, hFewer, hMore _ _ hFewer]
      · rfl
      · rename_i other _
        cases hFewer : fewer other with
        | none => simp [Sight.item, Sight.sharpen, hFewer]
        | some value => simp [Sight.item, Sight.sharpen, hFewer, hMore _ _ hFewer]

private theorem Operator.cells_sharpen_le (operator : Operator) (knows : String → Option Nat)
    (left right : Sight) :
    operator.cells (left.sharpen knows) (right.sharpen knows) ≤ max 1 (operator.cells left right) := by
  have hNumbers : (left.isNumber && right.isNumber) = true →
      ((left.sharpen knows).isNumber && (right.sharpen knows).isNumber) = true := by
    intro hBoth
    rw [Bool.and_eq_true] at hBoth ⊢
    exact ⟨Sight.isNumber_sharpen hBoth.1, Sight.isNumber_sharpen hBoth.2⟩
  have hSame : left = right → left.sharpen knows = right.sharpen knows :=
    congrArg (Sight.sharpen knows)
  have hPower : right.isPower = true → (right.sharpen knows).isPower = true :=
    Sight.isPower_sharpen
  unfold Operator.cells
  cases operator with
  | add => simp
  | sub =>
      dsimp only
      split_ifs <;> omega
  | mul =>
      dsimp only
      split_ifs <;> omega
  | div =>
      dsimp only
      split_ifs <;> simp_all
  | mod =>
      dsimp only
      split_ifs <;> simp_all

/-- An operation stays what it is, or one of its operands or a number takes its place. -/
theorem Expression.simplify_operation (span : Source.Span) (left : Atom) (operator : Operator)
    (right : Atom) :
    (Expression.operation span left operator right).simplify = .operation span left operator right ∨
      ∃ value, (Expression.operation span left operator right).simplify = .atom span value ∧
        (value = left ∨ value = right ∨ ∃ number, value = .number span number) := by
  dsimp only [Expression.simplify]
  split
  · exact .inr ⟨_, rfl, .inr (.inr ⟨_, rfl⟩)⟩
  · cases operator with
    | add =>
        dsimp only
        split
        · exact .inr ⟨_, rfl, .inl rfl⟩
        split
        · exact .inr ⟨_, rfl, .inr (.inl rfl)⟩
        · exact .inl rfl
    | sub =>
        dsimp only
        split
        · exact .inr ⟨_, rfl, .inl rfl⟩
        split
        · exact .inr ⟨_, rfl, .inr (.inr ⟨_, rfl⟩)⟩
        · exact .inl rfl
    | mul =>
        dsimp only
        split
        · exact .inr ⟨_, rfl, .inr (.inr ⟨_, rfl⟩)⟩
        split
        · exact .inr ⟨_, rfl, .inl rfl⟩
        split
        · exact .inr ⟨_, rfl, .inr (.inl rfl)⟩
        · exact .inl rfl
    | div =>
        dsimp only
        split
        · exact .inr ⟨_, rfl, .inr (.inr ⟨_, rfl⟩)⟩
        split
        · exact .inr ⟨_, rfl, .inl rfl⟩
        · exact .inl rfl
    | mod =>
        dsimp only
        split
        · exact .inr ⟨_, rfl, .inr (.inr ⟨_, rfl⟩)⟩
        · exact .inl rfl

theorem Expression.cells_simplify_le (bases : Bases) (knows : String → Option Nat)
    (value : Expression) : value.simplify.cells bases knows ≤ value.cells bases knows := by
  cases value with
  | atom span value => exact Nat.le_refl _
  | operation span left operator right =>
      rcases Expression.simplify_operation span left operator right with hSame | ⟨atom, hAtom, -⟩
      · rw [hSame]
      · rw [hAtom]
        exact Nat.zero_le _

theorem Condition.cells_simplify_le (bases : Bases) (knows : String → Option Nat)
    (condition : Condition) : condition.simplify.cells bases knows ≤ condition.cells bases knows := by
  unfold Condition.simplify
  split
  · exact Nat.zero_le _
  · exact Nat.le_refl _

/-- Where more is known an expression needs no second cell that it did not need before. -/
theorem Expression.cells_le {fewer more : String → Option Nat}
    (hMore : ∀ name value, fewer name = some value → more name = some value) (bases : Bases)
    (value : Expression) : value.cells bases more ≤ max 1 (value.cells bases fewer) := by
  cases value with
  | atom span value => exact Nat.zero_le _
  | operation span left operator right =>
      rw [Expression.cells, Expression.cells, Atom.sight_sharpen hMore bases left,
        Atom.sight_sharpen hMore bases right]
      exact operator.cells_sharpen_le more _ _

end RegisterCompiler
