/-
What the steps of code generation consist of.

Every step of code generation is a row of a few small ones.  A property that a row of steps has if
its parts have it belongs to all that is made of the small steps it belongs to.  Each class below
says of which small steps a property holds; the steps that then have the property too follow it.
-/

import RegisterCompiler.Proofs.Generator.Bodies

set_option autoImplicit false

namespace RegisterCompiler

class Misuse.Boundless (misuse : Misuse) : Prop where
  noIndex : ∀ index name length, misuse ≠ .indexOutOfRange index name length

namespace Misuse

variable (name : String)

instance : Boundless (declaredTwice name) := ⟨nofun⟩
instance : Boundless (emptyArray name) := ⟨nofun⟩
instance : Boundless (undeclared name) := ⟨nofun⟩
instance : Boundless (notArray name) := ⟨nofun⟩
instance : Boundless (missingIndex name) := ⟨nofun⟩
instance : Boundless (iteratorTaken name) := ⟨nofun⟩
instance : Boundless (iteratorAssigned name) := ⟨nofun⟩
instance : Boundless (noCell name) := ⟨nofun⟩

end Misuse

namespace Generating

/-! ### Code without jumps -/

class Straight (block : List Instruction) : Prop where
  plain : ∀ instruction ∈ block, instruction.opcode.isJump = false

class Stays (opcode : Opcode) : Prop where
  isJump : opcode.isJump = false

instance zero_stays : Stays .zero := ⟨rfl⟩
instance inc_stays : Stays .inc := ⟨rfl⟩
instance dec_stays : Stays .dec := ⟨rfl⟩
instance shl_stays : Stays .shl := ⟨rfl⟩
instance shr_stays : Stays .shr := ⟨rfl⟩
instance add_stays : Stays .add := ⟨rfl⟩
instance sub_stays : Stays .sub := ⟨rfl⟩
instance copy_stays : Stays .copy := ⟨rfl⟩
instance load_stays : Stays .load := ⟨rfl⟩
instance store_stays : Stays .store := ⟨rfl⟩
instance get_stays : Stays .get := ⟨rfl⟩
instance put_stays : Stays .put := ⟨rfl⟩

namespace Straight

instance nil : Straight [] :=
  ⟨fun _ hNone => absurd hNone List.not_mem_nil⟩

instance cons {opcode : Opcode} [hStays : Stays opcode] (register : Int)
    (rest : List Instruction) [hRest : Straight rest] :
    Straight (.unary opcode register :: rest) :=
  ⟨List.forall_mem_cons.mpr ⟨hStays.isJump, hRest.plain⟩⟩

instance replicate {opcode : Opcode} [hStays : Stays opcode] (register : Int) (count : Nat) :
    Straight (List.replicate count (.unary opcode register)) := by
  constructor
  intro instruction hInstruction
  rw [(List.mem_replicate.mp hInstruction).2]
  exact hStays.isJump

instance constantCode (register : Int) (value : Nat) : Straight (constantCode register value) := by
  have hBefore : ∀ rest : List Instruction, Straight rest →
      Straight (constantCodeBefore register value rest) := by
    intro rest
    fun_induction constantCodeBefore register value rest with
    | case1 rest => intro hRest; infer_instance
    | case2 rest => intro hRest; infer_instance
    | case3 value rest hZero hOne inductionHypothesis =>
        intro hRest
        simp only [dite_eq_ite] at inductionHypothesis
        apply inductionHypothesis
        split
        · infer_instance
        · infer_instance
  exact hBefore [] nil

instance pointerCode (known : Option Nat) (address : Nat) :
    Straight (pointerCode known address) := by
  unfold RegisterCompiler.pointerCode
  split
  · infer_instance
  · split
    · split
      · infer_instance
      · infer_instance
    · split
      · infer_instance
      · infer_instance

end Straight

/-! ### Rows of steps -/

class Holds (Property : (α : Type) → Generating α → Prop) {α : Type} (action : Generating α) :
    Prop where
  holds : Property α action

/-- A property that a row of steps has if its parts have it. -/
class Chains (Property : (α : Type) → Generating α → Prop) : Prop where
  pure : ∀ {α : Type} (value : α), Holds Property (pure value)
  get : Holds Property get
  bind : ∀ {α β : Type} (action : Generating β) (next : β → Generating α) [Holds Property action]
    [∀ value, Holds Property (next value)], Holds Property (action >>= next)

attribute [instance] Chains.pure Chains.get Chains.bind

variable {Property : (α : Type) → Generating α → Prop}

namespace Holds

variable {α β : Type}

theorem andThen [Chains Property] {action : Generating β} {next : β → Generating α}
    [Holds Property action] (hNext : ∀ value, Holds Property (next value)) :
    Holds Property (action >>= next) :=
  inferInstance

instance ite {condition : Prop} [Decidable condition] (first second : Generating α)
    [hFirst : Holds Property first] [hSecond : Holds Property second] :
    Holds Property (if condition then first else second) := by
  split
  · exact hFirst
  · exact hSecond

end Holds

instance nextLine_holds [Chains Property] : Holds Property nextLine := by
  unfold nextLine
  infer_instance

/-! ### Code -/

class Codes (Property : (α : Type) → Generating α → Prop) : Prop extends Chains Property where
  emitAll : ∀ (block : List Instruction) [Straight block], Holds Property (emitAll block) := by
    infer_instance
  notePointer : ∀ value, Holds Property (notePointer value)
  forgetPointer : Holds Property forgetPointer

attribute [instance] Codes.emitAll Codes.notePointer Codes.forgetPointer

section Codes

variable [Codes Property]

instance emit_holds {opcode : Opcode} [Stays opcode] (register : Int) :
    Holds Property (emit (.unary opcode register)) :=
  Codes.emitAll [.unary opcode register]

instance pointTo_holds (address : Nat) : Holds Property (pointTo address) := by
  unfold pointTo
  infer_instance

instance buildConstant_holds (register : Int) (value : Nat) :
    Holds Property (buildConstant register value) := by
  unfold buildConstant
  infer_instance

instance loadInto_holds (register : Int) (address : Nat) :
    Holds Property (loadInto register address) := by
  unfold loadInto
  infer_instance

instance repeatUnary_holds {opcode : Opcode} [Stays opcode] (register : Int) (count : Nat) :
    Holds Property (repeatUnary opcode register count) := by
  unfold repeatUnary
  infer_instance

end Codes

/-! ### Values -/

class Notes (Property : (α : Type) → Generating α → Prop) : Prop extends Chains Property where
  value : ∀ handle, Holds Property (onStore (StoreAction.value handle)) := by infer_instance
  release : ∀ register, Holds Property (onStore (StoreAction.release register)) := by infer_instance
  reserve : ∀ register, Holds Property (onStore (StoreAction.reserve register)) := by infer_instance
  setState : ∀ register state, Holds Property (onStore (StoreAction.setState register state)) := by
    infer_instance
  setFresh : ∀ name fresh, Holds Property (onStore (StoreAction.setFresh name fresh)) := by
    infer_instance
  forget : ∀ handle, Holds Property (onStore (StoreAction.forgetSymbolic handle)) := by
    infer_instance
  know : ∀ handle (number : Nat), Holds Property
    (onStore (StoreAction.change handle (·.setCurrent (some (number : Int))))) := by infer_instance
  express : ∀ handle text, Holds Property (onStore (StoreAction.change handle fun known =>
    ((known.setCurrent none).extendExpression text).markSymbolic)) := by infer_instance

attribute [instance] Notes.value Notes.release Notes.reserve Notes.setState Notes.setFresh
  Notes.forget Notes.know Notes.express

section Notes

variable [Notes Property]

instance releaseAll_holds (registers : List Int) : Holds Property (releaseAll registers) := by
  induction registers with
  | nil => unfold releaseAll; infer_instance
  | cons register rest inductionHypothesis => unfold releaseAll; infer_instance

instance tidyRegisters_holds (registers : List Nat) :
    Holds Property (tidyRegisters registers) := by
  induction registers with
  | nil => unfold tidyRegisters; infer_instance
  | cons register rest inductionHypothesis =>
      unfold tidyRegisters
      refine .andThen fun context => ?_
      split
      · infer_instance
      · infer_instance

instance learnValue_holds (operand : Operand) (value : Option Nat) (text : String) :
    Holds Property (learnValue operand value text) := by
  unfold learnValue
  split
  · refine .andThen fun _ => ?_
    simp only
    split
    · infer_instance
    · infer_instance
  · infer_instance

end Notes

/-! ### Values that end -/

class Tidies (Property : (α : Type) → Generating α → Prop) : Prop extends Notes Property where
  free : ∀ handle, Holds Property (onStore (StoreAction.free handle)) := by infer_instance
  drop : Holds Property (modify fun context => { context with dynamics := [] } : Generating Unit)

attribute [instance] Tidies.free Tidies.drop

section Tidies

variable [Tidies Property]

instance freeAll_holds (handles : List Handle) : Holds Property (freeAll handles) := by
  induction handles with
  | nil => unfold freeAll; infer_instance
  | cons handle rest inductionHypothesis => unfold freeAll; infer_instance

theorem tidyUp_holds : Holds Property tidyUp := by
  unfold tidyUp
  infer_instance

end Tidies

instance createScratch_holds [Chains Property]
    [∀ payload, Holds Property (onStore (StoreAction.create payload))] (count : Nat) :
    Holds Property (createScratch count) := by
  induction count with
  | zero => unfold createScratch; infer_instance
  | succ count inductionHypothesis => unfold createScratch; infer_instance

/-! ### Registers -/

class Saves (Property : (α : Type) → Generating α → Prop) : Prop extends
    Codes Property, Notes Property where
  unplaced : ∀ name, Holds Property (throw (.unplaced name) : Generating Unit)

attribute [instance] Saves.unplaced

section Saves

variable [Saves Property]

instance saveOccupant_holds (register : Int) (handle : Handle) (value : Value) :
    Holds Property (saveOccupant register handle value) := by
  unfold saveOccupant
  refine .andThen fun context => ?_
  simp only
  split
  · infer_instance
  · split
    · infer_instance
    · refine .andThen fun _ => .andThen fun _ => ?_
      split
      · infer_instance
      · infer_instance

instance clearRegister_holds (register : Nat) : Holds Property (clearRegister register) := by
  unfold clearRegister
  refine .andThen fun context => ?_
  split
  · infer_instance
  · infer_instance

instance clearRegisters_holds (registers : List Nat) :
    Holds Property (clearRegisters registers) := by
  induction registers with
  | nil => unfold clearRegisters; infer_instance
  | cons register rest inductionHypothesis => unfold clearRegisters; infer_instance

instance clearCache_holds : Holds Property clearCache := by
  unfold clearCache
  infer_instance

instance refresh_holds (cell : ScalarCell) : Holds Property (refresh cell) := by
  unfold refresh
  refine .andThen fun context => ?_
  split
  · infer_instance
  · refine .andThen fun value => ?_
    split
    · infer_instance
    · infer_instance

instance computeAddress_holds (register : Int) (base : Nat) (index : ScalarCell) :
    Holds Property (computeAddress register base index) := by
  unfold computeAddress
  refine .andThen fun _ => .andThen fun _ => ?_
  infer_instance

instance storeCell_holds (cell : Address) (register : Int) :
    Holds Property (storeCell cell register) := by
  unfold storeCell
  infer_instance

/-- A value without a cell takes one before its register is freed. -/
theorem evict_holds [∀ handle, Holds Property (onStore (StoreAction.allocate .loop handle))]
    (register : Int) : Holds Property (evict register) := by
  unfold evict
  refine .andThen fun context => ?_
  split
  · infer_instance
  · infer_instance

end Saves

class Acquires (Property : (α : Type) → Generating α → Prop) : Prop extends Saves Property where
  evict : ∀ register, Holds Property (evict register)
  held : ∀ count, Holds Property (throw (.registersHeld count) : Generating Int)

attribute [instance] Acquires.evict Acquires.held

section Acquires

variable [Acquires Property]

instance acquire_holds : Holds Property acquire := by
  unfold acquire
  refine .andThen fun context => ?_
  simp only
  split
  · infer_instance
  · split
    · infer_instance
    · infer_instance

instance loadCell_holds (address : Nat) : Holds Property (loadCell address) := by
  unfold loadCell
  infer_instance

instance takeScalar_holds (cell : ScalarCell) : Holds Property (takeScalar cell) := by
  unfold takeScalar
  refine .andThen fun value => ?_
  split
  · infer_instance
  · refine .andThen fun _ => .andThen fun context => ?_
    infer_instance

instance take_holds (operand : Operand) : Holds Property (take operand) := by
  cases operand <;> (unfold take; infer_instance)

end Acquires

class Caches (Property : (α : Type) → Generating α → Prop) : Prop extends Acquires Property where
  cache : ∀ register handle, Holds Property (onStore (StoreAction.bind register handle)) := by
    infer_instance

attribute [instance] Caches.cache

section Caches

variable [Caches Property]

instance readOperand_holds (operand : Operand) : Holds Property (readOperand operand) := by
  unfold readOperand
  split
  · refine .andThen fun value => ?_
    split
    · infer_instance
    · infer_instance
  · infer_instance

instance storeOperand_holds (operand : Operand) (register : Int) :
    Holds Property (storeOperand operand register) := by
  unfold storeOperand
  split
  · infer_instance
  · refine .andThen fun value => ?_
    simp only
    split
    · infer_instance
    · infer_instance
  · infer_instance
  · infer_instance

end Caches

/-! ### Cells -/

class Frees (Property : (α : Type) → Generating α → Prop) : Prop extends Chains Property where
  freeAt : ∀ address, Holds Property (onStore (StoreAction.freeAt address)) := by infer_instance
  undeclare : ∀ name, Holds Property (onStore (StoreAction.undeclare name)) := by infer_instance
  leave : Holds Property
    (modify fun context => { context with loops := context.loops - 1 } : Generating Unit)
  freeLoopCells : Holds Property freeLoopCells

attribute [instance] Frees.freeAt Frees.undeclare Frees.leave Frees.freeLoopCells

section Frees

variable [Frees Property]

instance returnScratch_holds (address : Address) (count : Nat) :
    Holds Property (returnScratch address count) := by
  induction count generalizing address with
  | zero => unfold returnScratch; infer_instance
  | succ count inductionHypothesis => unfold returnScratch; infer_instance

instance freeBorrowed_holds (cell : Option Address) : Holds Property (freeBorrowed cell) := by
  cases cell <;> (unfold freeBorrowed; infer_instance)

instance closeLoop_holds (iterator : String) (cells : LoopCells) :
    Holds Property (closeLoop iterator cells) := by
  unfold closeLoop
  refine .andThen fun _ => .andThen fun _ => .andThen fun _ => ?_
  infer_instance

end Frees

class Borrows (Property : (α : Type) → Generating α → Prop) : Prop extends
    Acquires Property, Frees Property where
  takeScratch : ∀ count, Holds Property (takeScratch count)

attribute [instance] Borrows.takeScratch

section Borrows

variable [Borrows Property]

instance aimAt_holds (operand : Operand) : Holds Property (aimAt operand) := by
  unfold aimAt
  split
  · refine .andThen fun register => .andThen fun _ => .andThen fun cell => ?_
    infer_instance
  · infer_instance
  · infer_instance
  · infer_instance

instance increaseBy_holds (register : Int) (operand : Operand) :
    Holds Property (increaseBy register operand) := by
  unfold increaseBy
  split
  · infer_instance
  · infer_instance

instance decreaseBy_holds (register : Int) (operand : Operand) :
    Holds Property (decreaseBy register operand) := by
  unfold decreaseBy
  split
  · infer_instance
  · infer_instance

instance addTo_holds (first second : Operand) : Holds Property (addTo first second) := by
  unfold addTo
  infer_instance

instance sum_holds (left right : Operand) : Holds Property (sum left right) := by
  unfold sum
  simp only
  infer_instance

instance difference_holds (left right : Operand) : Holds Property (difference left right) := by
  unfold difference
  infer_instance

instance countRounds_holds (first last : Operand) (direction : Direction) :
    Holds Property (countRounds first last direction) := by
  unfold countRounds
  simp only
  infer_instance

end Borrows

/-! ### Calculations -/

class Computes (Property : (α : Type) → Generating α → Prop) : Prop extends Borrows Property where
  generalProduct : ∀ left right, Holds Property (generalProduct left right) := by infer_instance
  selfQuotient : ∀ operand remainder, Holds Property (selfQuotient operand remainder) := by
    infer_instance
  generalQuotient : ∀ left right remainder, Holds Property (generalQuotient left right remainder) := by
    infer_instance

attribute [instance] Computes.generalProduct Computes.selfQuotient Computes.generalQuotient

section Computes

variable [Computes Property]

instance product_holds (left right : Operand) : Holds Property (product left right) := by
  unfold product
  generalize (if left.constant?.isSome = true then (right, left) else (left, right)) = ordered
  obtain ⟨first, second⟩ := ordered
  simp only
  split
  · infer_instance
  · split
    · infer_instance
    · infer_instance

instance quotient_holds (left right : Operand) (remainder : Bool) :
    Holds Property (quotient left right remainder) := by
  unfold quotient
  split
  · infer_instance
  · infer_instance

instance operate_holds (operator : Operator) (left right : Operand) :
    Holds Property (operate operator left right) := by
  unfold operate
  split
  · infer_instance
  · cases operator <;> infer_instance

instance calculate_holds (calculation : Calculation) : Holds Property (calculate calculation) := by
  cases calculation <;> (unfold calculate; infer_instance)

instance distance_holds (left right : Operand) : Holds Property (distance left right) := by
  unfold distance
  split
  · infer_instance
  split
  · infer_instance
  refine .andThen fun first => .andThen fun second => .andThen fun cell => .andThen fun _ => ?_
  infer_instance

instance compareOperands_holds (relation : Relation) (left right : Operand) :
    Holds Property (compareOperands relation left right) := by
  cases relation <;> (unfold compareOperands; infer_instance)

end Computes

class Jumps (Property : (α : Type) → Generating α → Prop) : Prop where
  emitAll : ∀ block, Holds Property (emitAll block)

attribute [instance] Jumps.emitAll

section Jumps

variable [Jumps Property]

instance emit_any_holds (instruction : Instruction) : Holds Property (emit instruction) :=
  Jumps.emitAll [instruction]

instance selfQuotient_holds [Acquires Property] (operand : Operand) (remainder : Bool) :
    Holds Property (selfQuotient operand remainder) := by
  unfold selfQuotient
  infer_instance

instance stepLoop_holds [Acquires Property] (cells : LoopCells) (direction : Direction)
    (start : Nat) : Holds Property (stepLoop cells direction start) := by
  unfold stepLoop
  refine .andThen fun register => .andThen fun _ => .andThen fun _ => .andThen fun _ => ?_
  infer_instance

instance computes_of_jumps [Borrows Property] : Computes Property where
  generalProduct left right := by
    unfold generalProduct
    refine .andThen fun first => .andThen fun second => .andThen fun product =>
      .andThen fun cell => .andThen fun _ => .andThen fun _ => .andThen fun start => ?_
    infer_instance
  selfQuotient := selfQuotient_holds
  generalQuotient left right remainder := by
    unfold generalQuotient
    refine .andThen fun rest => .andThen fun divisor => .andThen fun quotient =>
      .andThen fun count => .andThen fun cells => .andThen fun _ => .andThen fun _ =>
      .andThen fun start => .andThen fun _ => ?_
    infer_instance

end Jumps

/-! ### Branches -/

class Branches (Property : (α : Type) → Generating α → Prop) : Prop extends Saves Property where
  openLabel : ∀ kind line, Holds Property (openLabel kind line)
  jump : Holds Property (modify fun context => context.addJump .jump [] : Generating Unit)
  jumpIfZero : ∀ register, Holds Property
    (modify fun context => context.addJump .jzero [register] : Generating Unit)
  resolveLabel : Holds Property resolveLabel
  descend : Holds Property descend
  ascend : Holds Property ascend
  tidyUp : Holds Property tidyUp

attribute [instance] Branches.openLabel Branches.jump Branches.jumpIfZero Branches.resolveLabel
  Branches.descend Branches.ascend Branches.tidyUp

section Branches

variable [Branches Property]

instance emitJump_jump_holds : Holds Property (emitJump .jump []) := by
  unfold emitJump
  infer_instance

instance emitJump_jzero_holds (register : Int) : Holds Property (emitJump .jzero [register]) := by
  unfold emitJump
  infer_instance

instance landHere_holds : Holds Property landHere := by
  unfold landHere
  infer_instance

instance nested_holds {α : Type} (action : Generating α) [Holds Property action] :
    Holds Property (nested action) := by
  have hEnter : Holds Property
      (modify fun context => { context with depth := context.depth + 1 } : Generating Unit) :=
    Branches.descend
  have hLeave : Holds Property
      (modify fun context => { context with depth := context.depth - 1 } : Generating Unit) :=
    Branches.ascend
  unfold nested
  infer_instance

instance switchBranch_holds : Holds Property switchBranch := by
  unfold switchBranch
  infer_instance

instance leaveBranch_holds : Holds Property leaveBranch := by
  unfold leaveBranch
  infer_instance

instance decided_holds (holds : Bool) : Holds Property (decided holds) := by
  unfold decided
  infer_instance

instance tested_holds [Computes Property] (relation : Relation) (left right : Operand) :
    Holds Property (tested relation left right) := by
  unfold tested
  refine .andThen fun result => .andThen fun _ => ?_
  split
  · refine .andThen fun line => .andThen fun _ => .andThen fun exit => ?_
    infer_instance
  · infer_instance

instance testLoop_holds [Acquires Property] (cells : LoopCells) :
    Holds Property (testLoop cells) := by
  unfold testLoop
  infer_instance

instance enterLoop_holds [Acquires Property] (cells : LoopCells) : Holds Property (do
    clearCache
    forgetPointer
    let start ← nextLine
    descend
    testLoop cells
    return (cells, start) : Generating (LoopCells × Nat)) :=
  .andThen fun _ => .andThen fun _ => inferInstance

end Branches

/-! ### Names -/

instance known?_holds [Chains Property] (entry : SymbolEntry) (handle : Handle) :
    Holds Property (known? entry handle) := by
  unfold known?
  refine .andThen fun context => ?_
  split
  · split
    · infer_instance
    · infer_instance
  · infer_instance

class Spawns (Property : (α : Type) → Generating α → Prop) : Prop extends Chains Property where
  dynamicElement : ∀ ref index, Holds Property (onStore (StoreAction.dynamicElement ref index)) := by
    infer_instance
  enter : ∀ handle, Holds Property (modify fun context =>
    { context with dynamics := context.dynamics ++ [handle] } : Generating Unit)

attribute [instance] Spawns.dynamicElement Spawns.enter

instance resolveDynamic_holds [Spawns Property] (ref : ArrayRef) (index : ScalarCell) :
    Holds Property (resolveDynamic ref index) := by
  unfold resolveDynamic
  infer_instance

class Finds (Property : (α : Type) → Generating α → Prop) : Prop extends
    Notes Property, Spawns Property where
  refuse : ∀ {α : Type} position (misuse : Misuse) [misuse.Boundless],
    Holds Property (refuse position misuse : Generating α)
  resolveElement : ∀ position ref offset, Holds Property (resolveElement position ref offset)

attribute [instance] Finds.refuse Finds.resolveElement

section Finds

variable [Finds Property]

instance declared_holds (position : Source.Position) (name : String) :
    Holds Property (declared position name) := by
  unfold declared
  refine .andThen fun context => ?_
  split
  · infer_instance
  · infer_instance

instance scalarCell_holds (position : Source.Position) (name : String) (handle : Handle) :
    Holds Property (scalarCell position name handle) := by
  unfold scalarCell
  refine .andThen fun value => ?_
  split
  · infer_instance
  · infer_instance

instance viewScalar_holds (position : Source.Position) (entry : SymbolEntry) (handle : Handle) :
    Holds Property (viewScalar position entry handle) := by
  unfold viewScalar
  refine .andThen fun known => ?_
  split
  · infer_instance
  · infer_instance

instance viewIndex_holds (position : Source.Position) (name : String) :
    Holds Property (viewIndex position name) := by
  unfold viewIndex
  refine .andThen fun entry => ?_
  split
  · infer_instance
  · infer_instance
  · infer_instance

instance resolveArray_holds (cell : Reference) (ref : ArrayRef) :
    Holds Property (resolveArray cell ref) := by
  unfold resolveArray
  split
  · infer_instance
  · infer_instance
  · refine .andThen fun view => ?_
    split
    · infer_instance
    · infer_instance

instance resolveSource_holds (cell : Reference) : Holds Property (resolveSource cell) := by
  unfold resolveSource
  refine .andThen fun entry => ?_
  split
  · infer_instance
  · infer_instance
  · infer_instance

instance resolveTarget_holds (cell : Reference) : Holds Property (resolveTarget cell) := by
  unfold resolveTarget
  refine .andThen fun entry => ?_
  split
  · infer_instance
  · infer_instance
  · infer_instance

instance resolve_holds (atom : Atom) : Holds Property (resolve atom) := by
  cases atom <;> (unfold resolve; infer_instance)

instance resolveExpression_holds (expression : Expression) :
    Holds Property (resolveExpression expression) := by
  cases expression <;> (unfold resolveExpression; infer_instance)

end Finds

/-! ### Commands -/

class Commands (Property : (α : Type) → Generating α → Prop) : Prop extends
    Computes Property, Caches Property, Branches Property, Finds Property where
  create : ∀ payload, Holds Property (onStore (StoreAction.create payload)) := by infer_instance
  placeIterator : ∀ handle, Holds Property (placeIterator handle)
  declare : ∀ name kind binding, Holds Property (onStore (StoreAction.declare name kind binding)) := by
    infer_instance
  deepen : Holds Property
    (modify fun context => { context with loops := context.loops + 1 } : Generating Unit)

attribute [instance] Commands.create Commands.placeIterator Commands.declare Commands.deepen

section Commands

variable [Commands Property]

instance testCondition_holds (condition : Condition) :
    Holds Property (testCondition condition) := by
  unfold testCondition
  refine .andThen fun left => .andThen fun right => ?_
  split
  · infer_instance
  · infer_instance

instance openLoop_holds (position : Source.Position) (iterator : String) (first last : Atom)
    (direction : Direction) :
    Holds Property (openLoop position iterator first last direction) := by
  unfold openLoop
  refine .andThen fun context => ?_
  extract_lets opened
  have hOpened : ∀ checked, Holds Property (opened checked) := by
    intro checked
    refine .andThen fun start => .andThen fun stop => .andThen fun rounds =>
      .andThen fun counter => .andThen fun _ => .andThen fun handle => .andThen fun cell =>
      .andThen fun initial => .andThen fun _ => ?_
    infer_instance
  split
  · exact .andThen hOpened
  · exact hOpened ()

instance assign_holds (target : Reference) (value : Expression) :
    Holds Property (assign target value) := by
  unfold assign
  infer_instance

instance readInput_holds (target : Reference) : Holds Property (readInput target) := by
  unfold readInput
  infer_instance

instance writeOutput_holds (value : Atom) : Holds Property (writeOutput value) := by
  unfold writeOutput
  infer_instance

mutual

theorem compileCommand_holds [Jumps Property] (command : Command) :
    Holds Property (compileCommand command) := by
  cases command with
  | assign span target value => unfold compileCommand; infer_instance
  | read span target => unfold compileCommand; infer_instance
  | write span value => unfold compileCommand; infer_instance
  | skip span => unfold compileCommand; infer_instance
  | ifThen span condition body =>
      have hBody := compileCommands_holds body
      unfold compileCommand
      infer_instance
  | ifElse span condition body orElse =>
      have hBody := compileCommands_holds body
      have hOrElse := compileCommands_holds orElse
      unfold compileCommand
      refine .andThen fun _ => @nested_holds _ _ _ _ (.andThen fun _ => .andThen fun _ =>
        .andThen fun leave => .andThen fun _ => .andThen fun _ => ?_)
      infer_instance
  | whileLoop span condition body =>
      have hBody := compileCommands_holds body
      unfold compileCommand
      refine .andThen fun _ => .andThen fun _ => .andThen fun start =>
        @nested_holds _ _ _ _ (.andThen fun _ => .andThen fun _ => ?_)
      infer_instance
  | forLoop span iterator first last direction body =>
      have hBody := compileCommands_holds body
      unfold compileCommand
      refine .andThen fun cells => .andThen fun _ => .andThen fun _ => .andThen fun start =>
        @nested_holds _ _ _ _ (.andThen fun _ => .andThen fun _ => .andThen fun _ => ?_)
      infer_instance

theorem compileCommands_holds [Jumps Property] (commands : List Command) :
    Holds Property (compileCommands commands) := by
  cases commands with
  | nil => unfold compileCommands; infer_instance
  | cons command rest =>
      have hCommand := compileCommand_holds command
      have hRest := compileCommands_holds rest
      unfold compileCommands
      infer_instance

end

attribute [instance] compileCommand_holds compileCommands_holds

end Commands

end Generating

end RegisterCompiler
