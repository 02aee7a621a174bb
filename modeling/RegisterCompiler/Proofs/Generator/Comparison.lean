/-
The code of conditions.

A relation is decided by a difference that is zero when the relation holds, or when it
fails.  Testing a condition leaves one more label open.  The code goes on behind the test
when the condition holds and jumps where the label leads when it fails; either way no
register caches a name.
-/

import RegisterCompiler.Proofs.Generator.Calculation
import RegisterCompiler.Proofs.Generator.Control

set_option autoImplicit false

namespace RegisterCompiler

open Generating (Ensures)

namespace Relation

def measure : Relation → Nat → Nat → Nat
  | .equal, left, right | .notEqual, left, right => (left - right) + (right - left)
  | .greater, left, right | .lessEqual, left, right => left - right
  | .less, left, right | .greaterEqual, left, right => right - left

def holdsAtZero : Relation → Bool
  | .equal | .lessEqual | .greaterEqual => true
  | .notEqual | .less | .greater => false

private theorem holds_iff (relation : Relation) (left right : Nat) :
    relation.holds left right = true ↔
      (relation.measure left right = 0 ↔ relation.holdsAtZero = true) := by
  cases relation <;> simp [holds, measure, holdsAtZero] <;> omega

end Relation

def Operand.measure? (relation : Relation) (left right : Operand) (picture : Picture) :
    Option Nat :=
  (left.value? picture).bind fun first =>
    (right.value? picture).map fun second => relation.measure first second

private theorem Operand.measure?_eq_some_iff {relation : Relation} {left right : Operand}
    {picture : Picture} {result : Nat} : measure? relation left right picture = some result ↔
      ∃ first second, left.value? picture = some first ∧ right.value? picture = some second ∧
        relation.measure first second = result := by
  unfold measure?
  rw [Option.bind_eq_some_iff]
  constructor
  · rintro ⟨first, hFirst, hRest⟩
    obtain ⟨second, hSecond, hResult⟩ := Option.map_eq_some_iff.mp hRest
    exact ⟨first, second, hFirst, hSecond, hResult⟩
  · rintro ⟨first, second, hFirst, hSecond, hResult⟩
    exact ⟨first, hFirst, Option.map_eq_some_iff.mpr ⟨second, hSecond, hResult⟩⟩

namespace Context

variable {context : Context}

/-- Adds one held register to another through a scratch cell. -/
theorem Turns.addThrough (hSound : context.Sound) {first second : Int}
    (hFirst : context.store.Holds first) (hSecond : context.store.Holds second)
    {cell : Address} (hScratch : context.setting.IsScratch cell)
    (hPointer : context.pointer = some cell.toNat) :
    Turns context (context.add [.unary .store second, .unary .add first]) fun start finish =>
      ∃ one other, start.held first = some one ∧ start.held second = some other ∧
        finish = (start.setScratch cell other).hold first (one + other) := by
  have hLinked := hSound.store.toLinked
  refine .add hSound ?_ ?_
  · refine List.forall_mem_cons.mpr ⟨ready_of_allocatable hSound
      (hLinked.allocatable_of_holds hSecond) rfl _, List.forall_mem_cons.mpr
        ⟨ready_of_allocatable hSound (hLinked.allocatable_of_holds hFirst) rfl _, ?_⟩⟩
    exact fun _ hNone => absurd hNone List.not_mem_nil
  · rintro start _ snapshot ⟨one, other, hOne, hOther, rfl⟩ hShows
    refine ⟨_, ?_, (hShows.storeScratch hLinked hScratch other).setHeld hLinked hFirst _⟩
    have hPlace : snapshot.pointer = cell.toNat := hShows.pointer _ hPointer
    have hMoved : (snapshot.setCell cell.toNat other).pointer = cell.toNat := hPlace
    have hKept : (snapshot.setCell cell.toNat other).registers first = one :=
      (hShows.held first one hOne).2
    simp only [Snapshot.runBlock, Snapshot.effect?, Instruction.unary, hPlace, hMoved, hKept,
      (hShows.held second other hOther).2, Snapshot.memory_setCell_self, Option.map_some,
      Option.bind_some]

private theorem distance_ensures (hSound : context.Sound) (hHolding : context.Holding [])
    {left right : Operand} (hLeft : left.Placed context.setting)
    (hRight : right.Placed context.setting) :
    Ensures (Generating.distance left right) context fun register after =>
      Takes context after [] register (Operand.measure? .equal left right) := by
  unfold Generating.distance
  split
  · rename_i hZero
    refine (take_ensures hSound hHolding (by decide) hLeft).mono ?_
    intro register after hTakes
    refine hTakes.imp ?_
    intro picture value hValue
    obtain ⟨first, second, hFirst, hSecond, rfl⟩ := Operand.measure?_eq_some_iff.mp hValue
    rw [Operand.eq_constant_of_constant? hZero] at hSecond
    rw [hFirst, ← Option.some.inj hSecond]
    simp [Relation.measure]
  split
  · rename_i hZero
    refine (take_ensures hSound hHolding (by decide) hRight).mono ?_
    intro register after hTakes
    refine hTakes.imp ?_
    intro picture value hValue
    obtain ⟨first, second, hFirst, hSecond, rfl⟩ := Operand.measure?_eq_some_iff.mp hValue
    rw [Operand.eq_constant_of_constant? hZero] at hFirst
    rw [hSecond, ← Option.some.inj hFirst]
    simp [Relation.measure]
  refine .bind (operate_ensures hSound hHolding .sub (.inl rfl) hLeft hRight) ?_
  intro first one hFirst
  refine .bind (operate_ensures hFirst.turns.sound hFirst.holding .sub
    (.inr ⟨rfl, by simp⟩) (by rw [hFirst.turns.setting]; exact hRight)
    (by rw [hFirst.turns.setting]; exact hLeft)) ?_
  intro second two hSecond
  have hBase : two.setting = context.setting :=
    hSecond.turns.setting.trans hFirst.turns.setting
  refine .bind (takeScratch_ensures hSecond.turns.sound (by decide) (by decide)) ?_
  rintro cell _ ⟨store, handles, rfl, hLength, hLent, hSpare, hSetting, hRegisters, hSymbols⟩
  have hHeldLent : Context.Holding { two with store := store } [second, first] :=
    hSecond.holding.congr hRegisters
  refine .bind (pointTo_ensures hLent.sound cell.toNat) ?_
  rintro - aimed ⟨hAimed, hStore, hPointer⟩
  have hHeldAimed : aimed.Holding [second, first] := hHeldLent.congr (by rw [hStore])
  have hAdded := Turns.addThrough hAimed.sound ((hHeldAimed.held first).mp (by simp))
    ((hHeldAimed.held second).mp (by simp))
    (isScratch_of_lent hAimed.sound hSpare (hAimed.setting.trans hSetting) (Nat.le_refl _)
      (by omega)) hPointer
  have hHolds := (hHeldAimed.held second).mp (by simp)
  have hFreed := Turns.release hAdded.sound hHolds
  refine ensures_emitAll (.onStore_bind (StoreAction.release_gives
    (hAdded.sound.store.allocatable_of_holds hHolds)) ?_)
  rw [← hLength]
  refine .bind (returnScratch_ensures hFreed.sound hSpare (hFreed.setting.trans
    (hAdded.setting.trans (hAimed.setting.trans hSetting)))) ?_
  rintro - _ ⟨last, rfl, hReturned, hLast, hLastRegisters, -, hShows⟩
  have hUsed := Turns.borrow hSecond.turns.sound hSpare hSetting hRegisters hSymbols hLent
    (hAimed.after_still (hAdded.comp hFreed)) hReturned hLast rfl hShows
  have hHeldFreed := (hHeldAimed.add _).release_head hAdded.sound hSecond.new
  rw [hBase] at hSpare
  have hApart : first ≠ second := fun hSame => hSecond.new (by simp [hSame])
  refine .pure (Takes.ofUsed hHolding hSpare (hHeldFreed.congr hLastRegisters)
    ((hFirst.turns.comp hSecond.turns).comp hUsed) ?_)
  intro start value hValue
  obtain ⟨firstValue, secondValue, hFirstValue, hSecondValue, rfl⟩ :=
    Operand.measure?_eq_some_iff.mp hValue
  refine ⟨_, ⟨_, ⟨_, ⟨_, Operand.combine?_eq_some_iff.mpr
    ⟨firstValue, secondValue, hFirstValue, hSecondValue, rfl⟩, rfl⟩, _,
    Operand.combine?_eq_some_iff.mpr ⟨secondValue, firstValue, ?_, ?_, rfl⟩, rfl⟩, _, ⟨_,
    ⟨firstValue - secondValue, secondValue - firstValue, ?_, ?_, rfl⟩, rfl⟩, rfl⟩, by simp, ?_, ?_⟩
  · rw [Operand.value?_hold]
    exact hSecondValue
  · rw [Operand.value?_hold]
    exact hFirstValue
  · simp [Picture.hold, hApart, Operator.eval]
  · simp [Picture.hold, Operator.eval]
  · simp [Picture.forget, Picture.drop, Picture.hold, hApart, Relation.measure, Operator.eval]
  · intro address hOutside
    rw [hLength, List.mem_range'_1] at hOutside
    have hOther : address.toNat ≠ cell.toNat := by omega
    have hPlace : address ≠ cell := fun hSame => hOther (by rw [hSame])
    simp [Picture.forget, Picture.drop, Picture.hold, Picture.setScratch, hLength, hOther, hPlace]

private theorem compareOperands_ensures (hSound : context.Sound) (hHolding : context.Holding [])
    (relation : Relation) {left right : Operand} (hLeft : left.Placed context.setting)
    (hRight : right.Placed context.setting) :
    Ensures (Generating.compareOperands relation left right) context fun result after =>
      Takes context after [] result.1 (Operand.measure? relation left right) ∧
        result.2 = relation.holdsAtZero := by
  -- Both ways round a difference of the operands is taken.
  have hSub : ∀ {first second : Operand} {zeroHolds : Bool}, first.Placed context.setting →
      second.Placed context.setting → zeroHolds = relation.holdsAtZero →
      (∀ picture value, Operand.measure? relation left right picture = some value →
        Operand.combine? .sub first second picture = some value) →
      Ensures (do return (← Generating.operate .sub first second, zeroHolds)) context
        fun result after => Takes context after [] result.1 (Operand.measure? relation left right) ∧
          result.2 = relation.holdsAtZero := by
    intro first second zeroHolds hFirst hSecond hZero hContent
    refine .bind (operate_ensures hSound hHolding .sub (.inl rfl) hFirst hSecond) ?_
    intro register after hTakes
    exact .pure ⟨hTakes.imp hContent, hZero⟩
  have hForward : ∀ picture value, (Operand.measure? .greater left right picture = some value →
      Operand.combine? .sub left right picture = some value) ∧
      (Operand.measure? .less left right picture = some value →
        Operand.combine? .sub right left picture = some value) := by
    intro picture value
    constructor
    · intro hValue
      obtain ⟨first, second, hFirst, hSecond, rfl⟩ := Operand.measure?_eq_some_iff.mp hValue
      exact Operand.combine?_eq_some_iff.mpr ⟨first, second, hFirst, hSecond, rfl⟩
    · intro hValue
      obtain ⟨first, second, hFirst, hSecond, rfl⟩ := Operand.measure?_eq_some_iff.mp hValue
      exact Operand.combine?_eq_some_iff.mpr ⟨second, first, hSecond, hFirst, rfl⟩
  cases relation with
  | equal =>
      refine .bind (distance_ensures hSound hHolding hLeft hRight) ?_
      intro register after hTakes
      exact .pure ⟨hTakes, rfl⟩
  | notEqual =>
      refine .bind (distance_ensures hSound hHolding hLeft hRight) ?_
      intro register after hTakes
      exact .pure ⟨hTakes, rfl⟩
  | less => exact hSub hRight hLeft rfl fun picture value => (hForward picture value).2
  | greater => exact hSub hLeft hRight rfl fun picture value => (hForward picture value).1
  | lessEqual => exact hSub hLeft hRight rfl fun picture value => (hForward picture value).1
  | greaterEqual => exact hSub hRight hLeft rfl fun picture value => (hForward picture value).2

/-! ### Branching -/

/-- A step that opens a label: its code goes on when a test holds and jumps where the label
leads when it fails. -/
structure Branches (before after : Context) (label : Label) (holds? : Picture → Option Bool) :
    Prop where
  extended : Extends label.slots before after
  flat : after.Flat
  setting : after.setting = before.setting
  labels : after.labels = label :: before.labels
  depth : after.depth = before.depth
  loops : after.loops = before.loops
  slot : 0 ≤ label.slot
  holds : ∀ picture, holds? picture = some true →
    Reaches before after (before.Shows picture) (after.Shows picture.dropAll)
  fails : ∀ picture, holds? picture = some false → ∀ blueprint target,
    after.draft.FilledBy blueprint → label.Lands blueprint.code target →
    ∀ start, before.Shows picture start → ∃ steps finish,
      Passes blueprint steps before.listing.size start target finish ∧
        Coherent after.store none picture.dropAll finish

namespace Branches

variable {before middle after : Context} {label : Label} {holds? : Picture → Option Bool}

private theorem after_still (hFirst : Turns before middle Eq)
    (hBranches : Branches middle after label holds?) : Branches before after label holds? where
  extended := (hFirst.extends.trans hBranches.extended).perm fun _ => by rw [List.append_nil]
  flat := hBranches.flat
  setting := hBranches.setting.trans hFirst.setting
  labels := by rw [hBranches.labels, hFirst.quiet.labels]
  depth := hBranches.depth.trans hFirst.quiet.depth
  loops := hBranches.loops.trans hFirst.quiet.loops
  slot := hBranches.slot
  holds := fun picture hHolds => (hFirst.reaches picture picture rfl).trans
    (hBranches.holds picture hHolds) hBranches.extended.grows
  fails := by
    intro picture hFails blueprint target hFilled hLands start hShows
    obtain ⟨firstSteps, arrival, hPasses, hArrival⟩ := hFirst.reaches picture picture rfl blueprint
      (hBranches.extended.grows.filledBy hFilled) start hShows
    obtain ⟨restSteps, finish, hRest, hFinish⟩ :=
      hBranches.fails picture hFails blueprint target hFilled hLands arrival hArrival
    exact ⟨_, finish, hPasses.trans hRest, hFinish⟩

theorem before_still (hBranches : Branches before middle label holds?)
    (hTurns : Turns middle after fun start finish => finish = start.dropAll) (hFlat : after.Flat) :
    Branches before after label holds? where
  extended := hBranches.extended.trans hTurns.extends
  flat := hFlat
  setting := hTurns.setting.trans hBranches.setting
  labels := hTurns.quiet.labels.trans hBranches.labels
  depth := hTurns.quiet.depth.trans hBranches.depth
  loops := hTurns.quiet.loops.trans hBranches.loops
  slot := hBranches.slot
  holds := fun picture hHolds =>
    (hBranches.holds picture hHolds).trans (hTurns.reaches _ _ rfl) hTurns.grows
  fails := by
    intro picture hFails blueprint target hFilled hLands start hShows
    obtain ⟨steps, finish, hPasses, hFinish⟩ := hBranches.fails picture hFails blueprint target
      (hTurns.grows.filledBy hFilled) hLands start hShows
    have hAfter := shows_of_flat hBranches.extended.sound hBranches.flat hFlat
      (.of_eq hTurns.setting) hFinish
    exact ⟨steps, finish, hPasses, hAfter⟩

private theorem tidyUp_ensures (hBranches : Branches before context label holds?) :
    Ensures Generating.tidyUp context fun _ after =>
      Branches before after label holds? ∧ after.Tidy := by
  refine (Context.tidyUp_ensures hBranches.extended.sound).mono ?_
  rintro - after ⟨hTurns, hTidy, hOccupants, -, -⟩
  exact ⟨hBranches.before_still hTurns fun register => by rw [hOccupants, hBranches.flat], hTidy⟩

end Branches

def openLabel (context : Context) (kind : LabelKind) (line : Nat) : Context :=
  { context with labels := ⟨kind, line⟩ :: context.labels }

theorem Extends.openLabel {before : Context} {slots : List Nat}
    (hExtends : Extends slots before context) (kind : LabelKind) (line : Nat) :
    Extends slots before (context.openLabel kind line) :=
  ⟨⟨hExtends.sound.store, hExtends.sound.size, hExtends.sound.dynamics, hExtends.sound.distinct,
    hExtends.sound.recorded⟩, hExtends.options, hExtends.placements, hExtends.cells,
    hExtends.grows⟩

def decidedKind (holds : Bool) : LabelKind :=
  if holds then .fake else .whenFalse

private theorem decided_ensures (hSound : context.Sound) (holds : Bool) :
    Ensures (Generating.decided holds) context fun _ after =>
      ∃ slot, Branches context after ⟨decidedKind holds, slot⟩ (fun _ => some holds) ∧
        after.Tidy := by
  refine .bind (clearCache_ensures hSound) ?_
  rintro - cleared ⟨hCleared, hFlat, -⟩
  have hDrop : ∀ {picture : Picture} {snapshot : Snapshot}, cleared.Shows picture snapshot →
      cleared.Shows picture.dropAll snapshot := fun hShows =>
    hShows.restrict (Picture.below_dropAll rfl rfl rfl rfl rfl)
  cases holds with
  | true =>
      have hBranches : Branches cleared (cleared.openLabel .fake cleared.listing.size)
          ⟨.fake, cleared.listing.size⟩ (fun _ => some true) :=
        { extended := (Extends.refl hCleared.sound).openLabel _ _
          flat := hFlat
          setting := rfl
          labels := rfl
          depth := rfl
          loops := rfl
          slot := Int.natCast_nonneg _
          holds := fun _ _ => .still rfl fun _ hShows => hDrop hShows
          fails := fun _ hFalse => by simp at hFalse }
      refine .get (.modify_bind ((hBranches.after_still hCleared).tidyUp_ensures.mono ?_))
      exact fun _ after hAfter => ⟨_, hAfter⟩
  | false =>
      have hLine := Listing.getElem?_emitJump cleared.listing .jump []
      have hBranches : Branches cleared ((cleared.addJump .jump []).openLabel .whenFalse
          cleared.listing.size) ⟨.whenFalse, cleared.listing.size⟩ (fun _ => some false) :=
        { extended := (Extends.addJump hCleared.sound (Line.waiting_jump _)).openLabel _ _
          flat := hFlat
          setting := rfl
          labels := rfl
          depth := rfl
          loops := rfl
          slot := Int.natCast_nonneg _
          holds := fun _ hTrue => by simp at hTrue
          fails := by
            intro picture _ blueprint target hFilled hLands start hShows
            have hAt := hFilled.listing.jumpAt hLine (hLands _ List.mem_cons_self) fun _ => rfl
            have hSafe := safe_addJump hCleared.sound hFilled hShows
            exact ⟨1, start, .single (.jump start hAt) hSafe, (hDrop hShows).forgetPointer⟩ }
      refine ensures_emitJump (.modify_bind
        ((hBranches.after_still hCleared).tidyUp_ensures.mono ?_))
      exact fun _ after hAfter => ⟨_, hAfter⟩

def Compared (relation : Relation) (left right : Operand) (picture : Picture) : Option Bool :=
  (left.value? picture).bind fun (first : Nat) =>
    (right.value? picture).map fun (second : Nat) => relation.holds first second

private theorem compared_eq_some_iff {relation : Relation} {left right : Operand}
    {picture : Picture} {holds : Bool} : Compared relation left right picture = some holds ↔
      ∃ number, Operand.measure? relation left right picture = some number ∧
        (holds = true ↔ (number = 0 ↔ relation.holdsAtZero = true)) := by
  unfold Compared
  rw [Option.bind_eq_some_iff]
  constructor
  · rintro ⟨first, hFirst, hRest⟩
    obtain ⟨second, hSecond, rfl⟩ := Option.map_eq_some_iff.mp hRest
    exact ⟨_, Operand.measure?_eq_some_iff.mpr ⟨first, second, hFirst, hSecond, rfl⟩,
      relation.holds_iff first second⟩
  · rintro ⟨number, hNumber, hHolds⟩
    obtain ⟨first, second, hFirst, hSecond, rfl⟩ := Operand.measure?_eq_some_iff.mp hNumber
    refine ⟨first, hFirst, Option.map_eq_some_iff.mpr ⟨second, hSecond, ?_⟩⟩
    rw [Bool.eq_iff_iff, hHolds]
    exact relation.holds_iff first second

/-- What a register that was taken before the cache was cleared still contains. -/
theorem Takes.cleared {before cleared : Context} {register : Int} {content : Picture → Option Nat}
    (hTakes : Takes before context [] register content) (hCleared : Turns context cleared Eq) :
    ∀ picture value, content picture = some value →
      Reaches before cleared (before.Shows picture) fun snapshot =>
        cleared.Shows picture.dropAll snapshot ∧ snapshot.registers register = value := by
  intro picture value hValue
  refine ((hTakes.turns.reaches picture _ ⟨value, hValue, rfl⟩).trans
    (hCleared.reaches _ _ rfl) hCleared.grows).mono (fun _ hShows => hShows) ?_
  intro snapshot hShows
  exact ⟨hShows.restrict (Picture.below_dropAll rfl rfl rfl rfl rfl),
    (hShows.held register value (picture.held_hold_self register value)).2⟩

private theorem Sound.waiting_jzero (hSound : context.Sound) {register : Int}
    (hRegister : context.store.Allocatable register) :
    (Line.pending .jzero [register]).Waiting context.options.registers := by
  obtain ⟨hLow, hHigh⟩ := hRegister
  rw [hSound.size] at hHigh
  exact Line.waiting_jzero (by omega) hHigh

section ZeroJumps

variable {before : Context} {picture : Picture} {register : Int} {value : Nat}
  (hSound : context.Sound) (hRegister : context.store.Allocatable register)
  (hArrives : Reaches before context (before.Shows picture) fun snapshot =>
    context.Shows picture.dropAll snapshot ∧ snapshot.registers register = value)
  {blueprint : Blueprint}
  (hFilled : (context.addJump .jzero [register]).draft.FilledBy blueprint) {start : Snapshot}
  (hShows : before.Shows picture start) {target : Int}
  (hAt : instructionAt blueprint.code context.listing.size =
    some (.branch .jzero register target))

include hSound hRegister hArrives hFilled hShows hAt

private theorem Reaches.jzero_taken (hZero : value = 0) :
    ∃ steps arrival, Passes blueprint steps before.listing.size start target arrival ∧
      context.Shows picture.dropAll arrival := by
  have hAdded := Extends.addJump hSound (hSound.waiting_jzero hRegister)
  obtain ⟨steps, arrival, hPasses, hArrival, hValue⟩ :=
    hArrives blueprint (hAdded.grows.filledBy hFilled) start hShows
  have hTaken := Runs.jzero_taken hAt (by rw [hValue, hZero])
  exact ⟨_, arrival, hPasses.trans (.single hTaken (safe_addJump hSound hFilled hArrival)),
    hArrival⟩

private theorem Reaches.jzero_passed (hNonzero : value ≠ 0) :
    ∃ steps arrival,
      Passes blueprint steps before.listing.size start (context.listing.size + 1) arrival ∧
        context.Shows picture.dropAll arrival := by
  have hAdded := Extends.addJump hSound (hSound.waiting_jzero hRegister)
  obtain ⟨steps, arrival, hPasses, hArrival, hValue⟩ :=
    hArrives blueprint (hAdded.grows.filledBy hFilled) start hShows
  have hPassed := Runs.jzero_passed hAt (by rw [hValue]; exact hNonzero)
  exact ⟨_, arrival, hPasses.trans (.single hPassed (safe_addJump hSound hFilled hArrival)),
    hArrival⟩

end ZeroJumps

/-- A jump that is taken when a register is zero, where a number that is zero means that the
test fails. -/
theorem Branches.jumpAtZero {before : Context} {register : Int} {holds? : Picture → Option Bool}
    {kind : LabelKind} (hKind : kind ≠ .fake) {pointer : Option Nat}
    (hPointer : ∀ place, pointer = some place → context.pointer = some place)
    (hWorks : Works before context) (hFlat : context.Flat)
    (hRegister : context.store.Allocatable register)
    (hReaches : ∀ picture holds, holds? picture = some holds → ∃ value : Nat,
      (holds = true ↔ value ≠ 0) ∧
        Reaches before context (before.Shows picture) fun snapshot =>
          context.Shows picture.dropAll snapshot ∧ snapshot.registers register = value) :
    Branches before { (context.addJump .jzero [register]).openLabel kind context.listing.size with
      pointer := pointer } ⟨kind, context.listing.size⟩ holds? := by
  have hSlots : Label.slots ⟨kind, context.listing.size⟩ = [context.listing.size] := if_neg hKind
  have hLine := Listing.getElem?_emitJump context.listing .jzero [register]
  have hAdded := Extends.addJump hWorks.sound (hWorks.sound.waiting_jzero hRegister)
  have hExtends := hWorks.extends.trans hAdded
  refine ⟨?_, hFlat, hWorks.setting, ?_, hWorks.quiet.depth, hWorks.quiet.loops,
    Int.natCast_nonneg _, ?_, ?_⟩
  · rw [hSlots]
    exact ⟨⟨hExtends.sound.store, hExtends.sound.size, hExtends.sound.dynamics,
      hExtends.sound.distinct, hExtends.sound.recorded⟩, hExtends.options, hExtends.placements,
      hExtends.cells, hExtends.grows⟩
  · exact congrArg _ hWorks.quiet.labels
  · intro picture hHolds blueprint hFilled start hShows
    obtain ⟨value, hValue, hArrives⟩ := hReaches picture true hHolds
    obtain ⟨target, hTarget⟩ := hFilled.listing.exists_target hLine
    have hAt := hFilled.listing.jumpAt hLine hTarget fun _ => rfl
    obtain ⟨steps, arrival, hPasses, hArrival⟩ :=
      hArrives.jzero_passed hWorks.sound hRegister hFilled hShows hAt (hValue.mp rfl)
    refine ⟨steps, arrival, ?_, { hArrival with
      pointer := fun place hPlace => hArrival.pointer place (hPointer place hPlace) }⟩
    have hSize := size_addJump context .jzero [register]
    exact hSize ▸ hPasses
  · intro picture hFails blueprint target hFilled hLands start hShows
    obtain ⟨value, hValue, hArrives⟩ := hReaches picture false hFails
    have hAt := hFilled.listing.jumpAt hLine
      (hLands _ (by rw [hSlots]; exact List.mem_cons_self)) fun _ => rfl
    have hZero : value = 0 := by
      by_contra hNonzero
      exact absurd (hValue.mpr hNonzero) Bool.false_ne_true
    obtain ⟨steps, arrival, hPasses, hArrival⟩ :=
      hArrives.jzero_taken hWorks.sound hRegister hFilled hShows hAt hZero
    exact ⟨steps, arrival, hPasses, hArrival.forgetPointer⟩

/-- A jump around a jump: the second is taken when a register is not zero, where a number that
is zero means that the test holds. -/
theorem ensures_jumpUnlessZero {before : Context} {register : Int}
    {holds? : Picture → Option Bool} (hWorks : Works before context) (hFlat : context.Flat)
    (hRegister : context.store.Allocatable register)
    (hReaches : ∀ picture holds, holds? picture = some holds → ∃ value : Nat,
      (holds = true ↔ value = 0) ∧
        Reaches before context (before.Shows picture) fun snapshot =>
          context.Shows picture.dropAll snapshot ∧ snapshot.registers register = value)
    {next : Generating Unit} {post : Unit → Context → Prop}
    (hNext : ∀ after slot, Branches before after ⟨.whenFalse, slot⟩ holds? →
      Ensures next after post) :
    Ensures (do
      Generating.openLabel .whenTrue (← Generating.emitJump .jzero [register])
      let exit ← Generating.emitJump .jump []
      Generating.resolveLabel
      Generating.openLabel .whenFalse exit
      Generating.forgetPointer
      next) context post := by
  have hLine := Listing.getElem?_emitJump context.listing .jzero [register]
  have hWaiting := hWorks.sound.waiting_jzero hRegister
  let opened := (context.addJump .jzero [register]).openLabel .whenTrue context.listing.size
  have hOpened : Extends [context.listing.size] before opened :=
    (hWorks.extends.trans (Extends.addJump hWorks.sound hWaiting)).openLabel _ _
  have hSize : opened.listing.size = context.listing.size + 1 := Listing.size_emitJump _ _ _
  have hAdded := Extends.addJump hOpened.sound (Line.waiting_jump opened.options.registers)
  have hExit := Listing.getElem?_emitJump opened.listing .jump []
  refine ensures_emitJump (.modify_bind (ensures_emitJump ?_))
  have hPerm : Extends (Label.slots ⟨.whenTrue, context.listing.size⟩ ++ [opened.listing.size])
      before (opened.addJump .jump []) := by
    refine (hOpened.trans hAdded).perm fun slot => ?_
    simp [Label.slots, or_comm]
  refine .bind (resolveLabel_ensures rfl (Int.natCast_nonneg _) hPerm ?_) ?_
  · intro slot hSlot hMem
    have hFirst : slot = context.listing.size := by simpa [Label.slots] using hSlot
    have hSecond : slot = opened.listing.size := by simpa using hMem
    omega
  rintro - resolved ⟨hResolved, hResolvedSize, hExtends, hFills⟩
  have hStore : resolved.store = context.store := by rw [hResolved]; rfl
  -- The first jump leads behind the second, to the end of the test.
  have hSplit : ∀ blueprint, resolved.draft.FilledBy blueprint →
      (context.addJump .jzero [register]).draft.FilledBy blueprint ∧
      instructionAt blueprint.code context.listing.size =
        some (.branch .jzero register resolved.listing.size) ∧
      (opened.addJump .jump []).draft.FilledBy blueprint := by
    intro blueprint hFilled
    obtain ⟨hAll, hLands⟩ := hFills blueprint hFilled
    have hFirst := hAdded.grows.filledBy hAll
    refine ⟨hFirst, ?_, hAll⟩
    rw [hResolvedSize]
    exact hFirst.listing.jumpAt hLine (hLands _ List.mem_cons_self) fun _ => rfl
  have hFlatResolved : ∀ register, resolved.store.occupant? register = none := by
    rw [hStore]
    exact hFlat
  refine .modify_bind (.modify_bind (hNext _ (context.listing.size + 1 : Nat)
    ⟨?_, hFlatResolved, ?_, ?_, ?_, ?_, Int.natCast_nonneg _, ?_, ?_⟩))
  · have hSlots : Extends (Label.slots ⟨.whenFalse, (context.listing.size + 1 : Nat)⟩) before
        resolved := hExtends.perm fun slot => by rw [hSize]; rfl
    exact ⟨⟨hSlots.sound.store, hSlots.sound.size, hSlots.sound.dynamics, hSlots.sound.distinct,
      hSlots.sound.recorded⟩, hSlots.options, hSlots.placements, hSlots.cells, hSlots.grows⟩
  · change resolved.store.setting = _
    rw [hStore]
    exact hWorks.setting
  · rw [hResolved, ← hSize]
    exact congrArg _ hWorks.quiet.labels
  · rw [hResolved]
    exact hWorks.quiet.depth
  · rw [hResolved]
    exact hWorks.quiet.loops
  · intro picture hHolds blueprint hFilled start hShows
    obtain ⟨value, hValue, hArrives⟩ := hReaches picture true hHolds
    obtain ⟨hFirst, hAt, -⟩ := hSplit blueprint hFilled
    obtain ⟨steps, arrival, hPasses, hArrival⟩ :=
      hArrives.jzero_taken hWorks.sound hRegister hFirst hShows hAt (hValue.mp rfl)
    refine ⟨steps, arrival, hPasses, ?_⟩
    change Coherent resolved.store none _ arrival
    rw [hStore]
    exact hArrival.forgetPointer
  · intro picture hFails blueprint target hFilled hLands start hShows
    obtain ⟨value, hValue, hArrives⟩ := hReaches picture false hFails
    obtain ⟨hFirst, hAt, hAll⟩ := hSplit blueprint hFilled
    have hNonzero : value ≠ 0 := fun hZero => absurd (hValue.mpr hZero) Bool.false_ne_true
    obtain ⟨steps, arrival, hPasses, hArrival⟩ :=
      hArrives.jzero_passed hWorks.sound hRegister hFirst hShows hAt hNonzero
    have hExitTo : JumpsTo blueprint.code opened.listing.size target := by
      rw [hSize]
      exact hLands _ List.mem_cons_self
    have hExitAt := hAll.listing.jumpAt hExit hExitTo fun _ => rfl
    have hThere : opened.Shows picture.dropAll arrival := hArrival
    have hExitSafe := safe_addJump hOpened.sound hAll hThere
    rw [hSize] at hExitAt hExitSafe
    refine ⟨_, arrival, hPasses.trans (.single (Runs.jump arrival hExitAt) hExitSafe), ?_⟩
    change Coherent resolved.store none _ arrival
    rw [hStore]
    exact hArrival.forgetPointer

private theorem tested_ensures (hSound : context.Sound) (hHolding : context.Holding [])
    (relation : Relation) {left right : Operand} (hLeft : left.Placed context.setting)
    (hRight : right.Placed context.setting) :
    Ensures (Generating.tested relation left right) context fun _ after =>
      ∃ slot, Branches context after ⟨.whenFalse, slot⟩ (Compared relation left right) ∧
        after.Tidy := by
  refine .bind (compareOperands_ensures hSound hHolding relation hLeft hRight) ?_
  rintro ⟨register, zeroHolds⟩ compared ⟨hTakes, rfl⟩
  refine .bind (clearCache_ensures hTakes.turns.sound) ?_
  rintro - cleared ⟨hCleared, hFlat, hHeld⟩
  have hWorks := hTakes.turns.toWorks.trans hCleared.toWorks
  have hRegister := hCleared.sound.store.allocatable_of_holds
    (((hHeld _ hTakes.holding).held register).mp List.mem_cons_self)
  have hReaches := hTakes.cleared hCleared
  have hEnd : ∀ after slot,
      Branches context after ⟨.whenFalse, slot⟩ (Compared relation left right) →
      Ensures Generating.tidyUp after fun _ after =>
        ∃ slot, Branches context after ⟨.whenFalse, slot⟩ (Compared relation left right) ∧
          after.Tidy := by
    intro after slot hBranches
    exact hBranches.tidyUp_ensures.mono fun _ last hLast => ⟨slot, hLast⟩
  by_cases hZero : relation.holdsAtZero = true
  · simp only [hZero, if_true]
    refine ensures_jumpUnlessZero hWorks hFlat hRegister ?_ hEnd
    intro picture holds hHolds
    obtain ⟨number, hNumber, hMeaning⟩ := compared_eq_some_iff.mp hHolds
    exact ⟨number, by simpa [hZero] using hMeaning, hReaches picture number hNumber⟩
  · simp only [hZero, Bool.false_eq_true, if_false]
    refine ensures_emitJump (.modify_bind (.modify_bind (hEnd _ _
      (.jumpAtZero (by decide) (fun _ hNone => by contradiction) hWorks hFlat hRegister ?_))))
    intro picture holds hHolds
    obtain ⟨number, hNumber, hMeaning⟩ := compared_eq_some_iff.mp hHolds
    exact ⟨number, by simpa [hZero] using hMeaning, hReaches picture number hNumber⟩

/-- Testing a condition branches on whether it holds.  The label is that of the jump that is
taken where the condition fails, or a fake one if it always holds. -/
theorem testCondition_opens (hTidy : context.Tidy) {bases : Bases}
    (hBases : context.setting.HasBases bases) (condition : Condition) :
    Ensures (Generating.testCondition condition) context fun _ after =>
      ∃ label holds?, Branches context after label holds? ∧ after.Tidy ∧
        (∀ picture, context.Knows picture.scalar →
          holds? picture = condition.holds? bases picture.valuation) ∧
        (label.kind = .whenFalse ∨ label.kind = .fake ∧ ∀ picture, holds? picture = some true) := by
  refine .bind (resolve_ensures hTidy.toSound hBases condition.left) ?_
  rintro left one ⟨hLeft, hLeftValue⟩
  refine .bind (resolve_ensures hLeft.sound (by rw [hLeft.setting]; exact hBases)
    condition.right) ?_
  rintro right two ⟨hRight, hRightValue⟩
  have hTurns := hLeft.toTurns.after_still hRight.toTurns
  have hCompared : ∀ picture, context.Knows picture.scalar →
      Compared condition.relation left right picture =
        condition.holds? bases picture.valuation := by
    intro picture hKnows
    rw [Compared, Condition.holds?, hLeftValue picture hKnows,
      hRightValue picture (hKnows.congr hLeft.toWorks)]
  split
  · rename_i first second
    refine (decided_ensures hRight.sound _).mono ?_
    rintro - after ⟨slot, hBranches, hAfter⟩
    refine ⟨_, _, hBranches.after_still hTurns, hAfter, hCompared, ?_⟩
    cases hHolds : condition.relation.holds first second with
    | true => exact .inr ⟨rfl, fun _ => rfl⟩
    | false => exact .inl rfl
  · have hHolding : two.Holding [] :=
      (hTidy.holding.congr hLeft.registers).congr hRight.registers
    refine (tested_ensures hRight.sound hHolding condition.relation
      (by rw [hRight.setting]; exact hLeft.placed) hRight.placed).mono ?_
    rintro - after ⟨slot, hBranches, hAfter⟩
    exact ⟨_, _, hBranches.after_still hTurns, hAfter, hCompared, .inl rfl⟩

theorem testCondition_ensures (hTidy : context.Tidy) {bases : Bases}
    (hBases : context.setting.HasBases bases) (condition : Condition) :
    Ensures (Generating.testCondition condition) context fun _ after =>
      ∃ label holds?, Branches context after label holds? ∧ after.Tidy ∧
        ∀ picture, context.Knows picture.scalar →
          holds? picture = condition.holds? bases picture.valuation := by
  refine (testCondition_opens hTidy hBases condition).mono ?_
  rintro - after ⟨label, holds?, hBranches, hAfter, hSame, -⟩
  exact ⟨label, holds?, hBranches, hAfter, hSame⟩

end Context

end RegisterCompiler
