/-
Jumps, labels and places where several ways meet.

A jump is added before its target is known, and a label remembers its line until the
target comes.  Resolving the newest label fills its jump in and no other.  Where several
ways meet no register caches a name, so what is shown on one of them is shown on all.
-/

import RegisterCompiler.Proofs.Generator.Scratch

set_option autoImplicit false

namespace RegisterCompiler

open Generating (Ensures)

namespace Setting

/-- Another setting that differs in what is known at most. -/
def Resembles (first second : Setting) : Prop :=
  second = { first with known := second.known }

namespace Resembles

variable {first second third : Setting}

theorem refl (setting : Setting) : setting.Resembles setting :=
  rfl

theorem of_eq (hEqual : second = first) : first.Resembles second :=
  hEqual ▸ rfl

theorem trans (hFirst : first.Resembles second) (hSecond : second.Resembles third) :
    first.Resembles third := by
  unfold Resembles at hFirst hSecond ⊢
  rw [hSecond, hFirst]

theorem symm (hSame : first.Resembles second) : second.Resembles first := by
  unfold Resembles at hSame ⊢
  rw [hSame]

theorem declared (hSame : first.Resembles second) : second.declared = first.declared := by
  rw [hSame]

theorem cell? (hSame : first.Resembles second) (name : String) :
    second.cell? name = first.cell? name := by
  rw [hSame]
  rfl

private theorem arraysStart (hSame : first.Resembles second) :
    second.arraysStart = first.arraysStart := by
  rw [hSame]
  rfl

theorem isScratch (hSame : first.Resembles second) {address : Address}
    (hScratch : first.IsScratch address) : second.IsScratch address := by
  rw [hSame]
  exact hScratch

end Resembles

end Setting

/-! ### Open jumps -/

namespace Label

def slots (label : Label) : List Nat :=
  if label.kind = .fake then [] else [label.slot.toNat]

def Lands (label : Label) (code : List Instruction) (line : Int) : Prop :=
  ∀ slot ∈ label.slots, JumpsTo code slot line

end Label

namespace Line

theorem waiting_jump (registers : Int) : (pending .jump []).Waiting registers := by
  refine ⟨.jump, [], rfl, ?_⟩
  intro target lines hTarget
  have hReady := Instruction.ready_jump registers (Int.natCast_nonneg target)
    (Int.ofNat_le.mpr hTarget)
  exact ⟨hReady.accepts, hReady.within, rfl⟩

theorem waiting_jzero {registers register : Int} (hLow : 0 ≤ register)
    (hHigh : register < registers) : (pending .jzero [register]).Waiting registers := by
  refine ⟨.jzero, [register], rfl, ?_⟩
  intro target lines hTarget
  have hReady : (Instruction.branch .jzero register target).Ready registers lines :=
    Instruction.ready_branch rfl hLow hHigh (Int.natCast_nonneg target) (Int.ofNat_le.mpr hTarget)
  exact ⟨hReady.accepts, hReady.within, rfl⟩

end Line

namespace Listing

theorem getElem?_emitJump (listing : Listing) (opcode : Opcode) (operands : List Int) :
    (listing.emitJump opcode operands).lines[listing.size]? = some (.pending opcode operands) := by
  rw [emitJump, size, Array.getElem?_push, if_pos rfl]

theorem FilledBy.exists_target {listing : Listing} {code : List Instruction}
    (hFilled : listing.FilledBy code) {slot : Nat} {opcode : Opcode} {operands : List Int}
    (hLine : listing.lines[slot]? = some (.pending opcode operands)) :
    ∃ target, JumpsTo code slot target := by
  obtain ⟨found, hFound⟩ := hFilled slot _ hLine
  exact ⟨_, _, hFound, rfl⟩

/-- The instruction of an open jump once its target is known. -/
theorem FilledBy.jumpAt {listing : Listing} {code : List Instruction}
    (hFilled : listing.FilledBy code) {slot : Nat} {opcode : Opcode} {operands : List Int}
    (hLine : listing.lines[slot]? = some (.pending opcode operands)) {target : Int}
    (hJumps : JumpsTo code slot target)
    (hTarget : ∀ found, (Instruction.ofOperands opcode (operands ++ [found])).target = found) :
    instructionAt code slot = some (Instruction.ofOperands opcode (operands ++ [target])) := by
  obtain ⟨found, hFound⟩ := hFilled slot _ hLine
  obtain ⟨instruction, hHere, hInstruction⟩ := hJumps
  rw [hFound] at hHere
  rw [← Option.some.inj hHere, hTarget] at hInstruction
  rw [instructionAt, if_neg (by omega), Int.toNat_natCast, hFound, hInstruction]

private theorem Grows.perm {registers : Int} {slots others : List Nat} {before after : Listing}
    (hGrows : Grows registers slots before after) (hSame : ∀ slot, slot ∈ others ↔ slot ∈ slots) :
    Grows registers others before after where
  size := hGrows.size
  kept := hGrows.kept
  ready := fun index line hIndex hNot =>
    hGrows.ready index line hIndex fun hMem => hNot ((hSame index).mpr hMem)
  waiting := fun index hIndex => hGrows.waiting index ((hSame index).mp hIndex)

theorem Grows.slot_lt {registers : Int} {slots : List Nat} {before after : Listing}
    (hGrows : Grows registers slots before after) {slot : Nat} (hSlot : slot ∈ slots) :
    slot < after.size := by
  obtain ⟨-, line, hLine, -⟩ := hGrows.waiting slot hSlot
  exact (Array.getElem?_eq_some_iff.mp hLine).1

end Listing

private theorem Draft.Grows.perm {registers : Int} {slots others : List Nat} {before after : Draft}
    (hGrows : Draft.Grows registers slots before after)
    (hSame : ∀ slot, slot ∈ others ↔ slot ∈ slots) : Draft.Grows registers others before after :=
  ⟨hGrows.toGrows.perm hSame, hGrows.recorded, hGrows.later⟩

namespace Context

variable {context : Context}

/-- A step inside constructs: it adds ready lines and open jumps, and changes nothing but
what is known. -/
structure Extends (slots : List Nat) (before after : Context) : Prop where
  sound : after.Sound
  options : after.options = before.options
  placements : after.placements = before.placements
  cells : before.setting.Resembles after.setting
  grows : Draft.Grows before.options.registers slots before.draft after.draft

namespace Extends

variable {before middle after : Context} {slots more : List Nat}

theorem refl (hSound : context.Sound) : Extends [] context context :=
  ⟨hSound, rfl, rfl, .refl _, .refl _ _⟩

theorem of_advances (hAdvances : Advances before after)
    (hCells : before.setting.Resembles after.setting) : Extends [] before after :=
  ⟨hAdvances.sound, hAdvances.quiet.options, hAdvances.quiet.placements, hCells, hAdvances.grows⟩

theorem trans (hFirst : Extends slots before middle) (hSecond : Extends more middle after) :
    Extends (more ++ slots) before after where
  sound := hSecond.sound
  options := hSecond.options.trans hFirst.options
  placements := hSecond.placements.trans hFirst.placements
  cells := hFirst.cells.trans hSecond.cells
  grows := by
    have hLater := hSecond.grows
    rw [hFirst.options] at hLater
    exact hFirst.grows.trans hLater

theorem perm {others : List Nat} (hExtends : Extends slots before after)
    (hSame : ∀ slot, slot ∈ others ↔ slot ∈ slots) : Extends others before after :=
  { hExtends with grows := hExtends.grows.perm hSame }

end Extends

theorem Works.extends {before after : Context} (hWorks : Works before after) :
    Extends [] before after :=
  .of_advances hWorks.toAdvances (.of_eq hWorks.setting)

theorem size_addJump (context : Context) (opcode : Opcode) (operands : List Int) :
    ((context.addJump opcode operands).listing.size : Int) = context.listing.size + 1 := by
  simp only [addJump, Listing.size_emitJump, Int.natCast_add, Int.natCast_one]

theorem ensures_emitJump {α : Type} {opcode : Opcode} {operands : List Int}
    {next : Nat → Generating α} {post : α → Context → Prop}
    (hNext : Ensures (next context.listing.size) (context.addJump opcode operands) post) :
    Ensures (Generating.emitJump opcode operands >>= next) context post :=
  hNext

theorem Extends.addJump (hSound : context.Sound) {opcode : Opcode} {operands : List Int}
    (hWaiting : (Line.pending opcode operands).Waiting context.options.registers) :
    Extends [context.listing.size] context (context.addJump opcode operands) where
  sound := by
    refine ⟨hSound.store, hSound.size, hSound.dynamics, hSound.distinct, ?_⟩
    have hSize : (context.addJump opcode operands).listing.size = context.listing.size + 1 :=
      Listing.size_emitJump _ _ _
    rw [hSize]
    rintro emission (hBefore | rfl)
    · exact Nat.lt_succ_of_lt (hSound.recorded emission hBefore)
    · exact Nat.lt_succ_self _
  options := rfl
  placements := rfl
  cells := .refl _
  grows := by
    refine ⟨Listing.grows_emitJump context.listing hWaiting, fun _ hBefore => .inl hBefore, ?_⟩
    rintro emission (hBefore | rfl)
    · exact .inl hBefore
    · exact .inr ⟨Nat.le_refl _, hSound.size⟩

/-- What is known before an open jump is right where a machine that shows it comes to the
jump. -/
theorem safe_addJump (hSound : context.Sound) {opcode : Opcode} {operands : List Int}
    {blueprint : Blueprint} (hFilled : (context.addJump opcode operands).draft.FilledBy blueprint)
    {picture : Picture} {snapshot : Snapshot} (hShows : context.Shows picture snapshot) :
    blueprint.Safe context.listing.size snapshot := by
  intro emission hEmission hLine
  have hSize : (context.addJump opcode operands).listing.size = context.listing.size + 1 :=
    Listing.size_emitJump _ _ _
  rcases hFilled.recorded emission hEmission (by rw [hSize]; omega) with hBefore | rfl
  · have hBelow := hSound.recorded emission hBefore
    omega
  · exact hShows.fits hSound.store _

/-! ### Resolving labels -/

theorem resolveLabel_ensures {base : Context} {label : Label} {rest : List Label}
    (hLabels : context.labels = label :: rest) (hLow : 0 ≤ label.slot) {slots : List Nat}
    (hExtends : Extends (label.slots ++ slots) base context)
    (hNew : ∀ slot ∈ label.slots, slot ∉ slots) :
    Ensures Generating.resolveLabel context fun _ after =>
      after = { context with labels := rest, listing := after.listing } ∧
        after.listing.size = context.listing.size ∧ Extends slots base after ∧
        ∀ blueprint, after.draft.FilledBy blueprint → context.draft.FilledBy blueprint ∧
          label.Lands blueprint.code context.listing.size := by
  -- Either way the newest label goes and a listing stays behind.
  have hResolved : ∀ listing, context.labels.resolve context.listing context.listing.size =
      (.ok label, rest, listing) → ∀ {post : Unit → Context → Prop},
      post () { context with labels := rest, listing := listing } →
      Ensures Generating.resolveLabel context post := by
    intro listing hResolve post hPost
    rw [Generating.resolveLabel]
    refine .get (.get ?_)
    rw [hResolve]
    exact hPost
  by_cases hFake : label.kind = .fake
  · have hNone : label.slots = [] := if_pos hFake
    rw [hNone] at hExtends
    refine hResolved context.listing (by rw [hLabels, LabelStack.resolve, if_pos hFake])
      ⟨rfl, rfl, ?_, ?_⟩
    · exact ⟨⟨hExtends.sound.store, hExtends.sound.size, hExtends.sound.dynamics,
        hExtends.sound.distinct, hExtends.sound.recorded⟩, hExtends.options, hExtends.placements,
        hExtends.cells, hExtends.grows⟩
    · intro blueprint hFilled
      refine ⟨hFilled, ?_⟩
      rw [Label.Lands, hNone]
      exact fun _ hSlot => absurd hSlot List.not_mem_nil
  · have hOne : label.slots = [label.slot.toNat] := if_neg hFake
    rw [hOne] at hExtends hNew
    obtain ⟨patched, hPatch, hSize, hGrows, hFills⟩ :=
      hExtends.grows.patch (hNew _ List.mem_cons_self)
    rw [Int.toNat_of_nonneg hLow] at hPatch
    refine hResolved patched (by rw [hLabels, LabelStack.resolve, if_neg hFake, hPatch])
      ⟨rfl, hSize, ?_, ?_⟩
    · refine ⟨⟨hExtends.sound.store, hExtends.sound.size, hExtends.sound.dynamics,
        hExtends.sound.distinct, ?_⟩, hExtends.options, hExtends.placements, hExtends.cells,
        ⟨hGrows, hExtends.grows.recorded, hExtends.grows.later⟩⟩
      rw [hSize]
      exact hExtends.sound.recorded
    · intro blueprint hFilled
      obtain ⟨hBefore, hJump⟩ := hFills blueprint.code hFilled.listing
      refine ⟨⟨hBefore, fun emission hEmission hLine =>
        hFilled.recorded emission hEmission (by rw [hSize]; exact hLine)⟩, ?_⟩
      rw [Label.Lands, hOne]
      intro slot hSlot
      rw [List.mem_singleton.mp hSlot]
      exact hJump

structure Lands (before after : Context) (label : Label) (rest : List Label) : Prop where
  store : after.store = before.store
  pointer : after.pointer = none
  labels : after.labels = rest
  depth : after.depth = before.depth
  loops : after.loops = before.loops
  size : after.listing.size = before.listing.size
  fills : ∀ blueprint, after.draft.FilledBy blueprint →
    before.draft.FilledBy blueprint ∧ label.Lands blueprint.code before.listing.size

theorem landHere_ensures {base : Context} {label : Label} {rest : List Label}
    (hLabels : context.labels = label :: rest) (hLow : 0 ≤ label.slot) {slots : List Nat}
    (hExtends : Extends (label.slots ++ slots) base context)
    (hNew : ∀ slot ∈ label.slots, slot ∉ slots) :
    Ensures Generating.landHere context fun _ after =>
      Lands context after label rest ∧ Extends slots base after := by
  refine .bind (resolveLabel_ensures hLabels hLow hExtends hNew) ?_
  rintro - resolved ⟨hResolved, hSize, hLater, hFills⟩
  refine .modify ⟨⟨by rw [hResolved], rfl, by rw [hResolved], by rw [hResolved], by rw [hResolved],
    hSize, hFills⟩, ?_⟩
  exact ⟨⟨hLater.sound.store, hLater.sound.size, hLater.sound.dynamics, hLater.sound.distinct,
    hLater.sound.recorded⟩, hLater.options, hLater.placements, hLater.cells, hLater.grows⟩

/-! ### Places where several ways meet -/

theorem Lands.flat {before after : Context} {label : Label} {rest : List Label}
    (hLands : Lands before after label rest) (hFlat : before.Flat) : after.Flat := by
  rw [Flat, hLands.store]
  exact hFlat

theorem Lands.setting {before after : Context} {label : Label} {rest : List Label}
    (hLands : Lands before after label rest) : after.setting = before.setting := by
  rw [Context.setting, hLands.store]

theorem Lands.shows {before after : Context} {label : Label} {rest : List Label}
    (hLands : Lands before after label rest) {picture : Picture} {snapshot : Snapshot}
    (hShows : before.Shows picture snapshot) : after.Shows picture snapshot := by
  rw [Shows, hLands.store, hLands.pointer]
  exact hShows.forgetPointer

/-- When no register caches a name, what is shown depends on the cells alone. -/
theorem shows_of_flat {first second : Context} (hSound : first.Sound) (hFirst : first.Flat)
    (hSecond : second.Flat) (hSame : first.setting.Resembles second.setting) {pointer : Option Nat}
    {picture : Picture} {snapshot : Snapshot}
    (hShows : Coherent first.store pointer picture snapshot) :
    Coherent second.store none picture.dropAll snapshot where
  pointer := fun _ hNone => absurd hNone.symm (Option.some_ne_none _)
  memory := by
    intro name kind handle address value hCell _ hValue
    rw [hSame.cell?] at hCell
    obtain ⟨entry, hEntry, -⟩ := Option.map_eq_some_iff.mp (Setting.cell?_eq_some_iff.mp hCell).1
    exact hShows.memory name kind handle address value hCell (hFirst.isFresh hSound hEntry) hValue
  cache := by
    intro register handle name value hOccupant
    rw [hSecond register] at hOccupant
    contradiction
  mirror := by
    intro register handle name kind address hOccupant
    rw [hSecond register] at hOccupant
    contradiction
  cells := by
    rw [hSame.arraysStart]
    exact hShows.cells
  scratch := by
    intro address value hValue
    obtain ⟨hScratch, hMemory⟩ := hShows.scratch address value hValue
    exact ⟨hSame.isScratch hScratch, hMemory⟩
  held := fun _ _ hNone => absurd hNone.symm (Option.some_ne_none _)
  input := hShows.input
  output := hShows.output

end Context

end RegisterCompiler
