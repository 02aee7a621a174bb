/-
The ledger of values.

A context is balanced when every value without a cell is an element, those addressed through
a variable belong to the command being compiled, and every array lists its elements at fixed
offsets, one for each offset.  A step keeps the books when it leaves the context balanced
and the only new elements at fixed offsets are those it is said to gain.
-/

import Mathlib.Data.Set.Basic
import RegisterCompiler.Generator.Context
import RegisterCompiler.Proofs.Store.Housing

set_option autoImplicit false

namespace RegisterCompiler

namespace Context

structure Balanced (context : Context) : Prop where
  wellFormed : context.store.arena.WellFormed
  owners : ∀ address handle, context.store.space.chunks.get? address = some handle →
    context.store.arena.Housed handle
  occupants : ∀ register handle, context.store.occupant? register = some handle →
    context.store.arena.Housed handle
  dynamics : ∀ handle ∈ context.dynamics, context.store.arena.Born handle ∧
    ∀ mark, context.store.arena.mark? handle = some mark → mark = (.dynamic, false)
  loose : ∀ handle mark, context.store.arena.mark? handle = some (mark, false) →
    (∃ ref offset, mark = .fixed ref offset) ∨ mark = .dynamic ∧ handle ∈ context.dynamics
  placed : ∀ handle, context.store.arena.mark? handle ≠ some (.dynamic, true)
  listed : ∀ handle ref offset owns,
    context.store.arena.mark? handle = some (.fixed ref offset, owns) →
      handle ∈ (context.store.arena.array ref).elements
  elements : ∀ ref, ∀ handle ∈ (context.store.arena.array ref).elements,
    context.store.arena.Born handle ∧ ∀ mark owns,
      context.store.arena.mark? handle = some (mark, owns) → ∃ offset, mark = .fixed ref offset
  unique : ∀ first second ref offset owns owned,
    context.store.arena.mark? first = some (.fixed ref offset, owns) →
      context.store.arena.mark? second = some (.fixed ref offset, owned) → first = second

namespace Balanced

variable {before after : Context} (hBalanced : before.Balanced)

include hBalanced

private theorem of_keeps {dead : Handle → Prop} (hKeeps : before.store.Keeps dead after.store)
    (hDynamics : after.dynamics = before.dynamics ∨ after.dynamics = [] ∧
      ∀ handle ∈ before.dynamics, after.store.arena.mark? handle = none) : after.Balanced where
  wellFormed := hKeeps.wellFormed
  owners := by
    intro address handle hOwner
    cases hKeeps.owners address handle hOwner with
    | inl hBefore => exact hKeeps.housed (hBalanced.owners address handle hBefore)
    | inr hHoused => exact hHoused
  occupants := by
    intro register handle hOccupant
    cases hKeeps.occupants register handle hOccupant with
    | inl hBefore => exact hKeeps.housed (hBalanced.occupants register handle hBefore)
    | inr hHoused => exact hHoused
  dynamics := by
    intro handle hHandle
    cases hDynamics with
    | inr hNone =>
        rw [hNone.1] at hHandle
        cases hHandle
    | inl hKept =>
        rw [hKept] at hHandle
        obtain ⟨hBorn, hMarks⟩ := hBalanced.dynamics handle hHandle
        exact ⟨hKeeps.born handle hBorn,
          fun mark hMark => hMarks mark (hKeeps.mark?_of_born hBorn hMark)⟩
  loose := by
    intro handle mark hMark
    cases hKeeps.mark?_cases hMark with
    | inr hOther => cases hOther
    | inl hBefore =>
        cases hBalanced.loose handle mark hBefore with
        | inl hElement => exact .inl hElement
        | inr hDynamic =>
            cases hDynamics with
            | inl hKept => exact .inr ⟨hDynamic.1, hKept ▸ hDynamic.2⟩
            | inr hNone =>
                rw [hNone.2 handle hDynamic.2] at hMark
                cases hMark
  placed := by
    intro handle hMark
    cases hKeeps.mark?_cases hMark with
    | inl hBefore => exact hBalanced.placed handle hBefore
    | inr hOther => cases hOther
  listed := by
    intro handle ref offset owns hMark
    rw [hKeeps.elements]
    exact hBalanced.listed handle ref offset owns (hKeeps.mark?_fixed hMark)
  elements := by
    intro ref handle hHandle
    rw [hKeeps.elements] at hHandle
    obtain ⟨hBorn, hMarks⟩ := hBalanced.elements ref handle hHandle
    exact ⟨hKeeps.born handle hBorn,
      fun mark owns hMark => hMarks mark owns (hKeeps.mark?_of_born hBorn hMark)⟩
  unique := fun first second ref offset owns owned hFirst hSecond =>
    hBalanced.unique first second ref offset owns owned (hKeeps.mark?_fixed hFirst)
      (hKeeps.mark?_fixed hSecond)

/-- A new element is entered into the list of its array, or into that of the command. -/
theorem of_creates {handle : Handle} {mark : Mark}
    (hCreates : before.store.Creates handle mark after.store) (hMark : mark ≠ .other)
    (hElements : ∀ ref other, other ∈ (after.store.arena.array ref).elements ↔
      other ∈ (before.store.arena.array ref).elements ∨
        other = handle ∧ ∃ offset, mark = .fixed ref offset)
    (hDynamics : ∀ other, other ∈ after.dynamics ↔
      other ∈ before.dynamics ∨ other = handle ∧ mark = .dynamic)
    (hNew : ∀ ref offset, mark = .fixed ref offset → ∀ other owns,
      before.store.arena.mark? other ≠ some (.fixed ref offset, owns)) : after.Balanced where
  wellFormed := hCreates.wellFormed
  owners := by
    intro address other hOwner
    rw [hCreates.space] at hOwner
    exact hCreates.housed (hBalanced.owners address other hOwner)
  occupants := by
    intro register other hOccupant
    rw [Store.occupant?, Store.register?, hCreates.registers] at hOccupant
    exact hCreates.housed (hBalanced.occupants register other hOccupant)
  dynamics := by
    intro other hOther
    rcases (hDynamics other).mp hOther with hBefore | ⟨rfl, rfl⟩
    · obtain ⟨hBorn, hMarks⟩ := hBalanced.dynamics other hBefore
      refine ⟨hCreates.born other hBorn, ?_⟩
      rw [hCreates.mark?_of_born hBorn]
      exact hMarks
    · refine ⟨Arena.born_of_mark? hCreates.mark?_self, ?_⟩
      rw [hCreates.mark?_self]
      exact fun found hFound => (Option.some.inj hFound).symm
  loose := by
    intro other found hFound
    rcases hCreates.mark?_cases hFound with ⟨rfl, hSame⟩ | hBefore
    · cases hSame
      cases mark with
      | fixed ref offset => exact .inl ⟨ref, offset, rfl⟩
      | dynamic => exact .inr ⟨rfl, (hDynamics other).mpr (.inr ⟨rfl, rfl⟩)⟩
      | other => exact absurd rfl hMark
    · apply (hBalanced.loose other found hBefore).imp_right
      exact And.imp_right fun hListed => (hDynamics other).mpr (.inl hListed)
  placed := by
    intro other hFound
    rcases hCreates.mark?_cases hFound with ⟨-, hSame⟩ | hBefore
    · cases hSame
    · exact hBalanced.placed other hBefore
  listed := by
    intro other ref offset owns hFound
    apply (hElements ref other).mpr
    rcases hCreates.mark?_cases hFound with ⟨rfl, hSame⟩ | hBefore
    · cases hSame
      exact .inr ⟨rfl, offset, rfl⟩
    · exact .inl (hBalanced.listed other ref offset owns hBefore)
  elements := by
    intro ref other hOther
    rcases (hElements ref other).mp hOther with hBefore | ⟨rfl, offset, rfl⟩
    · obtain ⟨hBorn, hMarks⟩ := hBalanced.elements ref other hBefore
      refine ⟨hCreates.born other hBorn, ?_⟩
      rw [hCreates.mark?_of_born hBorn]
      exact hMarks
    · refine ⟨Arena.born_of_mark? hCreates.mark?_self, ?_⟩
      intro found owns hFound
      rw [hCreates.mark?_self] at hFound
      cases hFound
      exact ⟨offset, rfl⟩
  unique := by
    intro first second ref offset owns owned hFirst hSecond
    rcases hCreates.mark?_cases hFirst with ⟨rfl, hSame⟩ | hFirst
    · cases hSame
      rcases hCreates.mark?_cases hSecond with ⟨rfl, -⟩ | hSecond
      · rfl
      · exact absurd hSecond (hNew ref offset rfl second owned)
    · rcases hCreates.mark?_cases hSecond with ⟨rfl, hSame⟩ | hSecond
      · cases hSame
        exact absurd hFirst (hNew ref offset rfl first owns)
      · exact hBalanced.unique first second ref offset owns owned hFirst hSecond

end Balanced

/-- A step after which the context is balanced: old values are what they were, and the new
elements at fixed offsets are gained. -/
structure Books (gain : Set (ArrayRef × Int)) (before after : Context) : Prop where
  balanced : after.Balanced
  born : ∀ handle, before.store.arena.Born handle → after.store.arena.Born handle
  housed : ∀ handle, before.store.arena.Housed handle → after.store.arena.Housed handle
  same : ∀ handle mark owns, before.store.arena.Born handle →
    after.store.arena.mark? handle = some (mark, owns) →
      ∃ owned, before.store.arena.mark? handle = some (mark, owned)
  kept : ∀ handle ref offset, before.store.arena.mark? handle = some (.fixed ref offset, false) →
    after.store.arena.mark? handle = some (.fixed ref offset, false)
  gained : ∀ handle ref offset, after.store.arena.mark? handle = some (.fixed ref offset, false) →
    before.store.arena.mark? handle = some (.fixed ref offset, false) ∨ (ref, offset) ∈ gain
  placed : ∀ handle ref offset, after.store.arena.mark? handle = some (.fixed ref offset, true) →
    before.store.arena.mark? handle = some (.fixed ref offset, true)
  present : ∀ ref offset, (ref, offset) ∈ gain →
    ∃ handle, after.store.arena.mark? handle = some (.fixed ref offset, false) ∨
      before.store.arena.mark? handle = some (.fixed ref offset, true)

namespace Books

variable {gain more : Set (ArrayRef × Int)} {before middle after : Context}

theorem trans (hFirst : Books gain before middle) (hSecond : Books more middle after) :
    Books (gain ∪ more) before after where
  balanced := hSecond.balanced
  born := fun handle hBorn => hSecond.born handle (hFirst.born handle hBorn)
  housed := fun handle hHoused => hSecond.housed handle (hFirst.housed handle hHoused)
  same := by
    intro handle mark owns hBorn hMark
    obtain ⟨owned, hMiddle⟩ := hSecond.same handle mark owns (hFirst.born handle hBorn) hMark
    exact hFirst.same handle mark owned hBorn hMiddle
  kept := fun handle ref offset hMark =>
    hSecond.kept handle ref offset (hFirst.kept handle ref offset hMark)
  gained := by
    intro handle ref offset hMark
    cases hSecond.gained handle ref offset hMark with
    | inr hMore => exact .inr (.inr hMore)
    | inl hMiddle => exact (hFirst.gained handle ref offset hMiddle).imp_right .inl
  placed := fun handle ref offset hMark =>
    hFirst.placed handle ref offset (hSecond.placed handle ref offset hMark)
  present := by
    intro ref offset hGain
    cases hGain with
    | inl hGain =>
        obtain ⟨handle, hFound⟩ := hFirst.present ref offset hGain
        exact ⟨handle, hFound.imp_left (hSecond.kept handle ref offset)⟩
    | inr hMore =>
        obtain ⟨handle, hFound⟩ := hSecond.present ref offset hMore
        exact ⟨handle, hFound.imp_right (hFirst.placed handle ref offset)⟩

theorem congr (hBooks : Books gain before after) (hSame : gain = more) :
    Books more before after :=
  hSame ▸ hBooks

/-- What keeps the store keeps the books, if only values that own a cell or belong to the
command die. -/
theorem of_keeps (hBalanced : before.Balanced) {dead : Handle → Prop}
    (hKeeps : before.store.Keeps dead after.store)
    (hDead : ∀ handle, dead handle →
      before.store.arena.Housed handle ∨ handle ∈ before.dynamics)
    (hDynamics : after.dynamics = before.dynamics ∨ after.dynamics = [] ∧
      ∀ handle ∈ before.dynamics, after.store.arena.mark? handle = none) :
    Books ∅ before after where
  balanced := hBalanced.of_keeps hKeeps hDynamics
  born := hKeeps.born
  housed := fun _ => hKeeps.housed
  same := fun _ _ owns hBorn hMark => ⟨owns, hKeeps.mark?_of_born hBorn hMark⟩
  kept := by
    intro handle ref offset hMark
    cases hKeeps.old handle (Arena.born_of_mark? hMark) with
    | inl hKept => exact hKept.trans hMark
    | inr hGone =>
        cases hDead handle hGone.2 with
        | inl hHoused =>
            have hOwns := hHoused.owns _ _ hMark
            cases hOwns
        | inr hDynamic =>
            have hOther := (hBalanced.dynamics handle hDynamic).2 _ hMark
            cases hOther
  gained := fun _ _ _ hMark => .inl (hKeeps.mark?_fixed hMark)
  placed := fun _ _ _ hMark => hKeeps.mark?_fixed hMark
  present := fun _ _ hNone => hNone.elim

theorem still (hBalanced : before.Balanced) (hStore : after.store = before.store)
    (hDynamics : after.dynamics = before.dynamics) : Books ∅ before after := by
  have hKeeps : before.store.Keeps (fun _ => False) after.store := by
    rw [hStore]
    exact .refl hBalanced.wellFormed
  exact of_keeps hBalanced hKeeps (fun _ hNone => hNone.elim) (.inl hDynamics)

theorem onStore (hBalanced : before.Balanced) {store : Store}
    (hKeeps : before.store.Keeps (fun _ => False) store) :
    Books ∅ before { before with store := store } :=
  of_keeps hBalanced hKeeps (fun _ hNone => hNone.elim) (.inl rfl)

end Books

/-! ### Elements -/

variable {context : Context} {store : Store}

/-- The mark of a listed element that was found. -/
theorem Balanced.mark?_of_usedElement? (hBalanced : context.Balanced) {ref : ArrayRef}
    {offset : Int} {handle : Handle}
    (hUsed : context.store.arena.usedElement? ref offset = some handle) :
    ∃ owns, context.store.arena.mark? handle = some (.fixed ref offset, owns) := by
  have hListed := List.mem_of_find?_eq_some hUsed
  have hFound := List.find?_some hUsed
  split at hFound
  · rename_i element hElement
    obtain ⟨value, hLive, hPayload⟩ := Option.bind_eq_some_iff.mp hElement
    have hMark : context.store.arena.mark? handle =
        some (value.payload.mark, value.chunk.isSome) := by
      rw [Arena.mark?, hLive]
      rfl
    obtain ⟨other, hFixed⟩ := (hBalanced.elements ref handle hListed).2 _ _ hMark
    obtain ⟨slot, hShape⟩ := Payload.mark_eq_fixed_iff.mp hFixed
    rw [Value.element?, hShape] at hPayload
    cases hPayload
    rw [hMark, hFixed, ← Option.some.inj (beq_iff_eq.mp hFound)]
    exact ⟨_, rfl⟩
  · cases hFound

/-- An element that is not listed does not live. -/
theorem Balanced.mark?_ne_of_usedElement? (hBalanced : context.Balanced) {ref : ArrayRef}
    {offset : Int} (hUsed : context.store.arena.usedElement? ref offset = none) (handle : Handle)
    (owns : Bool) : context.store.arena.mark? handle ≠ some (.fixed ref offset, owns) := by
  intro hMark
  have hListed := hBalanced.listed handle ref offset owns hMark
  obtain ⟨value, hLive, hFixed, -⟩ := Arena.mark?_eq_some_iff.mp hMark
  obtain ⟨slot, hShape⟩ := Payload.mark_eq_fixed_iff.mp hFixed
  apply List.find?_eq_none.mp hUsed handle hListed
  simp only [hLive, Option.bind_some, Value.element?, hShape, beq_self_eq_true]

/-- A new element at a fixed offset is gained. -/
theorem Books.of_creates {before after : Context} (hBalanced : before.Balanced) {handle : Handle}
    {mark : Mark} (hCreates : before.store.Creates handle mark after.store) (hMark : mark ≠ .other)
    (hElements : ∀ ref other, other ∈ (after.store.arena.array ref).elements ↔
      other ∈ (before.store.arena.array ref).elements ∨
        other = handle ∧ ∃ offset, mark = .fixed ref offset)
    (hDynamics : ∀ other, other ∈ after.dynamics ↔
      other ∈ before.dynamics ∨ other = handle ∧ mark = .dynamic)
    (hNew : ∀ ref offset, mark = .fixed ref offset → ∀ other owns,
      before.store.arena.mark? other ≠ some (.fixed ref offset, owns)) :
    Books { place | mark = .fixed place.1 place.2 } before after where
  balanced := hBalanced.of_creates hCreates hMark hElements hDynamics hNew
  born := hCreates.born
  housed := fun _ => hCreates.housed
  same := by
    intro other found owns hBorn hFound
    rw [hCreates.mark?_of_born hBorn] at hFound
    exact ⟨owns, hFound⟩
  kept := fun other ref offset hFound =>
    (hCreates.mark?_of_born (Arena.born_of_mark? hFound)).trans hFound
  gained := by
    intro other ref offset hFound
    rcases hCreates.mark?_cases hFound with ⟨-, hSame⟩ | hBefore
    · cases hSame
      exact .inr rfl
    · exact .inl hBefore
  placed := by
    intro other ref offset hFound
    rcases hCreates.mark?_cases hFound with ⟨-, hSame⟩ | hBefore
    · cases hSame
    · exact hBefore
  present := by
    intro ref offset hGain
    have hFixed : mark = .fixed ref offset := hGain
    exact ⟨handle, .inl (hFixed ▸ hCreates.mark?_self)⟩

/-- Looking at an element gains it. -/
theorem Books.element {before : Context} (hBalanced : before.Balanced) {ref : ArrayRef}
    {offset : Int} {handle : Handle} {store : Store}
    (hGives : (StoreAction.element ref offset).Gives before.store handle store) :
    Books {(ref, offset)} before { before with store := store } := by
  rcases StoreAction.element_cases hBalanced.wellFormed hGives with
    ⟨rfl, hUsed⟩ | ⟨hUsed, hCreates, hElements⟩
  · obtain ⟨owns, hMark⟩ := hBalanced.mark?_of_usedElement? hUsed
    have hStill : Books ∅ before before := .still hBalanced rfl rfl
    refine ⟨hBalanced, hStill.born, hStill.housed, hStill.same, hStill.kept,
      fun _ _ _ hFound => .inl hFound, hStill.placed, ?_⟩
    intro other place hGain
    cases hGain
    cases owns with
    | false => exact ⟨handle, .inl hMark⟩
    | true => exact ⟨handle, .inr hMark⟩
  · have hElement : Mark.fixed ref offset ≠ .other := nofun
    refine congr (of_creates hBalanced hCreates hElement ?_ ?_ ?_) ?_
    · intro other found
      rw [hElements]
      by_cases hSame : other = ref
      · rw [if_pos hSame, List.mem_append, List.mem_singleton, hSame]
        simp
      · rw [if_neg hSame]
        simp [Ne.symm hSame]
    · simp
    · intro other place hSame found owns
      cases hSame
      exact hBalanced.mark?_ne_of_usedElement? hUsed found owns
    · ext place
      constructor
      · intro hSame
        cases hSame
        rfl
      · rintro rfl
        rfl

/-- An element that is addressed through a variable belongs to the command. -/
theorem Books.dynamicElement {before : Context} (hBalanced : before.Balanced) {ref : ArrayRef}
    {index : String} {handle : Handle} {store : Store}
    (hGives : (StoreAction.dynamicElement ref index).Gives before.store handle store) :
    Books ∅ before
      { before with store := store, dynamics := before.dynamics ++ [handle] } := by
  obtain ⟨hCreates, hArrays⟩ := StoreAction.dynamicElement_creates hBalanced.wellFormed hGives
  have hElement : Mark.dynamic ≠ .other := nofun
  refine congr (of_creates hBalanced hCreates hElement ?_ ?_ nofun) ?_
  · intro other found
    rw [Arena.array_congr hArrays]
    simp
  · intro other
    rw [List.mem_append, List.mem_singleton]
    simp
  · ext
    simp

end Context

end RegisterCompiler
