/-
Values that come and go.

A new value is loose until it takes a cell.  Scratch cells and loop variables are created
and housed at once, so in the end no loose value is left; giving a cell back destroys the
value that owned it.  The elements of arrays are loose values that are created at their
first use.
-/

import RegisterCompiler.Proofs.Store.Marks

set_option autoImplicit false

namespace RegisterCompiler

namespace Store

variable {before middle after : Store} {handle : Handle} {handles : List Handle}

/-! ### New values -/

structure Creates (handle : Handle) (mark : Mark) (before after : Store) : Prop where
  wellFormed : after.arena.WellFormed
  fresh : ¬before.arena.Born handle
  born : ∀ other, before.arena.Born other → after.arena.Born other
  marks : ∀ other, after.arena.mark? other =
    if other = handle then some (mark, false) else before.arena.mark? other
  space : after.space = before.space
  registers : after.registers = before.registers

private theorem creates_create (hWell : before.arena.WellFormed) (payload : Payload) :
    Creates (before.arena.create payload).1 payload.mark before
      { before with arena := (before.arena.create payload).2 } where
  wellFormed := Arena.wellFormed_create hWell payload
  fresh := Arena.not_born_create hWell payload
  born := fun _ => Arena.born_create payload
  marks := Arena.mark?_create hWell payload
  space := rfl
  registers := rfl

namespace Creates

variable {handle : Handle} {mark : Mark} (hCreates : Creates handle mark before after)

include hCreates

theorem mark?_self : after.arena.mark? handle = some (mark, false) := by
  rw [hCreates.marks, if_pos rfl]

theorem mark?_of_born {other : Handle} (hBorn : before.arena.Born other) :
    after.arena.mark? other = before.arena.mark? other := by
  have hOther : other ≠ handle := by
    rintro rfl
    exact hCreates.fresh hBorn
  rw [hCreates.marks, if_neg hOther]

theorem mark?_cases {other : Handle} {found : Mark × Bool}
    (hFound : after.arena.mark? other = some found) :
    other = handle ∧ found = (mark, false) ∨ before.arena.mark? other = some found := by
  rw [hCreates.marks] at hFound
  split at hFound
  · rename_i hSame
    exact .inl ⟨hSame, (Option.some.inj hFound).symm⟩
  · exact .inr hFound

theorem housed {other : Handle} (hHoused : before.arena.Housed other) :
    after.arena.Housed other := by
  refine ⟨hCreates.born other hHoused.born, ?_⟩
  rw [hCreates.mark?_of_born hHoused.born]
  exact hHoused.owns

end Creates

/-- New values that are no elements and wait for their cells. -/
structure Spawns (handles : List Handle) (before after : Store) : Prop where
  wellFormed : after.arena.WellFormed
  fresh : ∀ handle ∈ handles, ¬before.arena.Born handle
  born : ∀ other, before.arena.Born other → after.arena.Born other
  old : ∀ other, before.arena.Born other → after.arena.mark? other = before.arena.mark? other
  new : ∀ other mark, ¬before.arena.Born other → after.arena.mark? other = some mark →
    other ∈ handles ∧ mark = (.other, false)
  arrays : after.arena.arrays = before.arena.arrays
  space : after.space = before.space
  registers : after.registers = before.registers

namespace Spawns

theorem nil (hWell : before.arena.WellFormed) : Spawns [] before before where
  wellFormed := hWell
  fresh := fun _ hNone => absurd hNone List.not_mem_nil
  born := fun _ hBorn => hBorn
  old := fun _ _ => rfl
  new := fun _ _ hUnborn hMark => absurd (Arena.born_of_mark? hMark) hUnborn
  arrays := rfl
  space := rfl
  registers := rfl

theorem cons (hCreates : Creates handle .other before middle)
    (hArrays : middle.arena.arrays = before.arena.arrays) (hRest : Spawns handles middle after) :
    Spawns (handle :: handles) before after where
  wellFormed := hRest.wellFormed
  fresh := by
    intro other hOther
    rcases List.mem_cons.mp hOther with rfl | hLater
    · exact hCreates.fresh
    · exact fun hBorn => hRest.fresh other hLater (hCreates.born other hBorn)
  born := fun other hBorn => hRest.born other (hCreates.born other hBorn)
  old := by
    intro other hBorn
    have hOther : other ≠ handle := by
      rintro rfl
      exact hCreates.fresh hBorn
    rw [hRest.old other (hCreates.born other hBorn), hCreates.marks, if_neg hOther]
  new := by
    intro other mark hUnborn hMark
    by_cases hSame : other = handle
    · have hLive : middle.arena.mark? other = some (.other, false) := by
        rw [hCreates.marks, if_pos hSame]
      rw [hRest.old other (Arena.born_of_mark? hLive), hLive] at hMark
      exact ⟨List.mem_cons.mpr (.inl hSame), (Option.some.inj hMark).symm⟩
    · by_cases hLater : middle.arena.Born other
      · rw [hRest.old other hLater, hCreates.marks, if_neg hSame] at hMark
        exact absurd (Arena.born_of_mark? hMark) hUnborn
      · obtain ⟨hMem, hOther⟩ := hRest.new other mark hLater hMark
        exact ⟨List.mem_cons_of_mem _ hMem, hOther⟩
  arrays := hRest.arrays.trans hArrays
  space := hRest.space.trans hCreates.space
  registers := hRest.registers.trans hCreates.registers

end Spawns

/-! ### Taking cells -/

structure Houses (handles : List Handle) (before after : Store) : Prop where
  wellFormed : after.arena.WellFormed
  born : ∀ other, after.arena.Born other ↔ before.arena.Born other
  marks : ∀ other, after.arena.mark? other =
    if other ∈ handles then (before.arena.mark? other).map fun mark => (mark.1, true)
    else before.arena.mark? other
  elements : ∀ ref, (after.arena.array ref).elements = (before.arena.array ref).elements
  owners : ∀ address other, after.space.chunks.get? address = some other →
    before.space.chunks.get? address = some other ∨ after.arena.Housed other
  registers : after.registers = before.registers

namespace Houses

private theorem nil (hWell : before.arena.WellFormed) : Houses [] before before where
  wellFormed := hWell
  born := fun _ => Iff.rfl
  marks := fun _ => (if_neg List.not_mem_nil).symm
  elements := fun _ => rfl
  owners := fun _ _ hOwner => .inl hOwner
  registers := rfl

theorem housed (hHouses : Houses handles before after) {other : Handle}
    (hHoused : before.arena.Housed other) : after.arena.Housed other := by
  refine ⟨(hHouses.born other).mpr hHoused.born, ?_⟩
  intro mark owns hMark
  rw [hHouses.marks] at hMark
  split at hMark
  · obtain ⟨found, -, hSame⟩ := Option.map_eq_some_iff.mp hMark
    exact (congrArg Prod.snd hSame).symm
  · exact hHoused.owns mark owns hMark

private theorem cons (hFirst : Houses [handle] before middle)
    (hRest : Houses handles middle after) :
    Houses (handle :: handles) before after where
  wellFormed := hRest.wellFormed
  born := fun other => (hRest.born other).trans (hFirst.born other)
  marks := by
    intro other
    rw [hRest.marks, hFirst.marks]
    by_cases hSame : other = handle
    · simp only [hSame, List.mem_cons, true_or, if_true, Option.map_map, Function.comp_def]
      split <;> rfl
    · simp [hSame]
  elements := fun ref => (hRest.elements ref).trans (hFirst.elements ref)
  owners := by
    intro address other hOwner
    cases hRest.owners address other hOwner with
    | inl hBefore => exact (hFirst.owners address other hBefore).imp_right hRest.housed
    | inr hHoused => exact .inr hHoused
  registers := hRest.registers.trans hFirst.registers

/-- What happens to counters and descriptions of arrays does not matter. -/
theorem congr (hHouses : Houses handles before middle) (hSlots : after.arena.slots = middle.arena.slots)
    (hFree : after.arena.freeSlots = middle.arena.freeSlots)
    (hElements : ∀ ref, (after.arena.array ref).elements = (middle.arena.array ref).elements)
    (hChunks : after.space.chunks = middle.space.chunks)
    (hRegisters : after.registers = middle.registers) : Houses handles before after := by
  obtain ⟨⟨slots, freeSlots, live, arrays⟩, space, registers, symbols⟩ := after
  dsimp only at hSlots hFree hElements hChunks hRegisters
  subst hSlots hFree hRegisters
  constructor
  · exact ⟨hHouses.wellFormed.nodup, hHouses.wellFormed.empty, hHouses.wellFormed.used⟩
  · exact hHouses.born
  · exact hHouses.marks
  · exact fun ref => (hElements ref).trans (hHouses.elements ref)
  · intro address other hOwner
    rw [hChunks] at hOwner
    cases hHouses.owners address other hOwner with
    | inl hBefore => exact .inl hBefore
    | inr hHoused => exact .inr ⟨hHoused.born, hHoused.owns⟩
  · exact hHouses.registers

theorem keeps (hSpawns : Spawns handles before middle) (hHouses : Houses handles middle after)
    {dead : Handle → Prop} : before.Keeps dead after where
  wellFormed := hHouses.wellFormed
  born := fun other hBorn => (hHouses.born other).mpr (hSpawns.born other hBorn)
  old := by
    intro other hBorn
    have hOther : other ∉ handles := fun hMem => hSpawns.fresh other hMem hBorn
    rw [hHouses.marks, if_neg hOther, hSpawns.old other hBorn]
    exact .inl rfl
  new := by
    intro other mark hUnborn hMark
    rw [hHouses.marks] at hMark
    split at hMark
    · obtain ⟨found, hFound, rfl⟩ := Option.map_eq_some_iff.mp hMark
      rw [(hSpawns.new other found hUnborn hFound).2]
    · rename_i hOther
      exact absurd (hSpawns.new other mark hUnborn hMark).1 hOther
  elements := fun ref => by
    rw [hHouses.elements, Arena.array_congr hSpawns.arrays]
  owners := by
    intro address other hOwner
    rw [← hSpawns.space]
    exact hHouses.owners address other hOwner
  occupants := by
    intro register other hOccupant
    have hSame : after.occupant? register = before.occupant? register := by
      simp only [occupant?, register?, hHouses.registers, hSpawns.registers]
    exact .inl (hSame ▸ hOccupant)

end Houses

/-- A value that owns a cell may come to a register. -/
theorem keeps_occupant {store : Store} (hWell : store.arena.WellFormed)
    (hHoused : store.arena.Housed handle) (register : Int) (state : RegisterState)
    {dead : Handle → Prop} :
    store.Keeps dead (store.setRegister register ⟨state, some handle⟩) where
  wellFormed := hWell
  born := fun _ hBorn => hBorn
  old := fun _ _ => .inl rfl
  new := fun _ _ hUnborn hMark => absurd (Arena.born_of_mark? hMark) hUnborn
  elements := fun _ => rfl
  owners := fun _ _ hOwner => .inl hOwner
  occupants := by
    intro other found hOccupant
    obtain ⟨entry, hFound⟩ := occupant?_eq_some_iff.mp hOccupant
    obtain ⟨hLow, hEntry⟩ := register?_eq_some_iff.mp hFound
    simp only [setRegister, Array.set!_eq_setIfInBounds, Array.getElem?_setIfInBounds] at hEntry
    split at hEntry
    · split at hEntry
      · cases hEntry
        exact .inr hHoused
      · cases hEntry
    · exact .inl (occupant?_eq_some_iff.mpr ⟨entry, register?_eq_some_iff.mpr ⟨hLow, hEntry⟩⟩)

end Store

namespace StoreAction

variable {before after : Store}

private theorem place_houses (hWell : before.arena.WellFormed) {address : Address} {handle : Handle}
    (hGives : (place address handle).Gives before () after) :
    before.Houses [handle] after := by
  obtain ⟨found, valued, hValue, hRest⟩ := hGives.exists_of_bind
  have hLive : before.arena.get? handle = some found ∧ valued = before := by
    have hRead := hValue.of_get_bind
    cases hFound : before.arena.get? handle with
    | none => rw [hFound] at hRead; cases hRead
    | some value => rw [hFound] at hRead; cases hRead; exact ⟨rfl, rfl⟩
  obtain ⟨hLive, rfl⟩ := hLive
  have hRest := hRest.of_get_bind
  cases hChunk : found.chunk with
  | some owned => rw [hChunk] at hRest; cases hRest
  | none =>
  rw [hChunk] at hRest
  obtain ⟨_, recorded, hRecord, hNote⟩ := hRest.exists_of_bind
  obtain ⟨-, rfl⟩ := (Gives.modify _ recorded).unique hNote
  have hRecord := hRecord.of_get_bind
  cases hInsert : valued.space.chunks.insert? address handle with
  | none => rw [hInsert] at hRecord; cases hRecord
  | some chunks =>
  rw [hInsert] at hRecord
  obtain ⟨-, rfl⟩ := (Gives.modify _ valued).unique hRecord
  have hSelf : ∀ other, (valued.arena.modify handle fun value =>
      { value with chunk := some address }).mark? other =
        if other ∈ [handle] then (valued.arena.mark? other).map fun mark => (mark.1, true)
        else valued.arena.mark? other := by
    intro other
    rw [Arena.mark?, Arena.mark?, Arena.get?_modify]
    by_cases hSame : other = handle
    · simp [hSame, Option.map_map, Function.comp_def]
    · simp [hSame]
  constructor
  · exact Arena.wellFormed_modify hWell _ _
  · exact fun other => Arena.born_modify _ _ _ _
  · exact hSelf
  · intro ref
    exact congrArg ArrayInfo.elements (Arena.array_congr (Arena.arrays_modify _ _ _) ref)
  · intro place other hOwner
    unfold OrderedMap.insert? at hInsert
    split at hInsert
    · cases hInsert
    · cases hInsert
      rw [OrderedMap.get?_set] at hOwner
      split at hOwner
      · cases hOwner
        refine .inr ⟨(Arena.born_modify _ _ _ _).mpr (Arena.born_of_get? hLive), ?_⟩
        intro mark owns hMark
        rw [hSelf, if_pos (List.mem_singleton.mpr rfl)] at hMark
        obtain ⟨_, -, hSame⟩ := Option.map_eq_some_iff.mp hMark
        exact (congrArg Prod.snd hSame).symm
      · exact .inl hOwner
  · rfl

private theorem placeRun_houses (hWell : before.arena.WellFormed) {start : Address} {done : Nat}
    {handles : List Handle} (hGives : (placeRun start done handles).Gives before () after) :
    before.Houses handles after := by
  induction handles generalizing before done with
  | nil =>
      obtain ⟨-, rfl⟩ := (Gives.pure () before).unique hGives
      exact .nil hWell
  | cons handle rest inductionHypothesis =>
      obtain ⟨_, middle, hPlace, hRest⟩ := hGives.exists_of_bind
      -- The way back is taken only to fail.
      have hPlace := hPlace.of_tryCatch fun fault middle hBack => by
        obtain ⟨_, _, -, hAgain⟩ := hBack.exists_of_bind
        cases hAgain
      have hFirst := place_houses hWell hPlace
      exact hFirst.cons (inductionHypothesis hFirst.wellFormed hRest)

theorem allocateRun_houses (hWell : before.arena.WellFormed) {handles : List Handle}
    {address : Address} (hGives : (allocateRun .loop handles).Gives before address after) :
    before.Houses handles after := by
  unfold allocateRun at hGives
  simp only [ne_eq, not_true_eq_false, if_false] at hGives
  split at hGives
  · obtain ⟨_, _, hThrow, -⟩ := hGives.exists_of_bind
    cases hThrow
  · have hRest := hGives.of_get_bind
    split at hRest
    · cases hRest
    · obtain ⟨_, placed, hPlace, hPure⟩ := hRest.exists_of_bind
      obtain ⟨-, rfl⟩ := (Gives.pure _ placed).unique hPure
      exact placeRun_houses hWell hPlace

private theorem allocateNext_houses (hWell : before.arena.WellFormed) {segment : Segment}
    {range : AddressRange} {handle : Handle} {address : Address}
    (hGives : (allocateNext segment range handle).Gives before address after) :
    before.Houses [handle] after := by
  have hRest := hGives.of_get_bind
  cases hNext : before.space.next? segment with
  | none => rw [hNext] at hRest; cases hRest
  | some found =>
      rw [hNext] at hRest
      obtain ⟨_, placed, hPlace, hRest⟩ := hRest.exists_of_bind
      obtain ⟨_, counted, hCount, hPure⟩ := hRest.exists_of_bind
      obtain ⟨-, rfl⟩ := (Gives.modify _ placed).unique hCount
      obtain ⟨-, rfl⟩ := (Gives.pure _ _).unique hPure
      refine (place_houses hWell hPlace).congr rfl rfl (fun _ => rfl) ?_ rfl
      simp only
      split <;> rfl

theorem allocate_houses (hWell : before.arena.WellFormed) {segment : Segment} {handle : Handle}
    {address : Address} (hGives : (allocate segment handle).Gives before address after) :
    before.Houses [handle] after := by
  have hRest := hGives.of_get_bind
  cases segment with
  | loop => exact allocateRun_houses hWell hRest
  | scalars => exact allocateNext_houses hWell hRest
  | arrays => exact allocateNext_houses hWell hRest
  | oversized => cases hRest
  | unnamed number => cases hRest

private theorem elements_modifyArray (arena : Arena) (ref other : ArrayRef)
    {change : ArrayInfo → ArrayInfo} (hChange : ∀ info, (change info).elements = info.elements) :
    ((arena.modifyArray ref change).array other).elements = (arena.array other).elements := by
  simp only [Arena.array, Arena.modifyArray, Array.getD_eq_getD_getElem?, Array.getElem?_modify]
  split
  · cases arena.arrays[other]? with
    | none => rfl
    | some info => exact hChange info
  · rfl

/-- The head of an array takes the first cell, unless the array is too long for its segment. -/
theorem allocateArray_houses (hWell : before.arena.WellFormed) {ref : ArrayRef} {head : Handle}
    (hGives : (allocateArray ref head).Gives before () after) :
    before.Houses [] after ∨ before.Houses [head] after := by
  have hRest := hGives.of_get_bind
  simp only at hRest
  split at hRest
  · cases hRest
  split at hRest
  · split at hRest
    · cases hRest
    obtain ⟨_, placed, hPlace, hRest⟩ := hRest.exists_of_bind
    obtain ⟨_, counted, hCount, hNote⟩ := hRest.exists_of_bind
    obtain ⟨-, rfl⟩ := (Gives.modify _ placed).unique hCount
    obtain ⟨-, rfl⟩ := (Gives.modify _ _).unique hNote
    refine .inr ((place_houses hWell hPlace).congr rfl rfl ?_ rfl rfl)
    exact fun other => elements_modifyArray _ ref other fun _ => rfl
  · obtain ⟨_, counted, hCount, hNote⟩ := hRest.exists_of_bind
    obtain ⟨-, rfl⟩ := (Gives.modify _ before).unique hCount
    obtain ⟨-, rfl⟩ := (Gives.modify _ _).unique hNote
    refine .inl ((Store.Houses.nil hWell).congr rfl rfl ?_ rfl rfl)
    exact fun other => elements_modifyArray _ ref other fun _ => rfl

theorem bind_keeps (hWell : before.arena.WellFormed) {register : Int} {handle : Handle}
    (hHoused : before.arena.Housed handle)
    (hGives : (bind register handle).Gives before () after) :
    before.Keeps (fun _ => False) after := by
  have hUnlink : ∀ other, Steady (modify fun store => store.unlink other) := fun other =>
    .modify fun _ hWell => Store.keeps_unlink hWell other
  have hPart : ∀ other, Steady (modify fun store => (store.unlink other).markRegister other .free) :=
    fun other => .modify fun store hWell =>
      have hUnlinked : store.Keeps (fun _ => False) (store.unlink other) :=
        Store.keeps_unlink hWell other
      hUnlinked.trans (Store.keeps_markRegister hUnlinked.wellFormed other .free)
  have hLast : ∀ middle : Store, before.Keeps (fun _ => False) middle →
      (do
        modify fun store => store.setRegister register ⟨.busy, some handle⟩
        modifyArena fun arena => arena.modify handle fun value =>
          value.noteRegister register : StoreAction Unit).Gives middle () after →
      before.Keeps (fun _ => False) after := by
    intro middle hMiddle hRest
    obtain ⟨-, rfl⟩ := (Gives.bind (.modify _ middle) (.modify _ _)).unique hRest
    have hOccupied : middle.Keeps (fun _ => False)
        (middle.setRegister register ⟨.busy, some handle⟩) :=
      Store.keeps_occupant hMiddle.wellFormed (hMiddle.housed hHoused) register .busy
    have hNote : ∀ value : Value, (value.noteRegister register).payload.mark = value.payload.mark ∧
        (value.noteRegister register).chunk = value.chunk := fun _ => ⟨rfl, rfl⟩
    exact hMiddle.trans (hOccupied.trans (Store.keeps_modify hOccupied.wellFormed handle hNote))
  unfold bind at hGives
  obtain ⟨_, checked, hCheck, hGives⟩ := hGives.exists_of_bind
  obtain ⟨_, valued, hValue, hGives⟩ := hGives.exists_of_bind
  obtain ⟨_, parted, hParted, hGives⟩ := hGives.exists_of_bind
  obtain ⟨found, again, hAgain, hGives⟩ := hGives.exists_of_bind
  have hChecked := Steady.keeps _ _ _ hCheck hWell
  have hValued := hChecked.trans (Steady.keeps _ _ _ hValue hChecked.wellFormed)
  have hParted := hValued.trans ((hUnlink register).keeps _ _ _ hParted hValued.wellFormed)
  have hFound := hParted.trans (Steady.keeps _ _ _ hAgain hParted.wellFormed)
  simp only at hGives
  split at hGives
  · have hGives := hGives.of_get_bind
    split at hGives
    · obtain ⟨_, _, hThrow, -⟩ := hGives.exists_of_bind
      cases hThrow
    · obtain ⟨_, freed, hFreed, hGives⟩ := hGives.exists_of_bind
      have hFreed := hFound.trans ((hPart _).keeps _ _ _ hFreed hFound.wellFormed)
      exact hLast _ hFreed hGives
  · exact hLast _ hFound hGives

/-! ### Giving cells back -/

theorem free_keeps (hWell : before.arena.WellFormed) {handle : Handle} {value : Value}
    (hGives : (free handle).Gives before value after) :
    before.Keeps (· = handle) after ∧ after.arena.mark? handle = none := by
  have hRest := hGives.of_get_bind
  cases hFree : before.arena.free? handle with
  | none => rw [hFree] at hRest; cases hRest
  | some found =>
      rw [hFree] at hRest
      obtain ⟨_, freed, hFreed, hPure⟩ := hRest.exists_of_bind
      obtain ⟨-, rfl⟩ := (Gives.modify _ before).unique hFreed
      obtain ⟨-, rfl⟩ := (Gives.pure _ _).unique hPure
      obtain ⟨hAfter, hArrays, hBorn, hMarks⟩ := Arena.marks_of_free? hWell hFree
      refine ⟨?_, by rw [hMarks, if_pos rfl]⟩
      constructor
      · exact hAfter
      · exact fun other => (hBorn other).mpr
      · intro other _
        rw [hMarks]
        split
        · rename_i hSame
          exact .inr ⟨rfl, hSame⟩
        · exact .inl rfl
      · intro other mark hUnborn hMark
        exact absurd ((hBorn other).mp (Arena.born_of_mark? hMark)) hUnborn
      · intro ref
        exact congrArg ArrayInfo.elements (Arena.array_congr hArrays ref)
      · exact fun _ _ hOwner => .inl hOwner
      · exact fun _ _ hOccupant => .inl hOccupant

private theorem modifySpace_steady {change : Space → Space}
    (hChunks : ∀ space, (change space).chunks = space.chunks) : Steady (modifySpace change) :=
  .modify fun store hWell => .of_marks hWell (fun _ hBorn => hBorn) (fun _ => rfl) (fun _ => rfl)
    (hChunks store.space) fun _ _ hOccupant => hOccupant

private theorem modifyArray_steady (ref : ArrayRef) {change : ArrayInfo → ArrayInfo}
    (hChange : ∀ info, (change info).elements = info.elements) :
    Steady (modifyArena fun arena => arena.modifyArray ref change) :=
  .modify fun _ hWell => .of_marks (Arena.wellFormed_modifyArray hWell ref change) (fun _ hBorn => hBorn)
    (fun _ => rfl) (fun other => elements_modifyArray _ ref other hChange) rfl
    fun _ _ hOccupant => hOccupant

instance uncount_steady (address : Address) : Steady (uncount address) := by
  have hScalars : Steady (modifySpace fun space =>
      { space with scalars := if 0 < space.scalars then space.scalars - 1 else 0 }) :=
    modifySpace_steady fun _ => rfl
  have hArrays : ∀ count : UInt64, Steady (modifySpace fun space => { space with
      heads := space.heads.erase address
      arrays := if count ≤ space.arrays then space.arrays - count else 0 }) :=
    fun _ => modifySpace_steady fun _ => rfl
  have hHead : ∀ ref, Steady (modifyArena fun arena =>
      arena.modifyArray ref fun info => { info with chunk := none }) :=
    fun ref => modifyArray_steady ref fun _ => rfl
  unfold uncount
  refine .andThen fun store => ?_
  simp only
  split
  · infer_instance
  · split
    · split
      · infer_instance
      · infer_instance
    · infer_instance

theorem uncount_leaves (address : Address) :
    (uncount address).Leaves fun store => store.space.chunks := by
  refine .bind .get fun store => ?_
  simp only
  split
  · exact .modify fun _ => rfl
  · split
    · split
      · exact .bind (.modify fun _ => rfl) fun _ => .modify fun _ => rfl
      · exact .modify fun _ => rfl
    · exact .pure _

theorem freeAt_keeps (hWell : before.arena.WellFormed) {address : Address} {value : Value}
    (hGives : (freeAt address).Gives before value after) :
    ∃ handle, before.space.chunks.get? address = some handle ∧ before.Keeps (· = handle) after := by
  have hRest := hGives.of_get_bind
  cases hOwner : before.space.chunks.get? address with
  | none => rw [hOwner] at hRest; cases hRest
  | some handle =>
  rw [hOwner] at hRest
  obtain ⟨_, counted, hCount, hRest⟩ := hRest.exists_of_bind
  obtain ⟨_, parted, hPart, hFree⟩ := hRest.exists_of_bind
  have hCounted : before.Keeps (· = handle) counted :=
    (Steady.keeps _ _ _ hCount hWell).mono fun _ hNone => hNone.elim
  have hChunks : counted.space.chunks = before.space.chunks := uncount_leaves address _ _ _ hCount
  have hPart := hPart.of_get_bind
  rw [hChunks, hOwner] at hPart
  obtain ⟨_, erased, hErase, hNote⟩ := hPart.exists_of_bind
  obtain ⟨-, rfl⟩ := (Gives.modify _ counted).unique hErase
  obtain ⟨-, rfl⟩ := (Gives.modify _ _).unique hNote
  obtain ⟨hFreed, hGone⟩ := free_keeps (Arena.wellFormed_modify hCounted.wellFormed _ _) hFree
  refine ⟨handle, rfl, hCounted.trans ?_⟩
  constructor
  · exact hFreed.wellFormed
  · exact fun other hBorn => hFreed.born other ((Arena.born_modify _ _ _ _).mpr hBorn)
  · intro other hBorn
    by_cases hSame : other = handle
    · exact .inr ⟨hSame ▸ hGone, hSame⟩
    · cases hFreed.old other ((Arena.born_modify _ _ _ _).mpr hBorn) with
      | inl hKept => exact .inl (hKept.trans (Arena.mark?_modify_of_ne _ hSame))
      | inr hDead => exact absurd hDead.2 hSame
  · intro other mark hUnborn
    exact hFreed.new other mark fun hBorn => hUnborn ((Arena.born_modify _ _ _ _).mp hBorn)
  · intro ref
    rw [hFreed.elements, Arena.array_congr (Arena.arrays_modify _ _ _)]
  · intro place other hPlace
    cases hFreed.owners place other hPlace with
    | inr hHoused => exact .inr hHoused
    | inl hBefore =>
        simp only [OrderedMap.get?_erase] at hBefore
        split at hBefore
        · cases hBefore
        · exact .inl hBefore
  · exact hFreed.occupants

/-! ### Elements of arrays -/

/-- The first look at an element creates it and enters it into the list of its array; a later
look finds it there. -/
theorem element_cases (hWell : before.arena.WellFormed) {ref : ArrayRef} {offset : Int}
    {handle : Handle} (hGives : (element ref offset).Gives before handle after) :
    (after = before ∧ before.arena.usedElement? ref offset = some handle) ∨
      before.arena.usedElement? ref offset = none ∧
        before.Creates handle (.fixed ref offset) after ∧
        ∀ other, (after.arena.array other).elements =
          if other = ref then (before.arena.array ref).elements ++ [handle]
          else (before.arena.array other).elements := by
  have hRest := hGives.of_get_bind
  cases hElement : before.arena.element? ref offset with
  | none => simp only [hElement] at hRest; cases hRest
  | some found =>
  simp only [hElement] at hRest
  obtain ⟨rfl, rfl⟩ := (Gives.bind (.modify _ before) (.pure found.1 _)).unique hRest
  unfold Arena.element? at hElement
  simp only at hElement
  split at hElement
  · rename_i hRange
    -- Beyond the described arrays nothing is in range.
    have hBound : ref < before.arena.arrays.size := by
      by_contra hOutside
      simp only [ArrayInfo.inRange, Arena.array, Array.getD_eq_getD_getElem?,
        Array.getElem?_eq_none (Nat.le_of_not_lt hOutside), Option.getD_none, Bool.and_eq_true,
        decide_eq_true_eq] at hRange
      have hZero : (default : ArrayInfo).length = 0 := rfl
      omega
    cases hUsed : before.arena.usedElement? ref offset with
    | some handle =>
        rw [hUsed] at hElement
        cases hElement
        exact .inl ⟨rfl, rfl⟩
    | none =>
        rw [hUsed] at hElement
        cases hElement
        have hCreates := Store.creates_create hWell (.element
          ⟨some ((before.arena.array ref).newSlot (toString offset)), some offset, none, some ref⟩)
        refine .inr ⟨rfl, ?_, ?_⟩
        · exact ⟨Arena.wellFormed_modifyArray hCreates.wellFormed _ _, hCreates.fresh,
            hCreates.born, hCreates.marks, rfl, rfl⟩
        · intro other
          rw [Arena.array_modifyArray _ _ _ _ (by rw [Arena.arrays_create]; exact hBound)]
          split
          · rw [Arena.array_congr (Arena.arrays_create _ _)]
          · rw [Arena.array_congr (Arena.arrays_create _ _)]
  · cases hElement

theorem create_creates (hWell : before.arena.WellFormed) {payload : Payload} {handle : Handle}
    (hGives : (create payload).Gives before handle after) :
    before.Creates handle payload.mark after ∧ after.arena.arrays = before.arena.arrays := by
  cases hGives
  exact ⟨Store.creates_create hWell _, Arena.arrays_create _ _⟩

theorem dynamicElement_creates (hWell : before.arena.WellFormed) {ref : ArrayRef} {index : String}
    {handle : Handle} (hGives : (dynamicElement ref index).Gives before handle after) :
    before.Creates handle .dynamic after ∧ after.arena.arrays = before.arena.arrays := by
  cases hGives
  exact ⟨Store.creates_create hWell _, Arena.arrays_create _ _⟩

end StoreAction

end RegisterCompiler
