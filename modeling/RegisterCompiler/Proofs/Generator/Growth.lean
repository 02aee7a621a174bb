/-
Listings that grow.

Code generation only adds lines, and only fills in the jumps it has left open.  A
listing grows well when all lines it gains are complete instructions on registers that
exist, with jumps that lead no further than behind the last line, apart from the
jumps still open.  Code fills a listing when it has the instruction of every complete
line, and some target for every open jump.
-/

import RegisterCompiler.Label
import RegisterCompiler.Proofs.Instruction.Text
import RegisterCompiler.Proofs.Machine.Refinement

set_option autoImplicit false

namespace RegisterCompiler

namespace Instruction

private theorem Within.mono {registers : Int} {lines more : Nat} {instruction : Instruction}
    (hWithin : instruction.Within registers lines) (hMore : lines ≤ more) :
    instruction.Within registers more where
  opcode := hWithin.opcode
  register := hWithin.register
  target := by
    intro hJump
    obtain ⟨hLow, hHigh⟩ := hWithin.target hJump
    exact ⟨hLow, by omega⟩

/-- An instruction that its text gives back, on an existing register and with a jump
within so many lines. -/
structure Ready (registers : Int) (lines : Nat) (instruction : Instruction) : Prop where
  accepts : instruction.opcode.Accepts instruction.operands
  ofOperands : ofOperands instruction.opcode instruction.operands = instruction
  within : instruction.Within registers lines

end Instruction

namespace Line

def Ready (registers : Int) (lines : Nat) (line : Line) : Prop :=
  ∃ opcode operands, line = complete opcode operands ∧ opcode.Accepts operands ∧
    (Instruction.ofOperands opcode operands).Within registers lines

/-- An open jump that any target makes ready. -/
def Waiting (registers : Int) (line : Line) : Prop :=
  ∃ opcode operands, line = pending opcode operands ∧
    ∀ target lines : Nat, target ≤ lines →
      opcode.Accepts (operands ++ [(target : Int)]) ∧
        (Instruction.ofOperands opcode (operands ++ [(target : Int)])).Within registers lines ∧
        (Instruction.ofOperands opcode (operands ++ [(target : Int)])).target = target

private theorem Ready.mono {registers : Int} {lines more : Nat} {line : Line}
    (hReady : line.Ready registers lines) (hMore : lines ≤ more) : line.Ready registers more := by
  obtain ⟨opcode, operands, rfl, hAccepts, hWithin⟩ := hReady
  exact ⟨opcode, operands, rfl, hAccepts, hWithin.mono hMore⟩

theorem ready_of_instruction {registers : Int} {lines : Nat} {instruction : Instruction}
    (hReady : instruction.Ready registers lines) :
    (complete instruction.opcode instruction.operands).Ready registers lines :=
  ⟨_, _, rfl, hReady.accepts, by rw [hReady.ofOperands]; exact hReady.within⟩

def FilledBy (line : Line) (found : Option Instruction) : Prop :=
  match line with
  | complete opcode operands => found = some (Instruction.ofOperands opcode operands)
  | pending opcode operands =>
      ∃ target : Int, found = some (Instruction.ofOperands opcode (operands ++ [target]))
  | edited _ => True

end Line

def JumpsTo (code : List Instruction) (slot : Nat) (target : Int) : Prop :=
  ∃ instruction, code[slot]? = some instruction ∧ instruction.target = target

namespace Listing

/-- A listing that gained ready lines, and open jumps in the given slots. -/
structure Grows (registers : Int) (slots : List Nat) (before after : Listing) : Prop where
  size : before.size ≤ after.size
  kept : ∀ index, index < before.size → after.lines[index]? = before.lines[index]?
  ready : ∀ index line, before.size ≤ index → index ∉ slots → after.lines[index]? = some line →
    line.Ready registers after.size
  waiting : ∀ index ∈ slots, before.size ≤ index ∧
    ∃ line, after.lines[index]? = some line ∧ line.Waiting registers

def FilledBy (listing : Listing) (code : List Instruction) : Prop :=
  ∀ (index : Nat) line, listing.lines[index]? = some line → line.FilledBy code[index]?

namespace Grows

variable {registers : Int} {slots moreSlots : List Nat} {before middle after : Listing}

theorem refl (registers : Int) (listing : Listing) : Grows registers [] listing listing where
  size := Nat.le_refl _
  kept := fun _ _ => rfl
  ready := by
    intro index line hIndex _ hLine
    have hBound : index < listing.size := (Array.getElem?_eq_some_iff.mp hLine).1
    omega
  waiting := fun _ hIndex => absurd hIndex List.not_mem_nil

theorem trans (hFirst : Grows registers slots before middle)
    (hSecond : Grows registers moreSlots middle after) :
    Grows registers (moreSlots ++ slots) before after where
  size := Nat.le_trans hFirst.size hSecond.size
  kept := by
    intro index hIndex
    rw [hSecond.kept index (Nat.lt_of_lt_of_le hIndex hFirst.size), hFirst.kept index hIndex]
  ready := by
    intro index line hIndex hSlots hLine
    rw [List.mem_append, not_or] at hSlots
    by_cases hOld : index < middle.size
    · rw [hSecond.kept index hOld] at hLine
      exact (hFirst.ready index line hIndex hSlots.2 hLine).mono hSecond.size
    · exact hSecond.ready index line (by omega) hSlots.1 hLine
  waiting := by
    intro index hIndex
    rcases List.mem_append.mp hIndex with hNew | hOld
    · obtain ⟨hBound, hLine⟩ := hSecond.waiting index hNew
      exact ⟨Nat.le_trans hFirst.size hBound, hLine⟩
    · obtain ⟨hBound, line, hLine, hWaiting⟩ := hFirst.waiting index hOld
      have hInside : index < middle.size := (Array.getElem?_eq_some_iff.mp hLine).1
      exact ⟨hBound, line, by rw [hSecond.kept index hInside, hLine], hWaiting⟩

theorem filledBy (hGrows : Grows registers slots before after) {code : List Instruction}
    (hFilled : after.FilledBy code) : before.FilledBy code := by
  intro index line hLine
  have hBound : index < before.size := (Array.getElem?_eq_some_iff.mp hLine).1
  exact hFilled index line (by rw [hGrows.kept index hBound, hLine])

end Grows

/-! ### Adding instructions -/

theorem toList_addAll (listing : Listing) (block : List Instruction) :
    (listing.addAll block).lines.toList = listing.lines.toList ++
      block.map fun instruction => .complete instruction.opcode instruction.operands := by
  unfold addAll
  induction block generalizing listing with
  | nil => simp
  | cons instruction rest inductionHypothesis =>
      rw [List.foldl_cons, inductionHypothesis]
      simp [add, emit]

theorem getElem?_addAll_left (listing : Listing) (block : List Instruction) {index : Nat}
    (hIndex : index < listing.size) :
    (listing.addAll block).lines[index]? = listing.lines[index]? := by
  have hBound : index < listing.lines.toList.length := by simpa [size] using hIndex
  rw [← Array.getElem?_toList, toList_addAll, List.getElem?_append_left hBound,
    Array.getElem?_toList]

theorem getElem?_addAll_right (listing : Listing) (block : List Instruction) (index : Nat) :
    (listing.addAll block).lines[listing.size + index]? =
      block[index]?.map fun instruction =>
        .complete instruction.opcode instruction.operands := by
  have hSize : listing.size = listing.lines.toList.length := by simp [size]
  rw [← Array.getElem?_toList, toList_addAll, hSize,
    List.getElem?_append_right (Nat.le_add_right _ _), Nat.add_sub_cancel_left, List.getElem?_map]

theorem grows_addAll {registers : Int} (listing : Listing) {block : List Instruction}
    (hBlock : ∀ instruction ∈ block,
      instruction.Ready registers (listing.size + block.length)) :
    Grows registers [] listing (listing.addAll block) where
  size := by rw [size_addAll]; omega
  kept := fun index hIndex => getElem?_addAll_left listing block hIndex
  ready := by
    intro index line hIndex _ hLine
    obtain ⟨offset, rfl⟩ := Nat.exists_eq_add_of_le hIndex
    rw [getElem?_addAll_right] at hLine
    obtain ⟨instruction, hFound, rfl⟩ := Option.map_eq_some_iff.mp hLine
    rw [size_addAll]
    exact Line.ready_of_instruction (hBlock instruction (List.mem_of_getElem? hFound))
  waiting := fun _ hIndex => absurd hIndex List.not_mem_nil

theorem embedded_addAll {registers : Int} {lines : Nat} {listing : Listing}
    {block : List Instruction}
    (hBlock : ∀ instruction ∈ block, instruction.Ready registers lines)
    {code : List Instruction} (hFilled : (listing.addAll block).FilledBy code) :
    Embedded code listing.size block := by
  intro index instruction hFound
  have hLine := hFilled (listing.size + index) (.complete instruction.opcode instruction.operands)
    (by rw [getElem?_addAll_right, hFound]; rfl)
  have hCode : code[listing.size + index]? = some instruction := by
    rw [hLine, (hBlock instruction (List.mem_of_getElem? hFound)).ofOperands]
  unfold instructionAt
  rw [if_neg (by omega), show ((listing.size : Int) + index).toNat = listing.size + index by omega,
    hCode]

/-! ### Open jumps -/

theorem grows_emitJump {registers : Int} (listing : Listing) {opcode : Opcode}
    {operands : List Int} (hWaiting : (Line.pending opcode operands).Waiting registers) :
    Grows registers [listing.size] listing (listing.emitJump opcode operands) where
  size := by rw [size_emitJump]; omega
  kept := by
    intro index hIndex
    rw [emitJump, Array.getElem?_push, if_neg (by unfold size at hIndex; omega)]
  ready := by
    intro index line hIndex hSlots hLine
    have hBound : index < (listing.emitJump opcode operands).size :=
      (Array.getElem?_eq_some_iff.mp hLine).1
    rw [size_emitJump] at hBound
    rw [List.mem_singleton] at hSlots
    omega
  waiting := by
    intro index hIndex
    rw [List.mem_singleton] at hIndex
    subst hIndex
    exact ⟨Nat.le_refl _, _, by rw [emitJump, size, Array.getElem?_push, if_pos rfl], hWaiting⟩

/-- An open jump can be filled in with the next line. -/
theorem Grows.patch {registers : Int} {slot : Nat} {slots : List Nat} {before after : Listing}
    (hGrows : Grows registers (slot :: slots) before after) (hSlot : slot ∉ slots) :
    ∃ patched, after.patch slot after.size = .ok patched ∧ patched.size = after.size ∧
      Grows registers slots before patched ∧
      ∀ code, patched.FilledBy code → after.FilledBy code ∧ JumpsTo code slot after.size := by
  obtain ⟨hLow, line, hLine, opcode, operands, rfl, hWaiting⟩ :=
    hGrows.waiting slot List.mem_cons_self
  have hBound : slot < after.lines.size := (Array.getElem?_eq_some_iff.mp hLine).1
  let filled : Line := .complete opcode (operands ++ [(after.size : Int)])
  let patched : Listing := ⟨after.lines.set! slot filled⟩
  have hGet : ∀ index, patched.lines[index]? =
      if index = slot then some filled else after.lines[index]? := by
    intro index
    simp only [patched, Array.set!_eq_setIfInBounds, Array.getElem?_setIfInBounds]
    by_cases hSame : slot = index
    · rw [if_pos hSame, if_pos hBound, if_pos hSame.symm]
    · rw [if_neg hSame, if_neg (Ne.symm hSame)]
  have hSize : patched.size = after.size := by
    change (after.lines.set! slot filled).size = after.lines.size
    rw [Array.set!_eq_setIfInBounds, Array.size_setIfInBounds]
  have hReady : filled.Ready registers after.size := by
    obtain ⟨hAccepts, hWithin, -⟩ := hWaiting after.size after.size (Nat.le_refl _)
    exact ⟨_, _, rfl, hAccepts, hWithin⟩
  refine ⟨patched, ?_, hSize, ⟨?_, ?_, ?_, ?_⟩, ?_⟩
  · have hFound : after.line? slot = some (.pending opcode operands) := by
      unfold line?
      rw [if_neg (by omega), Int.toNat_natCast]
      exact hLine
    unfold Listing.patch change
    rw [hFound]
    rfl
  · rw [hSize]
    exact hGrows.size
  · intro index hIndex
    rw [hGet, if_neg (by omega)]
    exact hGrows.kept index hIndex
  · intro index found hIndex hNotSlot hFound
    rw [hSize]
    rw [hGet] at hFound
    by_cases hSame : index = slot
    · rw [if_pos hSame] at hFound
      rw [← Option.some.inj hFound]
      exact hReady
    · rw [if_neg hSame] at hFound
      refine hGrows.ready index found hIndex ?_ hFound
      rw [List.mem_cons, not_or]
      exact ⟨hSame, hNotSlot⟩
  · intro index hIndex
    obtain ⟨hBelow, found, hFound, hStill⟩ :=
      hGrows.waiting index (List.mem_cons_of_mem _ hIndex)
    refine ⟨hBelow, found, ?_, hStill⟩
    rw [hGet, if_neg, hFound]
    rintro rfl
    exact hSlot hIndex
  · intro code hFilled
    have hHere : code[slot]? =
        some (Instruction.ofOperands opcode (operands ++ [(after.size : Int)])) :=
      hFilled slot filled (by rw [hGet, if_pos rfl])
    constructor
    · intro index found hFound
      by_cases hSame : index = slot
      · subst hSame
        rw [hLine] at hFound
        rw [← Option.some.inj hFound]
        exact ⟨after.size, hHere⟩
      · exact hFilled index found (by rw [hGet, if_neg hSame, hFound])
    · exact ⟨_, hHere, (hWaiting after.size after.size (Nat.le_refl _)).2.2⟩

end Listing

end RegisterCompiler
