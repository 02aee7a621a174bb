/-
What look-ups in a map find.

A key finds the value that was set for it last.  A stretch of keys without entries
has no values.  Maps are equal if every key finds the same.
-/

import RegisterCompiler.Layout
import RegisterCompiler.OrderedMap

set_option autoImplicit false

namespace RegisterCompiler
namespace OrderedMap

@[simp]
theorem get?_empty {κ ν : Type} [Ord κ] (key : κ) : (empty : OrderedMap κ ν).get? key = none :=
  rfl

variable {κ ν : Type} [Ord κ] [Std.LawfulEqOrd κ] [DecidableEq κ]

private theorem compare_beq_eq (left right : κ) :
    (compare left right == .eq) = decide (left = right) := by
  rw [Bool.eq_iff_iff, beq_iff_eq, decide_eq_true_iff, Std.compare_eq_iff_eq]

private theorem find?_cons_entry (key other : κ) (value : ν) (entries : List (κ × ν)) :
    ((key, value) :: entries).find? (fun entry => compare entry.1 other == .eq) =
      if other = key then some (key, value)
      else entries.find? (fun entry => compare entry.1 other == .eq) := by
  rw [List.find?_cons, compare_beq_eq]
  by_cases hSame : other = key
  · simp [hSame]
  · simp [hSame, Ne.symm hSame]

private theorem find?_placeEntry (key other : κ) (value : ν) (entries : List (κ × ν)) :
    (placeEntry key value entries).find? (fun entry => compare entry.1 other == .eq) =
      if other = key then some (key, value)
      else entries.find? (fun entry => compare entry.1 other == .eq) := by
  induction entries with
  | nil => exact find?_cons_entry key other value []
  | cons entry rest inductionHypothesis =>
      obtain ⟨held, old⟩ := entry
      rw [placeEntry]
      cases hOrder : compare key held with
      | lt => exact find?_cons_entry key other value ((held, old) :: rest)
      | eq =>
          have hKey : key = held := Std.compare_eq_iff_eq.mp hOrder
          rw [find?_cons_entry, find?_cons_entry, ← hKey]
          by_cases hSame : other = key
          · rw [if_pos hSame, if_pos hSame]
          · rw [if_neg hSame, if_neg hSame, if_neg hSame]
      | gt =>
          have hKey : held ≠ key := by
            intro hSame
            rw [hSame, Std.compare_eq_iff_eq.mpr rfl] at hOrder
            contradiction
          rw [find?_cons_entry, find?_cons_entry, inductionHypothesis]
          by_cases hHeld : other = held
          · rw [if_pos hHeld, if_pos hHeld, if_neg (hHeld ▸ hKey)]
          · rw [if_neg hHeld, if_neg hHeld]

theorem get?_set [Std.TransOrd κ] (map : OrderedMap κ ν) (key other : κ) (value : ν) :
    (map.set key value).get? other = if other = key then some value else map.get? other := by
  simp only [get?, set, find?_placeEntry]
  split <;> rfl

theorem get?_erase (map : OrderedMap κ ν) (key other : κ) :
    (map.erase key).get? other = if other = key then none else map.get? other := by
  obtain ⟨entries, hAscending⟩ := map
  simp only [get?, erase, filter]
  clear hAscending
  induction entries with
  | nil => simp
  | cons entry entries inductionHypothesis =>
      simp only [List.filter_cons, bne, compare_beq_eq] at inductionHypothesis ⊢
      by_cases hKey : entry.1 = key
      · simp only [hKey, decide_true, Bool.not_true, Bool.false_eq_true, if_false,
          inductionHypothesis, List.find?_cons]
        by_cases hSame : other = key
        · simp [hSame]
        · simp [hSame, Ne.symm hSame]
      · simp only [hKey, decide_false, Bool.not_false, if_true, List.find?_cons]
        by_cases hSame : entry.1 = other
        · have hOther : other ≠ key := fun hOther => hKey (hSame.trans hOther)
          simp [hSame, hOther]
        · simp only [hSame, decide_false]
          exact inductionHypothesis

theorem mem_of_get? {map : OrderedMap κ ν} {key : κ} {value : ν}
    (hFound : map.get? key = some value) : (key, value) ∈ map.entries := by
  obtain ⟨entry, hEntry, hValue⟩ := Option.map_eq_some_iff.mp hFound
  have hKey : entry.1 = key := by
    have hHolds := List.find?_some hEntry
    rw [compare_beq_eq] at hHolds
    exact of_decide_eq_true hHolds
  rw [← hKey, ← hValue]
  exact List.mem_of_find?_eq_some hEntry

/-! ### Order -/

theorem mem_entries_iff {map : OrderedMap κ ν} {key : κ} {value : ν} :
    (key, value) ∈ map.entries ↔ map.get? key = some value := by
  refine ⟨?_, mem_of_get?⟩
  obtain ⟨entries, hAscending⟩ := map
  simp only [get?]
  induction entries with
  | nil => simp
  | cons first rest inductionHypothesis =>
      obtain ⟨hFirst, hRest⟩ := List.pairwise_cons.mp hAscending
      intro hMem
      rw [List.find?_cons, compare_beq_eq]
      rcases List.mem_cons.mp hMem with rfl | hLater
      · simp
      · have hOther : first.1 ≠ key := by
          intro hSame
          have hLess := hFirst _ hLater
          rw [hSame, Std.compare_eq_iff_eq.mpr rfl] at hLess
          contradiction
        simp only [hOther, decide_false]
        exact inductionHypothesis hRest hLater

omit [DecidableEq κ] in
private theorem compare_ne_lt (entry : κ × ν) : compare entry.1 entry.1 ≠ .lt := by
  rw [Std.compare_eq_iff_eq.mpr rfl]
  exact Ordering.noConfusion

omit [DecidableEq κ] in
private theorem nodup_entries (map : OrderedMap κ ν) : map.entries.Nodup := by
  refine List.Pairwise.imp ?_ map.ascending
  rintro entry other hOrder rfl
  exact compare_ne_lt entry hOrder

theorem ext_get? [Std.TransOrd κ] {first second : OrderedMap κ ν}
    (hSame : ∀ key, first.get? key = second.get? key) : first = second := by
  have hPerm : first.entries.Perm second.entries := by
    rw [List.perm_ext_iff_of_nodup first.nodup_entries second.nodup_entries]
    rintro ⟨key, value⟩
    rw [mem_entries_iff, mem_entries_iff, hSame]
  have hEntries : first.entries = second.entries := by
    refine hPerm.eq_of_pairwise ?_ first.ascending second.ascending
    intro entry other _ _ hForth hBack
    exact absurd (Std.TransCmp.lt_trans hForth hBack) (compare_ne_lt entry)
  obtain ⟨entries, hAscending⟩ := first
  cases hEntries
  rfl

/-! ### Stretches of addresses -/

private theorem compare_ne_gt_iff (left right : Address) :
    (compare left right != .gt) = true ↔ left ≤ right := by
  rw [bne_iff_ne, ne_eq, ← Ordering.isLE_iff_ne_gt]
  exact Std.LawfulOrderOrd.isLE_compare left right

theorem mem_range_iff (map : OrderedMap Address ν) (low high : Address)
    (entry : Address × ν) :
    entry ∈ map.range low high ↔ entry ∈ map.entries ∧ low ≤ entry.1 ∧ entry.1 ≤ high := by
  rw [range, List.mem_filter, Bool.and_eq_true, compare_ne_gt_iff, compare_ne_gt_iff]

theorem get?_of_range_eq_nil {map : OrderedMap Address ν} {low high address : Address}
    (hEmpty : map.range low high = []) (hLow : low ≤ address) (hHigh : address ≤ high) :
    map.get? address = none := by
  cases hFound : map.get? address with
  | none => rfl
  | some value =>
      have hMem := (mem_range_iff map low high (address, value)).mpr
        ⟨mem_of_get? hFound, hLow, hHigh⟩
      rw [hEmpty] at hMem
      exact absurd hMem List.not_mem_nil

theorem range_eq_nil {map : OrderedMap Address ν} {low high : Address}
    (hNone : ∀ address, low ≤ address → address ≤ high → map.get? address = none) :
    map.range low high = [] := by
  rw [List.eq_nil_iff_forall_not_mem]
  intro entry hEntry
  obtain ⟨hMem, hLow, hHigh⟩ := (mem_range_iff map low high entry).mp hEntry
  have hAbsent := hNone entry.1 hLow hHigh
  simp only [get?, Option.map_eq_none_iff, List.find?_eq_none] at hAbsent
  exact hAbsent entry hMem (beq_iff_eq.mpr (Std.compare_eq_iff_eq.mpr rfl))

end OrderedMap
end RegisterCompiler
