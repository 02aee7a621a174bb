/-
Maps whose entries are listed by ascending key.

They stand for the trees of the package google/btree, as far as their results are
documented: an entry takes the place of one with the same key, a look-up finds the
entry of a key, and a walk visits the entries by ascending key.
-/

set_option autoImplicit false

namespace RegisterCompiler

/-- The keys ascend, so that no key occurs twice. -/
def Ascending {κ ν : Type} [Ord κ] (entries : List (κ × ν)) : Prop :=
  entries.Pairwise fun first second => compare first.1 second.1 = .lt

structure OrderedMap (κ ν : Type) [Ord κ] where
  entries : List (κ × ν)
  ascending : Ascending entries
deriving Repr, DecidableEq

namespace OrderedMap

variable {κ ν : Type} [Ord κ]

def empty : OrderedMap κ ν := ⟨[], .nil⟩

instance : Inhabited (OrderedMap κ ν) := ⟨empty⟩

def size (map : OrderedMap κ ν) : Nat :=
  map.entries.length

def keys (map : OrderedMap κ ν) : List κ :=
  map.entries.map Prod.fst

def get? (map : OrderedMap κ ν) (key : κ) : Option ν :=
  (map.entries.find? fun entry => compare entry.1 key == .eq).map Prod.snd

def contains (map : OrderedMap κ ν) (key : κ) : Bool :=
  (map.get? key).isSome

/-- Puts an entry in its place, over an entry with the same key. -/
def placeEntry (key : κ) (value : ν) : List (κ × ν) → List (κ × ν)
  | [] => [(key, value)]
  | entry :: rest =>
      match compare key entry.1 with
      | .lt => (key, value) :: entry :: rest
      | .eq => (key, value) :: rest
      | .gt => entry :: placeEntry key value rest

private theorem mem_placeEntry {key : κ} {value : ν} {entries : List (κ × ν)} {entry : κ × ν}
    (hMem : entry ∈ placeEntry key value entries) : entry = (key, value) ∨ entry ∈ entries := by
  induction entries with
  | nil => exact .inl (List.mem_singleton.mp hMem)
  | cons first rest inductionHypothesis =>
      rw [placeEntry] at hMem
      cases hOrder : compare key first.1 with
      | lt =>
          rw [hOrder] at hMem
          exact List.mem_cons.mp hMem
      | eq =>
          rw [hOrder] at hMem
          rcases List.mem_cons.mp hMem with hNew | hOld
          · exact .inl hNew
          · exact .inr (List.mem_cons_of_mem first hOld)
      | gt =>
          rw [hOrder] at hMem
          rcases List.mem_cons.mp hMem with hFirst | hLater
          · exact .inr (hFirst ▸ List.mem_cons_self)
          · exact (inductionHypothesis hLater).imp_right (List.mem_cons_of_mem first)

private theorem ascending_placeEntry [Std.TransOrd κ] (key : κ) (value : ν) {entries : List (κ × ν)}
    (hAscending : Ascending entries) : Ascending (placeEntry key value entries) := by
  induction entries with
  | nil => exact List.pairwise_singleton _ _
  | cons first rest inductionHypothesis =>
      obtain ⟨hFirst, hRest⟩ := List.pairwise_cons.mp hAscending
      rw [placeEntry]
      cases hOrder : compare key first.1 with
      | lt =>
          refine List.pairwise_cons.mpr ⟨?_, hAscending⟩
          intro entry hEntry
          rcases List.mem_cons.mp hEntry with rfl | hLater
          · exact hOrder
          · exact Std.TransCmp.lt_trans hOrder (hFirst entry hLater)
      | eq =>
          refine List.pairwise_cons.mpr ⟨?_, hRest⟩
          intro entry hEntry
          exact Std.TransCmp.lt_of_eq_of_lt hOrder (hFirst entry hEntry)
      | gt =>
          refine List.pairwise_cons.mpr ⟨?_, inductionHypothesis hRest⟩
          intro entry hEntry
          rcases mem_placeEntry hEntry with rfl | hLater
          · exact Std.OrientedCmp.lt_of_gt hOrder
          · exact hFirst entry hLater

section Setting

variable [Std.TransOrd κ]

def set (map : OrderedMap κ ν) (key : κ) (value : ν) : OrderedMap κ ν :=
  ⟨placeEntry key value map.entries, ascending_placeEntry key value map.ascending⟩

def insert? (map : OrderedMap κ ν) (key : κ) (value : ν) : Option (OrderedMap κ ν) :=
  if map.contains key then none else some (map.set key value)

def ofEntries (entries : List (κ × ν)) : OrderedMap κ ν :=
  entries.foldl (fun map entry => map.set entry.1 entry.2) empty

end Setting

def filter (map : OrderedMap κ ν) (test : κ × ν → Bool) : OrderedMap κ ν :=
  ⟨map.entries.filter test, List.Pairwise.filter test map.ascending⟩

def erase (map : OrderedMap κ ν) (key : κ) : OrderedMap κ ν :=
  map.filter fun entry => compare entry.1 key != .eq

/-- The entries with keys between two bounds, bounds included. -/
def range (map : OrderedMap κ ν) (low high : κ) : List (κ × ν) :=
  map.entries.filter fun entry => compare low entry.1 != .gt && compare entry.1 high != .gt

end OrderedMap

end RegisterCompiler
