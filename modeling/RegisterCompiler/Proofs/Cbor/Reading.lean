/-
Reading what was written.

Bytes spell an item when a reader that is not nested too deeply takes exactly these bytes and
answers the item, whatever follows.  Heads, numbers, texts, arrays and maps are written so
that they spell their items; an array with too many members is refused wherever it stands.
-/

import Mathlib.Algebra.Group.Nat.Defs
import Mathlib.Data.List.Forall2
import RegisterCompiler.Cbor
import RegisterCompiler.Proofs.Text.Utf8

set_option autoImplicit false

namespace RegisterCompiler
namespace Cbor

open Text (Bytes)

/-! ### Heads -/

@[simp]
theorem length_bigEndian (width value : Nat) : (bigEndian width value).length = width := by
  induction width generalizing value with
  | zero => rfl
  | succ width inductionHypothesis =>
      rw [bigEndian, List.length_append, inductionHypothesis]
      rfl

private theorem ofBigEndian_append (bytes : Bytes) (byte : UInt8) :
    ofBigEndian (bytes ++ [byte]) = ofBigEndian bytes * 256 + byte.toNat := by
  rw [ofBigEndian, List.foldl_append]
  rfl

private theorem ofBigEndian_bigEndian {width value : Nat} (hValue : value < 256 ^ width) :
    ofBigEndian (bigEndian width value) = value := by
  induction width generalizing value with
  | zero =>
      rw [Nat.lt_one_iff.mp hValue]
      rfl
  | succ width inductionHypothesis =>
      have hFront : value / 256 < 256 ^ width := Nat.div_lt_of_lt_mul (by rwa [Nat.mul_comm])
      rw [bigEndian, ofBigEndian_append, inductionHypothesis hFront,
        Text.toNat_toUInt8 (Nat.mod_lt _ (by decide))]
      omega

/-- A lead byte with its argument in the bytes behind it. -/
theorem readHead_long {major info : Nat} (hMajor : major < 7) (hLong : 24 ≤ info) (hInfo : info < 28)
    {argument : Nat} (hArgument : argument < 256 ^ 2 ^ (info - 24)) (rest : Bytes) :
    readHead ((major * 32 + info).toUInt8 :: (bigEndian (2 ^ (info - 24)) argument ++ rest)) =
      some (⟨major, info, argument⟩, rest) := by
  have hByte : (major * 32 + info).toUInt8.toNat = major * 32 + info :=
    Text.toNat_toUInt8 (by omega)
  have hMajorOf : (major * 32 + info) / 32 = major := by omega
  have hInfoOf : (major * 32 + info) % 32 = info := by omega
  have hWidth : (bigEndian (2 ^ (info - 24)) argument).length = 2 ^ (info - 24) :=
    length_bigEndian _ _
  simp only [readHead, hByte, hMajorOf, hInfoOf, Nat.not_lt.mpr hLong, if_false, hInfo, if_true,
    Nat.pow_eq, List.take_left' hWidth, List.drop_left' hWidth, hWidth, Nat.lt_irrefl,
    ofBigEndian_bigEndian hArgument]
  rw [if_neg (by omega)]

private theorem readHead_encodeHead {major argument : Nat} (hMajor : major < 7)
    (hArgument : argument < UInt64.size) (rest : Bytes) :
    ∃ info, info ≠ openLength ∧
      readHead (encodeHead major argument ++ rest) = some (⟨major, info, argument⟩, rest) := by
  have hSize : UInt64.size = 18446744073709551616 := rfl
  unfold encodeHead
  dsimp only
  split
  · have hByte : (major * 32 + argument).toUInt8.toNat = major * 32 + argument :=
      Text.toNat_toUInt8 (by omega)
    refine ⟨argument, by unfold openLength; omega, ?_⟩
    simp only [List.cons_append, List.nil_append, readHead, hByte]
    rw [show (major * 32 + argument) % 32 = argument by omega, if_pos (by omega),
      show (major * 32 + argument) / 32 = major by omega]
  split
  · exact ⟨24, by decide, readHead_long hMajor (by decide) (by decide) (by omega) rest⟩
  split
  · exact ⟨25, by decide, readHead_long hMajor (by decide) (by decide) (by omega) rest⟩
  split
  · exact ⟨26, by decide, readHead_long hMajor (by decide) (by decide) (by omega) rest⟩
  · exact ⟨27, by decide, readHead_long hMajor (by decide) (by decide) (by omega) rest⟩

private theorem encodeHead_ne_nil (major argument : Nat) : encodeHead major argument ≠ [] := by
  unfold encodeHead
  dsimp only
  split
  · exact List.cons_ne_nil _ _
  split
  · exact List.cons_ne_nil _ _
  split
  · exact List.cons_ne_nil _ _
  split
  · exact List.cons_ne_nil _ _
  · exact List.cons_ne_nil _ _

/-! ### Items -/

/-- Bytes that are read as an item wherever `levels` more levels of nesting are allowed.  Two
calls for each byte are enough. -/
structure Spells (levels : Nat) (bytes : Bytes) (item : Item) : Prop where
  nonempty : bytes ≠ []
  reads : ∀ fuel depth rest, 2 * bytes.length ≤ fuel → depth + levels ≤ depthLimit →
    readItem fuel depth (bytes ++ rest) = some (item, rest)

def Refused (bytes : Bytes) : Prop :=
  ∀ fuel depth rest, readItem fuel depth (bytes ++ rest) = none

theorem Spells.mono {levels more : Nat} {bytes : Bytes} {item : Item}
    (hSpells : Spells levels bytes item) (hMore : levels ≤ more) : Spells more bytes item where
  nonempty := hSpells.nonempty
  reads := fun fuel depth rest hFuel hDepth => hSpells.reads fuel depth rest hFuel (by omega)

/-- An item that consists of a head and, behind it, a content. -/
theorem Spells.ofHead {levels major argument : Nat} (hMajor : major < 7)
    (hArgument : argument < UInt64.size) {content : Bytes} {item : Item}
    (hReads : ∀ info, info ≠ openLength → ∀ fuel depth rest, 2 * content.length + 1 ≤ fuel →
      depth + levels ≤ depthLimit →
      (∀ bytes, readHead bytes = some (⟨major, info, argument⟩, content ++ rest) →
        readItem (fuel + 1) depth bytes = some (item, rest))) :
    Spells levels (encodeHead major argument ++ content) item where
  nonempty := List.append_ne_nil_of_left_ne_nil (encodeHead_ne_nil major argument) content
  reads := by
    intro fuel depth rest hFuel hDepth
    have hHead := List.length_pos_iff.mpr (encodeHead_ne_nil major argument)
    rw [List.length_append] at hFuel
    cases fuel with
    | zero => omega
    | succ fuel =>
        rw [List.append_assoc]
        obtain ⟨info, hInfo, hRead⟩ := readHead_encodeHead hMajor hArgument (content ++ rest)
        exact hReads info hInfo fuel depth rest (by omega) hDepth _ hRead

theorem spells_unsigned {value : Nat} (hValue : value < UInt64.size) :
    Spells 0 (encodeHead 0 value) (.unsigned value) := by
  rw [← List.append_nil (encodeHead 0 value)]
  refine .ofHead (by decide) hValue ?_
  intro info _ fuel depth rest _ _ bytes hHead
  rw [readItem, hHead]
  rfl

def Item.ofInt : Int → Item
  | .ofNat value => .unsigned value
  | .negSucc value => .negative value

theorem spells_int {value : Int} (hLow : -9223372036854775808 ≤ value)
    (hHigh : value ≤ 9223372036854775807) : Spells 0 (encodeInt value) (.ofInt value) := by
  have hSize : UInt64.size = 18446744073709551616 := rfl
  cases value with
  | ofNat value =>
      rw [Int.ofNat_eq_natCast] at hHigh
      exact spells_unsigned (by omega)
  | negSucc value =>
      rw [encodeInt, ← List.append_nil (encodeHead 1 value)]
      refine .ofHead (by decide) (by omega) ?_
      intro info _ fuel depth rest _ _ bytes hHead
      rw [readItem, hHead]
      rfl

private theorem readBytes_append (content rest : Bytes) :
    readBytes content.length (content ++ rest) = some (content, rest) := by
  simp [readBytes]

theorem spells_text {text : Bytes} (hLength : text.length < UInt64.size) :
    Spells 0 (encodeText text) (.text [text]) := by
  refine .ofHead (by decide) hLength ?_
  intro info hInfo fuel depth rest _ _ bytes hHead
  rw [readItem, hHead]
  simp only [hInfo, if_false, readBytes_append, Option.map_some]

theorem spells_null : Spells 0 encodeNull .null where
  nonempty := List.cons_ne_nil _ _
  reads := by
    intro fuel depth rest hFuel _
    have hFuel : 2 ≤ fuel := hFuel
    cases fuel with
    | zero => omega
    | succ fuel =>
        rw [readItem]
        rfl

/-! ### Arrays and maps -/

/-- Several items in a row. -/
theorem readItems_of_spells {levels : Nat} {written : List Bytes} {items : List Item}
    (hSpells : List.Forall₂ (Spells levels) written items) {fuel depth : Nat} (rest : Bytes)
    (hFuel : 2 * written.flatten.length + 1 ≤ fuel) (hDepth : depth + levels ≤ depthLimit) :
    readItems fuel depth items.length (written.flatten ++ rest) = some (items, rest) := by
  induction hSpells generalizing fuel with
  | nil =>
      cases fuel with
      | zero => omega
      | succ fuel => rw [List.length_nil, readItems, List.flatten_nil, List.nil_append]
  | @cons bytes item written items hItem hItems inductionHypothesis =>
      have hSome := List.length_pos_iff.mpr hItem.nonempty
      rw [List.flatten_cons, List.length_append] at hFuel
      cases fuel with
      | zero => omega
      | succ fuel =>
          rw [List.flatten_cons, List.append_assoc, List.length_cons, readItems,
            hItem.reads fuel depth _ (by omega) hDepth]
          simp only [inductionHypothesis (by omega : 2 * written.flatten.length + 1 ≤ fuel),
            Option.map_some]

/-- Items in a row, one of which is refused. -/
theorem readItems_of_refused {levels : Nat} {written : List Bytes} {items : List Item}
    (hSpells : List.Forall₂ (Spells levels) written items) {refused : Bytes}
    (hRefused : Refused refused) {fuel depth count : Nat} (rest : Bytes)
    (hFuel : 2 * written.flatten.length + 1 ≤ fuel) (hDepth : depth + levels ≤ depthLimit)
    (hCount : items.length < count) :
    readItems fuel depth count (written.flatten ++ (refused ++ rest)) = none := by
  induction hSpells generalizing fuel count with
  | nil =>
      cases fuel with
      | zero => omega
      | succ fuel =>
          cases count with
          | zero => contradiction
          | succ count => rw [readItems, List.flatten_nil, List.nil_append, hRefused]
  | @cons bytes item written items hItem hItems inductionHypothesis =>
      have hSome := List.length_pos_iff.mpr hItem.nonempty
      rw [List.flatten_cons, List.length_append] at hFuel
      cases fuel with
      | zero => omega
      | succ fuel =>
          cases count with
          | zero => contradiction
          | succ count =>
              rw [List.flatten_cons, List.append_assoc, readItems,
                hItem.reads fuel depth _ (by omega) hDepth]
              simp only [inductionHypothesis (by omega : 2 * written.flatten.length + 1 ≤ fuel)
                (Nat.lt_of_succ_lt_succ hCount), Option.map_none]

theorem spells_array {levels : Nat} {written : List Bytes} {items : List Item}
    (hSpells : List.Forall₂ (Spells levels) written items) (hMembers : items.length ≤ memberLimit) :
    Spells (levels + 1) (encodeArray written) (.array items) := by
  have hSize : UInt64.size = 18446744073709551616 := rfl
  have hLimit : memberLimit = 131072 := rfl
  unfold encodeArray
  rw [hSpells.length_eq]
  refine .ofHead (by decide) (by omega) ?_
  intro info hInfo fuel depth rest hFuel hDepth bytes hHead
  rw [readItem, hHead]
  simp only [hInfo, if_false, Nat.not_lt.mpr hMembers,
    Nat.not_le.mpr (by omega : depth < depthLimit)]
  rw [readItems_of_spells hSpells rest hFuel (by omega), Option.map_some]

theorem refused_array {written : List Bytes} (hMembers : memberLimit < written.length)
    (hLength : written.length < UInt64.size) : Refused (encodeArray written) := by
  intro fuel depth rest
  cases fuel with
  | zero => rw [readItem]
  | succ fuel =>
      obtain ⟨info, hInfo, hHead⟩ :=
        readHead_encodeHead (by decide : 4 < 7) hLength (written.flatten ++ rest)
      rw [encodeArray, List.append_assoc, readItem, hHead]
      simp only [hInfo, if_false, hMembers, if_true, ite_self]

def entryItems (entries : List (Nat × Item)) : List Item :=
  entries.flatMap fun entry => [.unsigned entry.1, entry.2]

def entryBytes (entries : List (Nat × Bytes)) : List Bytes :=
  entries.flatMap fun entry => [encodeHead 0 entry.1, entry.2]

private theorem length_entryItems (entries : List (Nat × Item)) :
    (entryItems entries).length = 2 * entries.length := by
  induction entries with
  | nil => rfl
  | cons entry entries inductionHypothesis =>
      rw [entryItems, List.flatMap_cons, List.length_append, ← entryItems, inductionHypothesis,
        List.length_cons, List.length_cons, List.length_cons, List.length_nil]
      omega

private theorem pairs_entryItems (entries : List (Nat × Item)) :
    pairs (entryItems entries) = some (entries.map fun entry => (.unsigned entry.1, entry.2)) := by
  induction entries with
  | nil => rfl
  | cons entry entries inductionHypothesis =>
      rw [entryItems, List.flatMap_cons, List.cons_append, List.cons_append, List.nil_append, pairs,
        ← entryItems, inductionHypothesis, Option.map_some, List.map_cons]

private theorem flatten_entryBytes (entries : List (Nat × Bytes)) :
    (entryBytes entries).flatten =
      entries.flatMap fun (key, value) => encodeHead 0 key ++ value := by
  induction entries with
  | nil => rfl
  | cons entry entries inductionHypothesis =>
      rw [entryBytes, List.flatMap_cons, List.flatten_append, ← entryBytes, inductionHypothesis,
        List.flatMap_cons]
      simp

/-- A written member and what it is read as, under a number. -/
structure SpellsEntry (levels : Nat) (written : Nat × Bytes) (entry : Nat × Item) : Prop where
  key : entry.1 = written.1
  small : written.1 < UInt64.size
  value : Spells levels written.2 entry.2

private theorem forall₂_entries {levels : Nat} {written : List (Nat × Bytes)}
    {entries : List (Nat × Item)} (hSpells : List.Forall₂ (SpellsEntry levels) written entries) :
    List.Forall₂ (Spells levels) (entryBytes written) (entryItems entries) := by
  induction hSpells with
  | nil => exact .nil
  | @cons bytes entry written entries hEntry _ inductionHypothesis =>
      refine .cons ?_ (.cons hEntry.value inductionHypothesis)
      rw [hEntry.key]
      exact (spells_unsigned hEntry.small).mono (Nat.zero_le _)

theorem spells_map {levels : Nat} {written : List (Nat × Bytes)} {entries : List (Nat × Item)}
    (hSpells : List.Forall₂ (SpellsEntry levels) written entries)
    (hMembers : entries.length ≤ memberLimit) :
    Spells (levels + 1) (encodeMap written)
      (.map (entries.map fun entry => (.unsigned entry.1, entry.2))) := by
  have hSize : UInt64.size = 18446744073709551616 := rfl
  have hLimit : memberLimit = 131072 := rfl
  unfold encodeMap
  rw [hSpells.length_eq, ← flatten_entryBytes]
  refine .ofHead (by decide) (by omega) ?_
  intro info hInfo fuel depth rest hFuel hDepth bytes hHead
  rw [readItem, hHead]
  simp only [hInfo, if_false, Nat.not_lt.mpr hMembers,
    Nat.not_le.mpr (by omega : depth < depthLimit), ← length_entryItems]
  rw [readItems_of_spells (forall₂_entries hSpells) rest hFuel (by omega), Option.bind_some,
    pairs_entryItems, Option.map_some]

theorem readItem_of_refused {levels : Nat} {written : List (Nat × Bytes)}
    {entries : List (Nat × Item)} (hSpells : List.Forall₂ (SpellsEntry levels) written entries)
    {key : Nat} (hKey : key < UInt64.size) {refused : Bytes} (hRefused : Refused refused)
    (later : List (Nat × Bytes))
    (hMembers : (written ++ (key, refused) :: later).length ≤ memberLimit) {fuel : Nat}
    (hFuel : 2 * (encodeMap (written ++ (key, refused) :: later)).length ≤ fuel)
    {depth : Nat} (hDepth : depth + (levels + 1) ≤ depthLimit) :
    readItem fuel depth (encodeMap (written ++ (key, refused) :: later)) = none := by
  have hKeySpells : Spells levels (encodeHead 0 key) (.unsigned key) :=
    (spells_unsigned hKey).mono (Nat.zero_le _)
  have hFront : List.Forall₂ (Spells levels) (entryBytes written ++ [encodeHead 0 key])
      (entryItems entries ++ [.unsigned key]) :=
    List.rel_append (forall₂_entries hSpells) (.cons hKeySpells .nil)
  have hContent : (entryBytes (written ++ (key, refused) :: later)).flatten =
      (entryBytes written ++ [encodeHead 0 key]).flatten ++
        (refused ++ (entryBytes later).flatten) := by
    simp [entryBytes]
  have hCount : (entryItems entries ++ [Item.unsigned key]).length <
      2 * (written ++ (key, refused) :: later).length := by
    rw [List.length_append, length_entryItems, ← hSpells.length_eq, List.length_append,
      List.length_cons, List.length_cons, List.length_nil]
    omega
  unfold encodeMap at hFuel ⊢
  rw [← flatten_entryBytes, hContent] at hFuel ⊢
  generalize (written ++ (key, refused) :: later).length = count at hMembers hCount hFuel ⊢
  obtain ⟨info, hInfo, hHead⟩ := readHead_encodeHead (by decide : 5 < 7)
    (Nat.lt_of_le_of_lt hMembers (by decide)) ((entryBytes written ++ [encodeHead 0 key]).flatten ++
        (refused ++ (entryBytes later).flatten))
  have hSome := List.length_pos_iff.mpr (encodeHead_ne_nil 5 count)
  simp only [List.length_append] at hFuel
  cases fuel with
  | zero => omega
  | succ fuel =>
      rw [readItem, hHead]
      simp only [hInfo, if_false, Nat.not_lt.mpr hMembers,
        Nat.not_le.mpr (by omega : depth < depthLimit)]
      rw [readItems_of_refused hFront hRefused _ (by omega) (by omega) hCount, Option.bind_none]

end Cbor
end RegisterCompiler
