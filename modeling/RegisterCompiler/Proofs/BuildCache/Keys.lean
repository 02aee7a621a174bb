/-
The keys of builds.

The text whose digest is a key lists the settings as fields, each ended by a mark that
does not occur in it, and then the source.  Whatever the source holds, it starts behind
the last mark, so that the text determines the source and every setting that shapes the
code.
-/

import RegisterCompiler.BuildCache
import RegisterCompiler.Proofs.Instruction.Text
import RegisterCompiler.Proofs.Text.Glyphs
import Std.Data.String.ToInt
import Mathlib.Algebra.Ring.Nat

set_option autoImplicit false

namespace RegisterCompiler
namespace Text

/-! ### Delimited fields -/

theorem encode_append (first second : String) :
    encode (first ++ second) = encode first ++ encode second := by
  simp [encode]

private theorem eq_of_toUInt8_eq {left right : Char} (hLeft : left.toNat < 128)
    (hRight : right.toNat < 128) (hSame : left.toNat.toUInt8 = right.toNat.toUInt8) :
    left = right := by
  have hNat := congrArg UInt8.toNat hSame
  simp only [UInt8.toNat_ofNat', Nat.toUInt8] at hNat
  rw [Nat.mod_eq_of_lt (by omega), Nat.mod_eq_of_lt (by omega)] at hNat
  exact Char.toNat_inj.mp hNat

/-- A text and the mark behind it, both plain characters; the mark is not in the text. -/
structure Delimited (field : String × Char) : Prop where
  mark : field.2.toNat < 128
  plain : ∀ char ∈ field.1.toList, char.toNat < 128
  apart : field.2 ∉ field.1.toList

-- The characters of the text are listed, so that no search among all characters is made.
instance (field : String × Char) : Decidable (Delimited field) :=
  decidable_of_iff (field.2.toNat < 128 ∧
      field.1.toList.all (fun char => decide (char.toNat < 128)) = true ∧
      field.2 ∉ field.1.toList)
    ⟨fun hAll => ⟨hAll.1, by simpa using hAll.2.1, hAll.2.2⟩, fun hField =>
      ⟨hField.mark, by simpa using hField.plain, hField.apart⟩⟩

/-- Fields, each with its mark behind it, and more bytes behind them all. -/
def delimit (fields : List (String × Char)) (rest : Bytes) : Bytes :=
  fields.foldr (fun field later => encode field.1 ++ (encodeChar field.2 ++ later)) rest

private theorem eq_of_encode_eq {left right : String}
    (hLeft : ∀ char ∈ left.toList, char.toNat < 128)
    (hRight : ∀ char ∈ right.toList, char.toNat < 128) (hSame : encode left = encode right) :
    left = right := by
  rw [encode_of_plain hLeft, encode_of_plain hRight] at hSame
  refine String.toList_injective (List.ext_getElem ?_ fun index hIndex hOther => ?_)
  · simpa using congrArg List.length hSame
  · refine eq_of_toUInt8_eq (hLeft _ (List.getElem_mem _)) (hRight _ (List.getElem_mem _)) ?_
    have hAt := congrArg (·[index]?) hSame
    simpa [hIndex, hOther] using hAt

private theorem Delimited.not_mem_encode {field : String × Char} (hField : Delimited field) :
    field.2.toNat.toUInt8 ∉ encode field.1 := by
  rw [encode_of_plain hField.plain, List.mem_map]
  rintro ⟨char, hChar, hSame⟩
  exact hField.apart (eq_of_toUInt8_eq (hField.plain char hChar) hField.mark hSame ▸ hChar)

private theorem eq_of_append_cons_eq {α : Type} {mark : α} {left right : List α}
    (hLeft : mark ∉ left) (hRight : mark ∉ right) {rest later : List α}
    (hSame : left ++ mark :: rest = right ++ mark :: later) : left = right ∧ rest = later := by
  induction left generalizing right with
  | nil =>
      cases right with
      | nil => exact ⟨rfl, (List.cons.inj hSame).2⟩
      | cons item right =>
          exact absurd ((List.cons.inj hSame).1 ▸ List.mem_cons_self) hRight
  | cons item left inductionHypothesis =>
      cases right with
      | nil => exact absurd ((List.cons.inj hSame).1 ▸ List.mem_cons_self) hLeft
      | cons other right =>
          obtain ⟨rfl, hTails⟩ := List.cons.inj hSame
          obtain ⟨rfl, hRest⟩ := inductionHypothesis (List.not_mem_of_not_mem_cons hLeft)
            (List.not_mem_of_not_mem_cons hRight) hTails
          exact ⟨rfl, hRest⟩

/-- Fields with the same marks are determined by the bytes that list them, and so is what
follows. -/
theorem delimit_injective {left right : List (String × Char)}
    (hMarks : left.map Prod.snd = right.map Prod.snd) (hLeft : ∀ field ∈ left, Delimited field)
    (hRight : ∀ field ∈ right, Delimited field) {rest later : Bytes}
    (hSame : delimit left rest = delimit right later) : left = right ∧ rest = later := by
  induction left generalizing right with
  | nil =>
      obtain rfl := List.map_eq_nil_iff.mp hMarks.symm
      exact ⟨rfl, hSame⟩
  | cons field left inductionHypothesis =>
      obtain ⟨text, mark⟩ := field
      obtain ⟨⟨otherText, otherMark⟩, right, rfl, rfl, hOthers⟩ :=
        List.map_eq_cons_iff.mp hMarks.symm
      have hField := hLeft _ List.mem_cons_self
      have hOther := hRight _ List.mem_cons_self
      simp only [delimit, List.foldr_cons, encodeChar_of_lt hField.mark,
        List.singleton_append] at hSame
      obtain ⟨hTexts, hTails⟩ :=
        eq_of_append_cons_eq hField.not_mem_encode hOther.not_mem_encode hSame
      obtain ⟨rfl, rfl⟩ := inductionHypothesis hOthers.symm
        (fun found hFound => hLeft found (List.mem_cons_of_mem _ hFound))
        (fun found hFound => hRight found (List.mem_cons_of_mem _ hFound)) hTails
      obtain rfl : text = otherText := eq_of_encode_eq hField.plain hOther.plain hTexts
      exact ⟨rfl, rfl⟩

/-! ### Numbers as fields -/

theorem bounds_of_isDigit {char : Char} (hDigit : isDigit char = true) :
    48 ≤ char.toNat ∧ char.toNat ≤ 57 := by
  simp only [isDigit, Bool.and_eq_true, decide_eq_true_eq, Char.le_def,
    UInt32.le_iff_toNat_le] at hDigit
  exact hDigit

private theorem bounds_of_mem_toString {number : Nat} {char : Char}
    (hChar : char ∈ (toString number).toList) : 48 ≤ char.toNat ∧ char.toNat ≤ 57 := by
  rw [show toString number = number.repr from rfl, Nat.toList_repr] at hChar
  exact bounds_of_isDigit (isDigit_of_mem_toDigits hChar)

private theorem bounds_of_mem_toString_int {number : Int} {char : Char}
    (hChar : char ∈ (toString number).toList) :
    char = '-' ∨ 48 ≤ char.toNat ∧ char.toNat ≤ 57 := by
  cases number with
  | ofNat number => exact .inr (bounds_of_mem_toString hChar)
  | negSucc number =>
      rw [show toString (Int.negSucc number) = "-" ++ toString (number + 1) from rfl,
        String.toList_append] at hChar
      rcases List.mem_append.mp hChar with hSign | hDigit
      · exact .inl (List.mem_singleton.mp hSign)
      · exact .inr (bounds_of_mem_toString hDigit)

private theorem Delimited.append {letter text : String} {mark : Char}
    (hLetter : Delimited (letter, mark))
    (hText : ∀ char ∈ text.toList, char.toNat < 128 ∧ char ≠ mark) :
    Delimited (letter ++ text, mark) where
  mark := hLetter.mark
  plain := by
    intro char hChar
    rw [String.toList_append] at hChar
    rcases List.mem_append.mp hChar with hFront | hBack
    · exact hLetter.plain char hFront
    · exact (hText char hBack).1
  apart := by
    intro hMark
    rw [String.toList_append] at hMark
    rcases List.mem_append.mp hMark with hFront | hBack
    · exact hLetter.apart hFront
    · exact (hText mark hBack).2 rfl

theorem Delimited.nat {letter : String} {mark : Char} (hLetter : Delimited (letter, mark))
    (hMark : mark.toNat < 48 ∨ 57 < mark.toNat) (number : Nat) :
    Delimited (letter ++ toString number, mark) := by
  refine hLetter.append fun char hChar => ?_
  have hBounds := bounds_of_mem_toString hChar
  refine ⟨by omega, ?_⟩
  rintro rfl
  omega

theorem Delimited.int {letter : String} (hLetter : Delimited (letter, '|')) (number : Int) :
    Delimited (letter ++ toString number, '|') := by
  refine hLetter.append fun char hChar => ?_
  rcases bounds_of_mem_toString_int hChar with rfl | hBounds
  · decide
  · refine ⟨by omega, ?_⟩
    rintro rfl
    exact absurd hBounds (by decide)

theorem Delimited.bool {letter : String} (hLetter : Delimited (letter, '|')) (flag : Bool) :
    Delimited (letter ++ toString flag, '|') := by
  have hPlain : (toString flag).toList.all
      (fun char => decide (char.toNat < 128 ∧ char ≠ '|')) = true := by
    cases flag <;> decide
  exact hLetter.append (by simpa using hPlain)

end Text

/-! ### The text of a key -/

open Text (Bytes Delimited delimit)

namespace AddressRange

def keyFields (range : AddressRange) (letter : String) : List (String × Char) :=
  [(letter ++ toString range.first.toNat, '-'), ("" ++ toString range.last.toNat, '|')]

private theorem delimited_keyFields (range : AddressRange) {letter : String}
    (hLetter : Delimited (letter, '-')) :
    ∀ field ∈ range.keyFields letter, Delimited field := by
  simp only [keyFields, List.forall_mem_cons]
  exact ⟨hLetter.nat (by decide) _, Delimited.nat (by decide) (by decide) _,
    List.forall_mem_nil _⟩

private theorem eq_of_keyFields_eq {left right : AddressRange} {letter : String}
    (hSame : left.keyFields letter = right.keyFields letter) : left = right := by
  simp only [keyFields, List.cons.injEq, Prod.mk.injEq, String.append_right_inj, and_true] at hSame
  obtain ⟨hFirst, hLast⟩ := hSame
  cases left
  cases right
  simp only [mk.injEq]
  exact ⟨UInt64.toNat_inj.mp (Nat.repr_injective hFirst),
    UInt64.toNat_inj.mp (Nat.repr_injective hLast)⟩

end AddressRange

namespace BuildOptions

private theorem eq_of_toString_eq {left right : Bool} (hSame : toString left = toString right) :
    left = right := by
  revert left right
  decide

def keyFields (options : BuildOptions) (base : Int) : List (String × Char) :=
  [("v1", '|'), ("r" ++ toString options.generator.registers, '|'),
    ("o" ++ toString options.simplify, '|'), ("p" ++ toString options.generator.propagate, '|')] ++
  options.generator.layout.loop.keyFields "l" ++ options.generator.layout.scalars.keyFields "s" ++
  options.generator.layout.arrays.keyFields "a" ++ [("b" ++ toString base, '|')]

private theorem keyBytes_eq {options : BuildOptions} {base : Int}
    (hBase : options.generator.layout.oversizedBase = some base) (source : Bytes) :
    options.keyBytes source = delimit (options.keyFields base) source := by
  have hVersion : toString Image.currentVersion = "1" := rfl
  have hBar : Text.encodeChar '|' = Text.encode "|" := rfl
  have hDash : Text.encodeChar '-' = Text.encode "-" := rfl
  simp only [keyBytes, keyText, hBase, Option.map_some, Option.getD_some, keyFields,
    AddressRange.keyText, AddressRange.keyFields, delimit, List.foldr_append, List.foldr_cons,
    List.foldr_nil, Text.encode_append, List.append_assoc, hVersion, hBar, hDash,
    show Text.encode "" = [] from rfl, List.nil_append]
  rfl

private theorem delimited_keyFields (options : BuildOptions) (base : Int) :
    ∀ field ∈ options.keyFields base, Delimited field := by
  simp only [keyFields, List.forall_mem_append, List.forall_mem_cons]
  refine ⟨⟨⟨⟨⟨by decide, Delimited.int (by decide) _, Delimited.bool (by decide) _,
    Delimited.bool (by decide) _, List.forall_mem_nil _⟩, ?_⟩, ?_⟩, ?_⟩,
    Delimited.int (by decide) _, List.forall_mem_nil _⟩
  all_goals exact AddressRange.delimited_keyFields _ (by decide)

private theorem eq_of_keyFields_eq {left right : BuildOptions} {base other : Int}
    (hSame : left.keyFields base = right.keyFields other) :
    left.generator.registers = right.generator.registers ∧
      left.generator.propagate = right.generator.propagate ∧ left.simplify = right.simplify ∧
      left.generator.layout.loop = right.generator.layout.loop ∧
      left.generator.layout.scalars = right.generator.layout.scalars ∧
      left.generator.layout.arrays = right.generator.layout.arrays ∧ base = other := by
  unfold keyFields at hSame
  obtain ⟨hRanges, hBase⟩ := List.append_inj' hSame rfl
  obtain ⟨hRanges, hArrays⟩ := List.append_inj' hRanges rfl
  obtain ⟨hRanges, hScalars⟩ := List.append_inj' hRanges rfl
  obtain ⟨hFlags, hLoop⟩ := List.append_inj' hRanges rfl
  simp only [List.cons.injEq, Prod.mk.injEq, String.append_right_inj, and_true, true_and] at hFlags hBase
  obtain ⟨hRegisters, hSimplify, hPropagate⟩ := hFlags
  exact ⟨Int.repr_injective hRegisters, eq_of_toString_eq hPropagate, eq_of_toString_eq hSimplify,
    AddressRange.eq_of_keyFields_eq hLoop, AddressRange.eq_of_keyFields_eq hScalars,
    AddressRange.eq_of_keyFields_eq hArrays, Int.repr_injective hBase⟩

/-- The text that is digested determines the source and all settings that shape the code. -/
theorem eq_of_keyBytes_eq {left right : BuildOptions}
    (hLeft : left.generator.layout.oversizedBase.isSome = true)
    (hRight : right.generator.layout.oversizedBase.isSome = true) {source other : Bytes}
    (hSame : left.keyBytes source = right.keyBytes other) :
    source = other ∧ left.generator = right.generator ∧ left.simplify = right.simplify := by
  obtain ⟨base, hBase⟩ := Option.isSome_iff_exists.mp hLeft
  obtain ⟨otherBase, hOther⟩ := Option.isSome_iff_exists.mp hRight
  rw [keyBytes_eq hBase, keyBytes_eq hOther] at hSame
  have hMarks : (left.keyFields base).map Prod.snd = (right.keyFields otherBase).map Prod.snd := rfl
  obtain ⟨hFields, hSources⟩ := Text.delimit_injective hMarks (left.delimited_keyFields base)
    (right.delimited_keyFields otherBase) hSame
  obtain ⟨hRegisters, hPropagate, hSimplify, hLoop, hScalars, hArrays, rfl⟩ :=
    eq_of_keyFields_eq hFields
  refine ⟨hSources, ?_, hSimplify⟩
  obtain ⟨⟨registers, ⟨loop, scalars, arrays, oversizedBase⟩, propagate⟩, simplify, embeds⟩ := left
  obtain ⟨⟨registers', ⟨loop', scalars', arrays', oversizedBase'⟩, propagate'⟩, simplify',
    embeds'⟩ := right
  simp only at hRegisters hPropagate hLoop hScalars hArrays hBase hOther ⊢
  rw [hRegisters, hPropagate, hLoop, hScalars, hArrays, hBase, hOther]

end BuildOptions

/-! ### Digests as texts -/

namespace Digest

private theorem eq_of_places_eq {width left right : Nat} (hLeft : left < 256 ^ width)
    (hRight : right < 256 ^ width)
    (hPlaces : ∀ place, place < width → left / 256 ^ place % 256 = right / 256 ^ place % 256) :
    left = right := by
  induction width generalizing left right with
  | zero => rw [Nat.lt_one_iff.mp hLeft, Nat.lt_one_iff.mp hRight]
  | succ width inductionHypothesis =>
      rw [Nat.pow_succ] at hLeft hRight
      have hFront : left / 256 = right / 256 := by
        refine inductionHypothesis (Nat.div_lt_of_lt_mul (by omega))
          (Nat.div_lt_of_lt_mul (by omega)) fun place hPlace => ?_
        have hNext := hPlaces (place + 1) (by omega)
        rwa [Nat.pow_succ', ← Nat.div_div_eq_div_mul, ← Nat.div_div_eq_div_mul] at hNext
      have hLast := hPlaces 0 (by omega)
      rw [Nat.pow_zero, Nat.div_one, Nat.div_one] at hLast
      omega

private theorem eq_of_bytes_eq {left right : UInt64}
    (hSame : (List.range 8).map (fun step => (left >>> (8 * (7 - step)).toUInt64).toUInt8) =
      (List.range 8).map fun step => (right >>> (8 * (7 - step)).toUInt64).toUInt8) :
    left = right := by
  have hLeft : left.toNat < 256 ^ 8 := left.toNat_lt
  have hRight : right.toNat < 256 ^ 8 := right.toNat_lt
  refine UInt64.toNat_inj.mp (eq_of_places_eq hLeft hRight fun place hPlace => ?_)
  have hAt := congrArg UInt8.toNat
    (List.map_inj_left.mp hSame (7 - place) (List.mem_range.mpr (by omega)))
  have hShift : 8 * (7 - (7 - place)) = 8 * place := by omega
  have hSmall : 8 * place < 64 := by omega
  have hPower : 2 ^ (8 * place) = 256 ^ place := Nat.pow_mul 2 8 place
  rw [hShift] at hAt
  simpa [Nat.shiftRight_eq_div_pow, Nat.mod_eq_of_lt hSmall, hPower,
    Nat.mod_eq_of_lt (Nat.lt_trans hSmall (by decide : 64 < 2 ^ 64))] using hAt

theorem text_injective {left right : Digest} (hSame : left.text = right.text) : left = right := by
  have hBytes := congrArg Text.unhex? hSame
  simp only [text, Text.unhex?_hex, Option.some.injEq] at hBytes
  obtain ⟨hHigh, hLow⟩ := List.append_inj hBytes (by simp)
  cases left
  cases right
  rw [mk.injEq]
  exact ⟨eq_of_bytes_eq hLow, eq_of_bytes_eq hHigh⟩

end Digest

end RegisterCompiler
