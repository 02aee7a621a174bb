/-
The places that messages start with.

A message that is made of a line, or of a line and a column, and of a text of one line is taken
apart into just these.
-/

import RegisterCompiler.Editor.Diagnostic
import RegisterCompiler.Proofs.Instruction.Text

set_option autoImplicit false

namespace RegisterCompiler

def OneLine (text : String) : Prop :=
  '\n' ∉ text.toList

namespace OneLine

variable {first second : String}

instance (text : String) : Decidable (OneLine text) :=
  inferInstanceAs (Decidable (¬_))

theorem append (hFirst : OneLine first) (hSecond : OneLine second) : OneLine (first ++ second) := by
  rw [OneLine, String.toList_append, List.mem_append]
  exact fun hBoth => hBoth.elim hFirst hSecond

theorem nat (number : Nat) : OneLine (toString number) := by
  rw [OneLine, show toString number = number.repr from rfl, Nat.toList_repr]
  intro hNewline
  exact absurd (Text.isDigit_of_mem_toDigits hNewline) (by decide)

theorem int (number : Int) : OneLine (toString number) := by
  cases number with
  | ofNat number => exact nat number
  | negSucc number =>
      have hSign : OneLine "-" := by decide
      exact hSign.append (nat (number + 1))

end OneLine

namespace Editor

/-! ### Taking messages apart -/

theorem after?_append (opening : String) (rest : List Char) :
    after? opening (opening.toList ++ rest) = some rest := by
  rw [after?, if_pos (List.isPrefixOf_iff_prefix.mpr (List.prefix_append _ _)), List.drop_left]

private theorem leadingNumber?_append (number : Nat) {next : Char}
    (hNext : Text.isDigit next = false) (rest : List Char) :
    leadingNumber? ((toString number).toList ++ next :: rest) = some (number, next :: rest) := by
  rw [show toString number = number.repr from rfl, Nat.toList_repr]
  have hDigits : ∀ char ∈ Nat.toDigits 10 number, Text.isDigit char = true :=
    fun _ => Text.isDigit_of_mem_toDigits
  unfold leadingNumber?
  rw [List.takeWhile_append_of_pos hDigits, List.dropWhile_append_of_pos hDigits,
    List.takeWhile_cons_of_neg (Bool.not_eq_true _ ▸ hNext),
    List.dropWhile_cons_of_neg (Bool.not_eq_true _ ▸ hNext), List.append_nil]
  simp only [Text.natural?_toDigits, Option.map_some]

private theorem remainder?_append {text : String} (hText : OneLine text) :
    remainder? (": ".toList ++ text.toList) = some text := by
  rw [remainder?, after?_append, Option.bind_some, if_neg, String.ofList_toList]
  rw [List.contains_iff_mem]
  exact hText

theorem locate?_line (line : Nat) {text : String} (hText : OneLine text) :
    locate? s!"line {line}: {text}" = some (line, none, text) := by
  have hMessage : (s!"line {line}: {text}").toList =
      "line ".toList ++ ((toString line).toList ++ ':' :: ' ' :: text.toList) := by
    simp only [String.toList_append, List.append_assoc]
    rfl
  have hLine := leadingNumber?_append line (by decide : Text.isDigit ':' = false)
    (' ' :: text.toList)
  have hColumn : after? ", column " (':' :: ' ' :: text.toList) = none := rfl
  have hRest : remainder? (':' :: ' ' :: text.toList) = some text := remainder?_append hText
  unfold locate?
  rw [hMessage, after?_append]
  simp only [Option.bind_eq_bind, Option.bind_some, hLine, hColumn, hRest, Option.pure_def]

theorem locate?_place (line column : Nat) {text : String} (hText : OneLine text) :
    locate? s!"line {line}, column {column}: {text}" = some (line, some column, text) := by
  have hMessage : (s!"line {line}, column {column}: {text}").toList =
      "line ".toList ++ ((toString line).toList ++ ',' :: (" column ".toList ++
        ((toString column).toList ++ ':' :: ' ' :: text.toList))) := by
    simp only [String.toList_append, List.append_assoc]
    rfl
  have hLine := leadingNumber?_append line (by decide : Text.isDigit ',' = false)
    (" column ".toList ++ ((toString column).toList ++ ':' :: ' ' :: text.toList))
  have hBehind := after?_append ", column " ((toString column).toList ++ ':' :: ' ' :: text.toList)
  have hColumn := leadingNumber?_append column (by decide : Text.isDigit ':' = false)
    (' ' :: text.toList)
  have hRest : remainder? (':' :: ' ' :: text.toList) = some text := remainder?_append hText
  rw [show ", column ".toList = ',' :: " column ".toList from rfl, List.cons_append] at hBehind
  unfold locate?
  rw [hMessage, after?_append]
  simp only [Option.bind_eq_bind, Option.bind_some, hLine, hBehind, hColumn, hRest,
    Option.pure_def]

theorem locate?_eq_none {message : String} {first : Char} {rest : List Char}
    (hMessage : message.toList = first :: rest) (hFirst : first ≠ 'l') :
    locate? message = none := by
  have hOther : after? "line " (first :: rest) = none := by
    rw [after?, if_neg]
    simp [List.isPrefixOf, Ne.symm hFirst]
  unfold locate?
  rw [hMessage, hOther]
  rfl

end Editor
end RegisterCompiler
