/-
Saved builds.

The code of a build was read from its listing, so that every opcode is defined and every
operand fits a machine word.  Its image is therefore read back from its bytes as it was,
unless the source it embeds is no text or the program has more instructions than the reader
takes; then the bytes are refused.
-/

import RegisterCompiler.Proofs.Image.Listing
import RegisterCompiler.Proofs.Image.RoundTrip

set_option autoImplicit false

namespace RegisterCompiler

open Text (Bytes)

/-! ### Code that was read from text -/

namespace Opcode

theorem isDefined_of_ofName? {name : String} {opcode : Opcode} (hName : ofName? name = some opcode) :
    opcode.isDefined = true := by
  have hAll : ∀ known ∈ all, known.isDefined = true := by decide
  exact hAll opcode (List.mem_of_find?_eq_some hName)

end Opcode

namespace Instruction

private theorem fitsSigned64_of_operand? {word : String} {value : Int}
    (hWord : operand? word = some value) :
    Text.fitsSigned64 value = true := by
  obtain ⟨hSigned, -⟩ := Option.filter_eq_some_iff.mp hWord
  exact (Option.filter_eq_some_iff.mp hSigned).2

theorem fitsSigned64_of_operandValues {line : String} {words : List String} {values : List Int}
    (hValues : operandValues line words = .ok values) :
    ∀ value ∈ values, Text.fitsSigned64 value = true := by
  intro value hValue
  rcases (words_of_operandValues hValues).2 value hValue with ⟨word, -, hWord⟩
  exact fitsSigned64_of_operand? hWord

private theorem fitsSigned64_ofOperands (opcode : Opcode) {operands : List Int}
    (hOperands : ∀ operand ∈ operands, Text.fitsSigned64 operand = true) :
    Text.fitsSigned64 (ofOperands opcode operands).register = true ∧
      Text.fitsSigned64 (ofOperands opcode operands).target = true := by
  unfold ofOperands
  split
  · exact ⟨hOperands _ List.mem_cons_self, rfl⟩
  · exact ⟨rfl, hOperands _ List.mem_cons_self⟩
  · exact ⟨hOperands _ List.mem_cons_self, hOperands _ (List.mem_cons_of_mem _ List.mem_cons_self)⟩
  · exact ⟨rfl, rfl⟩

private theorem fits_of_decode {line : String} {instruction : Instruction}
    (hDecode : decode line = .ok instruction) :
    instruction.opcode.isDefined = true ∧ instruction.Fits := by
  unfold decode at hDecode
  split at hDecode
  · contradiction
  rename_i operands hWords
  split at hDecode
  · contradiction
  rename_i opcode hName
  split at hDecode
  · cases hValues : operandValues line operands with
    | error fault =>
        rw [hValues] at hDecode
        contradiction
    | ok values =>
        rw [hValues] at hDecode
        have hDefined := Opcode.isDefined_of_ofName? hName
        obtain ⟨hRegister, hTarget⟩ :=
          fitsSigned64_ofOperands opcode (fitsSigned64_of_operandValues hValues)
        rw [← Except.ok.inj hDecode, opcode_ofOperands]
        refine ⟨hDefined, hRegister, hTarget, ?_⟩
        rw [opcode_ofOperands, Opcode.ofByte_toByte hDefined]
  · split at hDecode <;> contradiction

end Instruction

private theorem fits_of_decodeLines {first : Nat} {lines : List String} {code : List Instruction}
    (hDecode : decodeLines first lines = .ok code) :
    ∀ instruction ∈ code, instruction.opcode.isDefined = true ∧ instruction.Fits := by
  induction lines generalizing first code with
  | nil =>
      rw [← Except.ok.inj hDecode]
      exact List.forall_mem_nil _
  | cons line lines inductionHypothesis =>
      unfold decodeLines at hDecode
      cases hLine : Instruction.decode line with
      | error fault =>
          rw [hLine] at hDecode
          contradiction
      | ok instruction =>
          simp only [hLine] at hDecode
          cases hRest : decodeLines (first + 1) lines with
          | error fault =>
              rw [hRest] at hDecode
              contradiction
          | ok rest =>
              rw [hRest] at hDecode
              rw [← Except.ok.inj hDecode, List.forall_mem_cons]
              exact ⟨Instruction.fits_of_decode hLine, inductionHypothesis hRest⟩

/-! ### Images of builds -/

/-- The parts of a finished build. -/
theorem image_of_build {options : BuildOptions} {id : String} {cancelled : Bool} {text : Bytes}
    {built : Build} (hBuild : build options id cancelled text = .ok built) :
    ∃ checked code, check text = .ok checked ∧ built.warnings = checked.warnings ∧
      built.cached = false ∧
      built.image = ⟨Image.currentVersion, id, options.generator.registers, some code,
        if options.includeSource then text else []⟩ ∧
      ∀ instruction ∈ code, instruction.opcode.isDefined = true ∧ instruction.Fits := by
  obtain ⟨-, checked, generated, code, hCheck, -, hDecode, rfl⟩ := exists_of_build_eq_ok hBuild
  exact ⟨checked, code, hCheck, rfl, rfl, rfl, fits_of_decodeLines hDecode⟩

/-- A saved build is loaded again as it was exactly if the source it embeds is a text and it
has no more instructions than the reader takes; otherwise its bytes are refused. -/
theorem build_saved_and_loaded {options : BuildOptions} {id : String} {cancelled : Bool}
    {text : Bytes} {built : Build} (hBuild : build options id cancelled text = .ok built)
    (hRegisters : Text.fitsSigned64 options.generator.registers = true)
    (hId : (Text.encode id).length < UInt64.size) (hText : text.length < UInt64.size)
    (hCode : built.image.instructions.length < UInt64.size) :
    Image.decode built.image.encode =
      if (options.includeSource = true → Text.isWellFormed text = true) ∧
          built.image.instructions.length ≤ Cbor.memberLimit then .ok built.image
      else .error .malformed := by
  obtain ⟨checked, code, -, -, -, hImage, hReads⟩ := image_of_build hBuild
  have hInstructions : built.image.instructions = code := by rw [hImage, Image.instructions]; rfl
  have hSource : built.image.source = if options.includeSource then text else [] := by rw [hImage]
  have hFits : built.image.Fits := by
    refine ⟨?_, ?_, ?_, ?_, hCode, ?_⟩
    · rw [hImage]
      exact (by decide : Image.currentVersion < UInt64.size)
    · rw [hImage]
      exact hId
    · rw [hImage]
      exact hRegisters
    · rw [hSource]
      split
      · exact hText
      · exact (by decide : 0 < UInt64.size)
    · rw [hInstructions]
      exact fun instruction hInstruction => (hReads instruction hInstruction).2
  have hUndefined : Image.firstUndefined? built.image.instructions = none := by
    rw [Image.firstUndefined?_eq_none_iff, hInstructions]
    exact fun instruction hInstruction => (hReads instruction hInstruction).1
  have hVersion : built.image.version = Image.currentVersion := by rw [hImage]
  have hWell : Text.isWellFormed built.image.source = true ↔
      (options.includeSource = true → Text.isWellFormed text = true) := by
    rw [hSource]
    cases options.includeSource with
    | true => simp
    | false => simp [Text.isWellFormed, Text.glyphs, Text.glyphsAfter]
  rw [Image.decode_encode_eq hFits, hUndefined, if_pos hVersion]
  simp only [hWell]

/-- A program that writes the number it reads, with a comment that is no text. -/
def strayComment : Bytes :=
  Text.encode "VAR n BEGIN READ n; WRITE n; \x7b " ++ [0xFF] ++ Text.encode " \x7d END"

def embedding : BuildOptions :=
  { BuildOptions.standard with includeSource := true }

theorem exists_of_map_toOption {α β γ : Type} {result : Except α β} {view : β → γ} {found : γ}
    (hFound : result.toOption.map view = some found) :
    ∃ value, result = .ok value ∧ view value = found := by
  cases result with
  | error fault => contradiction
  | ok value => exact ⟨value, rfl, Option.some.inj hFound⟩

/-- With a comment that is a text, the same program is loaded again. -/
theorem echo_saved_and_loaded :
    ∃ built, build embedding "echo" false (Text.encode "VAR n BEGIN READ n; WRITE n; \x7b é \x7d END") =
        .ok built ∧ Image.decode built.image.encode = .ok built.image := by
  obtain ⟨built, hBuilt, hLength⟩ := exists_of_map_toOption
    (by decide +kernel : (build embedding "echo" false
      (Text.encode "VAR n BEGIN READ n; WRITE n; \x7b é \x7d END")).toOption.map
        (fun built => built.image.instructions.length) = some 3)
  refine ⟨built, hBuilt, ?_⟩
  rw [build_saved_and_loaded hBuilt rfl (by decide) (by decide)
    (Nat.lt_of_le_of_lt (Nat.le_of_eq hLength) (by decide))]
  exact if_pos ⟨fun _ => by decide, Nat.le_trans (Nat.le_of_eq hLength) (by decide)⟩

/-- A build that succeeds and cannot be loaded again. -/
theorem stray_comment_saved_not_loaded :
    ∃ built, build embedding "id" false strayComment = .ok built ∧
      Image.decode built.image.encode = .error .malformed :=
  exists_of_map_toOption (by decide +kernel)

end RegisterCompiler
