/-
Where faults are reported.

A reader sees the tokens of its text and no others.  What it reports is on the line of one of
them: the message of a token that spells nothing, or a fault that names kinds of tokens.
-/

import RegisterCompiler.Proofs.Program.Reading

set_option autoImplicit false

namespace RegisterCompiler

open Source (Position)

/-! ### Faults and tokens -/

def SyntaxFault.NamesKinds (fault : SyntaxFault) : Prop :=
  ∀ message, fault ≠ .lexical message

/-- A fault at a token: the message of a token that spells nothing, or one that names kinds. -/
def Token.Explains (token : Token) (fault : SyntaxFault) : Prop :=
  (token.kind = .error ∧ fault = .lexical token.literal) ∨ fault.NamesKinds

def SyntaxError.Concerns (tokens : List Token) (error : SyntaxError) : Prop :=
  ∃ token ∈ tokens, error.line = token.position.line ∧ token.Explains error.fault

namespace Reader

structure Concerns (tokens : List Token) (reader : Reader) : Prop where
  current : reader.current ∈ tokens
  upcoming : reader.upcoming ∈ tokens
  rest : ∀ token ∈ reader.rest, token ∈ tokens
  errors : ∀ error ∈ reader.errors, error.Concerns tokens

variable {tokens ahead : List Token} {reader : Reader}

private theorem concerns_report (hErrors : ∀ error ∈ reader.errors, error.Concerns tokens)
    {token : Token}
    (hToken : token ∈ tokens) {fault : SyntaxFault} (hFault : token.Explains fault) :
    ∀ error ∈ (reader.report token.position.line fault).errors, error.Concerns tokens :=
  List.forall_mem_append.mpr
    ⟨hErrors, List.forall_mem_singleton.mpr ⟨token, hToken, rfl, hFault⟩⟩

private theorem concerns_fetch (hErrors : ∀ error ∈ reader.errors, error.Concerns tokens)
    (hAhead : ∀ token ∈ ahead, token ∈ tokens) :
    ∀ error ∈ (reader.fetch ahead).errors, error.Concerns tokens := by
  induction ahead generalizing reader with
  | nil => exact hErrors
  | cons token rest inductionHypothesis =>
      obtain ⟨hToken, hRest⟩ := List.forall_mem_cons.mp hAhead
      unfold Reader.fetch
      split
      · rename_i hError
        exact inductionHypothesis (concerns_report hErrors hToken (.inl ⟨hError, rfl⟩)) hRest
      · exact hErrors

/-- A reader that fetches a token has this one and the ones behind it ahead, unless all that is
ahead spells nothing. -/
theorem fetch_cases (reader : Reader) (ahead : List Token) :
    (reader.fetch ahead).current = reader.current ∧
      ((reader.fetch ahead).upcoming :: (reader.fetch ahead).rest <:+ ahead ∨
        (reader.fetch ahead).upcoming = reader.upcoming ∧ (reader.fetch ahead).rest = [] ∧
          ∀ token ∈ ahead, token.kind = .error) := by
  induction ahead generalizing reader with
  | nil => exact ⟨rfl, .inr ⟨rfl, rfl, List.forall_mem_nil _⟩⟩
  | cons token rest inductionHypothesis =>
      unfold Reader.fetch
      split
      · rename_i hError
        obtain ⟨hCurrent, hSuffix | ⟨hUpcoming, hNone, hErrors⟩⟩ :=
          inductionHypothesis (reader.report token.position.line (.lexical token.literal))
        · exact ⟨hCurrent, .inl (hSuffix.trans (List.suffix_cons token rest))⟩
        · exact ⟨hCurrent, .inr ⟨hUpcoming, hNone, List.forall_mem_cons.mpr ⟨hError, hErrors⟩⟩⟩
      · exact ⟨rfl, .inl List.suffix_rfl⟩

private theorem Concerns.fetch (hReader : reader.Concerns tokens)
    (hAhead : ∀ token ∈ ahead, token ∈ tokens) : (reader.fetch ahead).Concerns tokens := by
  have hErrors := concerns_fetch hReader.errors hAhead
  obtain ⟨hCurrent, hSuffix | ⟨hUpcoming, hNone, -⟩⟩ := fetch_cases reader ahead
  · obtain ⟨hNext, hRest⟩ := List.forall_mem_cons.mp fun token hToken =>
      hAhead token (hSuffix.subset hToken)
    exact ⟨hCurrent ▸ hReader.current, hNext, hRest, hErrors⟩
  · exact ⟨hCurrent ▸ hReader.current, hUpcoming ▸ hReader.upcoming,
      hNone ▸ List.forall_mem_nil _, hErrors⟩

private theorem concerns_advance (hUpcoming : reader.upcoming ∈ tokens)
    (hRest : ∀ token ∈ reader.rest, token ∈ tokens)
    (hErrors : ∀ error ∈ reader.errors, error.Concerns tokens) :
    reader.advance.Concerns tokens :=
  Concerns.fetch ⟨hUpcoming, hUpcoming, hRest, hErrors⟩ hRest

private theorem concerns_ofTokens {last : Token} (hLast : last ∈ tokens)
    (hKind : last.kind ≠ .error) :
    (ofTokens tokens).Concerns tokens := by
  obtain ⟨-, hSuffix | ⟨-, -, hErrors⟩⟩ :=
    fetch_cases ⟨nothingRead, nothingRead, tokens, .unset, []⟩ tokens
  · obtain ⟨hNext, hRest⟩ := List.forall_mem_cons.mp fun token hToken => hSuffix.subset hToken
    exact concerns_advance hNext hRest (concerns_fetch (List.forall_mem_nil _) fun _ => id)
  · exact absurd (hErrors last hLast) hKind

end Reader

/-! ### Frank reading -/

class SyntaxFault.Kindly (fault : TokenKind → SyntaxFault) : Prop where
  namesKinds : ∀ kind, (fault kind).NamesKinds

namespace SyntaxFault

instance (wanted : TokenKind) : Kindly (expected wanted) := ⟨fun _ _ => nofun⟩
instance : Kindly expectedLoopVariable := ⟨fun _ _ => nofun⟩
instance : Kindly expectedDirection := ⟨fun _ _ => nofun⟩
instance : Kindly expectedComparison := ⟨fun _ _ => nofun⟩
instance : Kindly expectedOperand := ⟨fun _ _ => nofun⟩
instance : Kindly expectedNumber := ⟨fun _ _ => nofun⟩
instance : Kindly expectedIdentifier := ⟨fun _ _ => nofun⟩
instance : Kindly expectedIndex := ⟨fun _ _ => nofun⟩
instance : Kindly expectedCommand := ⟨fun _ _ => nofun⟩
instance : Kindly unexpectedStart := ⟨fun _ _ => nofun⟩
instance : Kindly unexpectedAfterEnd := ⟨fun _ _ => nofun⟩

end SyntaxFault

-- The instances follow the whole body of a reader.
set_option synthInstance.maxSize 4096

namespace Reading

variable {α β : Type}

/-- Reading that reports faults at the tokens of the reader only. -/
class Frank (reading : Reading α) : Prop where
  concerns : ∀ (tokens : List Token) (reader : Reader), reader.Concerns tokens →
    (reading.run reader).2.Concerns tokens

namespace Frank

instance pure (value : α) : Frank (pure value : Reading α) where
  concerns := fun _ _ hReader => hReader

instance get : Frank (MonadState.get : Reading Reader) where
  concerns := fun _ _ hReader => hReader

instance bind (reading : Reading β) (next : β → Reading α) [hReading : Frank reading]
    [hNext : ∀ value, Frank (next value)] : Frank (reading >>= next) where
  concerns := fun tokens reader hReader =>
    (hNext _).concerns tokens _ (hReading.concerns tokens reader hReader)

instance ite (condition : Prop) [Decidable condition] (first second : Reading α) [Frank first]
    [Frank second] : Frank (if condition then first else second) := by
  split <;> infer_instance

end Frank

instance current_frank : Frank current :=
  inferInstanceAs (Frank (MonadState.get >>= _))

instance advance_frank : Frank advance where
  concerns := fun _ _ hReader =>
    Reader.concerns_advance hReader.upcoming hReader.rest hReader.errors

instance report_frank (fault : TokenKind → SyntaxFault) [hFault : SyntaxFault.Kindly fault] :
    Frank (report fault) where
  concerns := fun _ _ hReader => ⟨hReader.current, hReader.upcoming, hReader.rest,
    Reader.concerns_report hReader.errors hReader.current (.inr (hFault.namesKinds _))⟩

instance spanFrom_frank (first : Position) : Frank (spanFrom first) :=
  inferInstanceAs (Frank (MonadState.get >>= _))

instance bound_frank : Frank bound :=
  inferInstanceAs (Frank (MonadState.get >>= _))

instance expect_frank (wanted : TokenKind) : Frank (expect wanted) := by
  unfold expect
  infer_instance

instance skipToCommand_frank (fuel : Nat) : Frank (skipToCommand fuel) := by
  induction fuel with
  | zero => exact Frank.pure ()
  | succ fuel inductionHypothesis =>
      unfold skipToCommand
      infer_instance

end Reading

namespace Attempt

variable {α β : Type}

class Frank (attempt : Attempt α) : Prop where
  run : Reading.Frank attempt.run

namespace Frank

instance pure (value : α) : Frank (pure value : Attempt α) where
  run := Reading.Frank.pure (some value)

instance failure : Frank (failure : Attempt α) where
  run := Reading.Frank.pure none

instance lift (reading : Reading α) [Reading.Frank reading] :
    Frank (liftM reading : Attempt α) where
  run := inferInstanceAs (Reading.Frank (reading >>= fun value => Pure.pure (some value)))

instance get : Frank (MonadState.get : Attempt Reader) :=
  inferInstanceAs (Frank (liftM (MonadState.get : Reading Reader)))

instance bind (attempt : Attempt β) (next : β → Attempt α) [hAttempt : Frank attempt]
    [hNext : ∀ value, Frank (next value)] : Frank (attempt >>= next) where
  run := by
    rw [OptionT.run_bind, Option.elimM]
    refine @Reading.Frank.bind _ _ _ _ hAttempt.run fun found => ?_
    cases found with
    | none => exact Reading.Frank.pure none
    | some value => exact (hNext value).run

private theorem andThen {attempt : Attempt β} {next : β → Attempt α} [Frank attempt]
    (hNext : ∀ value, Frank (next value)) : Frank (attempt >>= next) :=
  inferInstance

instance ite (condition : Prop) [Decidable condition] (first second : Attempt α) [Frank first]
    [Frank second] : Frank (if condition then first else second) := by
  split <;> infer_instance

end Frank

instance refuse_frank (fault : TokenKind → SyntaxFault) [SyntaxFault.Kindly fault] :
    Frank (refuse fault : Attempt α) := by
  unfold refuse
  infer_instance

instance require_frank (wanted : TokenKind) : Frank (require wanted) := by
  unfold require
  infer_instance

instance number_frank : Frank number := by
  unfold number
  infer_instance

instance index_frank : Frank index := by
  unfold index
  infer_instance

instance reference_frank : Frank reference := by
  unfold reference
  infer_instance

instance atom_frank : Frank atom := by
  unfold atom
  infer_instance

instance expression_frank : Frank expression := by
  unfold expression
  refine .andThen fun _ => .andThen fun _ => .andThen fun _ => ?_
  split <;> infer_instance

instance condition_frank : Frank condition := by
  unfold condition
  refine .andThen fun _ => .andThen fun _ => .andThen fun _ => ?_
  split <;> infer_instance

instance direction_frank : Frank direction := by
  unfold direction
  refine .andThen fun _ => ?_
  split <;> infer_instance

instance assignment_frank : Frank assignment := by
  unfold assignment
  infer_instance

instance readCommand_frank : Frank readCommand := by
  unfold readCommand
  infer_instance

instance writeCommand_frank : Frank writeCommand := by
  unfold writeCommand
  infer_instance

instance skipCommand_frank : Frank skipCommand := by
  unfold skipCommand
  infer_instance

section

variable (block : TokenKind → Reading (List Command)) [∀ wanted, Reading.Frank (block wanted)]

instance conditional_frank : Frank (conditional block) := by
  unfold conditional
  infer_instance

instance whileLoop_frank : Frank (whileLoop block) := by
  unfold whileLoop
  infer_instance

instance forLoop_frank : Frank (forLoop block) := by
  unfold forLoop
  infer_instance

instance command_frank : Frank (command block) := by
  unfold command
  refine .andThen fun _ => ?_
  split <;> infer_instance

end

end Attempt

namespace Reading

instance run_frank {α : Type} (attempt : Attempt α) [hAttempt : Attempt.Frank attempt] :
    Frank attempt.run :=
  hAttempt.run

instance block_frank (commands : Reading (List Command)) [Frank commands] (wanted : TokenKind) :
    Frank (block commands wanted) := by
  unfold block
  infer_instance

instance commands_frank (fuel : Nat) : Frank (commands fuel) := by
  induction fuel with
  | zero => exact Frank.pure []
  | succ fuel inductionHypothesis =>
      unfold commands
      infer_instance

instance declarations_frank (fuel : Nat) : Frank (declarations fuel) := by
  induction fuel with
  | zero => exact Frank.pure []
  | succ fuel inductionHypothesis =>
      unfold declarations
      dsimp only
      infer_instance

instance program_frank : Frank program := by
  unfold program
  dsimp only
  infer_instance

end Reading

theorem concerns_readProgram {text : Text.Bytes} {error : SyntaxError}
    (hError : error ∈ (readProgram text).errors) : error.Concerns (Token.scan text) := by
  obtain ⟨front, last, hScan, hLast, -⟩ := Token.ended_scan text
  have hKind : last.kind ≠ .error := by
    rw [hLast]
    exact nofun
  have hMem : last ∈ Token.scan text := hScan ▸ List.mem_append_right _ (List.mem_singleton_self _)
  have hConcerns := Reading.program_frank.concerns _ _ (Reader.concerns_ofTokens hMem hKind)
  unfold readProgram readText at hError
  generalize Reading.program.run (Reader.ofTokens (Token.scan text)) = outcome at hError hConcerns
  exact hConcerns.errors error hError

end RegisterCompiler
