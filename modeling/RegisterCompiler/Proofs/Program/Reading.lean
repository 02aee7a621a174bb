/-
Readers on their way through tokens.

A reader only moves on and reports, so that no fault is ever taken back and no token that
spells nothing stays unnoticed once the end of input is reached.  Between such tokens a
reader sees the tokens ahead one by one.
-/

import Mathlib.Data.List.Basic
import RegisterCompiler.Program.Parser
import RegisterCompiler.Proofs.Token.Scanning

set_option autoImplicit false

namespace RegisterCompiler

open Source (Position)

namespace Reader

/-! ### Moving on -/

inductive Leads (before : Reader) : Reader → Prop where
  | refl : Leads before before
  | advance {after : Reader} (hLeads : Leads before after) : Leads before after.advance
  | report {after : Reader} (hLeads : Leads before after) (line : Nat) (fault : SyntaxFault) :
      Leads before (after.report line fault)

theorem Leads.trans {before middle after : Reader} (hFirst : before.Leads middle)
    (hSecond : middle.Leads after) : before.Leads after := by
  induction hSecond with
  | refl => exact hFirst
  | advance _ inductionHypothesis => exact .advance inductionHypothesis
  | report _ line fault inductionHypothesis => exact .report inductionHypothesis line fault

private theorem errors_fetch (reader : Reader) (tokens : List Token) :
    ∃ more, (reader.fetch tokens).errors = reader.errors ++ more := by
  induction tokens generalizing reader with
  | nil => exact ⟨[], (List.append_nil _).symm⟩
  | cons token rest inductionHypothesis =>
      unfold fetch
      split
      · obtain ⟨more, hMore⟩ := inductionHypothesis
          (reader.report token.position.line (.lexical token.literal))
        exact ⟨_ :: more, by rw [hMore, report, List.append_assoc]; rfl⟩
      · exact ⟨[], (List.append_nil _).symm⟩

private theorem Leads.errors {before after : Reader} (hLeads : before.Leads after) :
    ∃ more, after.errors = before.errors ++ more := by
  induction hLeads with
  | refl => exact ⟨[], (List.append_nil _).symm⟩
  | advance _ inductionHypothesis =>
      obtain ⟨more, hMore⟩ := inductionHypothesis
      obtain ⟨others, hOthers⟩ := errors_fetch _ _
      refine ⟨more ++ others, hOthers.trans ?_⟩
      rw [← List.append_assoc, ← hMore]
  | report _ line fault inductionHypothesis =>
      obtain ⟨more, hMore⟩ := inductionHypothesis
      exact ⟨more ++ [⟨line, fault⟩], by rw [Reader.report, hMore, List.append_assoc]⟩

theorem Leads.errors_eq {before middle after : Reader} (hFirst : before.Leads middle)
    (hSecond : middle.Leads after) (hSame : after.errors = before.errors) :
    middle.errors = before.errors ∧ after.errors = middle.errors := by
  obtain ⟨more, hMore⟩ := hFirst.errors
  obtain ⟨others, hOthers⟩ := hSecond.errors
  rw [hMore, List.append_assoc] at hOthers
  rw [hSame, List.self_eq_append_right, List.append_eq_nil_iff] at hOthers
  obtain ⟨rfl, rfl⟩ := hOthers
  rw [List.append_nil] at hMore
  exact ⟨hMore, hSame.trans hMore.symm⟩

/-! ### Tokens that spell nothing -/

/-- Tokens that reach one that spells nothing before the end of input. -/
def Tainted (tokens : List Token) : Prop :=
  ∃ front bad back, tokens = front ++ bad :: back ∧ bad.kind = .error ∧
    ∀ token ∈ front, token.kind ≠ .endOfInput

/-- A reader that has faults, or will have some before it reaches the end of input. -/
def Doomed (reader : Reader) : Prop :=
  reader.errors ≠ [] ∨
    (reader.current.kind ≠ .endOfInput ∧ reader.upcoming.kind ≠ .endOfInput ∧ Tainted reader.rest)

private theorem errors_ne_nil_fetch {reader : Reader} (hErrors : reader.errors ≠ [])
    (tokens : List Token) :
    (reader.fetch tokens).errors ≠ [] := by
  obtain ⟨more, hMore⟩ := errors_fetch reader tokens
  rw [hMore]
  exact List.append_ne_nil_of_left_ne_nil hErrors more

private theorem fetch_tainted (reader : Reader) {tokens : List Token} (hTainted : Tainted tokens) :
    (reader.fetch tokens).errors ≠ [] ∨
      ((reader.fetch tokens).current = reader.current ∧
        (reader.fetch tokens).upcoming.kind ≠ .endOfInput ∧ Tainted (reader.fetch tokens).rest) := by
  obtain ⟨front, bad, back, rfl, hBad, hFront⟩ := hTainted
  cases front with
  | nil =>
      left
      rw [List.nil_append, fetch, if_pos hBad]
      exact errors_ne_nil_fetch (List.append_ne_nil_of_right_ne_nil _ (List.cons_ne_nil _ _)) _
  | cons token front =>
      obtain ⟨hToken, hLater⟩ := List.forall_mem_cons.mp hFront
      rw [List.cons_append, fetch]
      split
      · exact .inl (errors_ne_nil_fetch
          (List.append_ne_nil_of_right_ne_nil _ (List.cons_ne_nil _ _)) _)
      · exact .inr ⟨rfl, hToken, front, bad, back, rfl, hBad, hLater⟩

private theorem Doomed.advance {reader : Reader} (hDoomed : reader.Doomed) :
    reader.advance.Doomed := by
  unfold Reader.advance
  rcases hDoomed with hErrors | ⟨-, hUpcoming, hRest⟩
  · refine .inl (errors_ne_nil_fetch ?_ _)
    exact hErrors
  · rcases fetch_tainted _ hRest with hErrors | ⟨hCurrent, hNext, hLater⟩
    · exact .inl hErrors
    · refine .inr ⟨?_, hNext, hLater⟩
      rw [hCurrent]
      exact hUpcoming

theorem Doomed.of_leads {before after : Reader} (hDoomed : before.Doomed)
    (hLeads : before.Leads after) : after.Doomed := by
  induction hLeads with
  | refl => exact hDoomed
  | advance _ inductionHypothesis => exact inductionHypothesis.advance
  | report _ line fault inductionHypothesis =>
      exact .inl (List.append_ne_nil_of_right_ne_nil _ (List.cons_ne_nil _ _))

theorem doomed_ofTokens {tokens : List Token} (hTainted : Tainted tokens) :
    (ofTokens tokens).Doomed := by
  unfold ofTokens
  rcases fetch_tainted _ hTainted with hErrors | ⟨-, hUpcoming, hRest⟩
  · exact Doomed.advance (.inl hErrors)
  · unfold Reader.advance
    rcases fetch_tainted _ hRest with hErrors | ⟨hCurrent, hNext, hLater⟩
    · exact .inl hErrors
    · refine .inr ⟨?_, hNext, hLater⟩
      rw [hCurrent]
      exact hUpcoming

/-! ### Tokens ahead -/

/-- Tokens that all spell something, with the end of input last and only there. -/
inductive Clean : List Token → Prop where
  | last {token : Token} (hEnd : token.kind = .endOfInput) : Clean [token]
  | more {token : Token} {rest : List Token} (hEnd : token.kind ≠ .endOfInput)
      (hError : token.kind ≠ .error) (hRest : Clean rest) : Clean (token :: rest)

theorem Clean.ne_nil {tokens : List Token} (hClean : Clean tokens) : tokens ≠ [] := by
  cases hClean <;> exact List.cons_ne_nil _ _

private theorem Clean.head_ne_error {token : Token} {rest : List Token}
    (hClean : Clean (token :: rest)) :
    token.kind ≠ .error := by
  cases hClean with
  | last hEnd =>
      rw [hEnd]
      decide
  | more _ hError _ => exact hError

theorem clean_append {front : List Token} {last : Token} (hLast : last.kind = .endOfInput)
    (hFront : ∀ token ∈ front, token.kind ≠ .endOfInput ∧ token.kind ≠ .error) :
    Clean (front ++ [last]) := by
  induction front with
  | nil => exact .last hLast
  | cons token front inductionHypothesis =>
      obtain ⟨hToken, hLater⟩ := List.forall_mem_cons.mp hFront
      exact .more hToken.1 hToken.2 (inductionHypothesis hLater)

theorem Clean.eq_nil_of_append {front later : List Token} {last : Token}
    (hClean : Clean (front ++ last :: later)) (hLast : last.kind = .endOfInput) : later = [] := by
  induction front with
  | nil =>
      cases hClean with
      | last => rfl
      | more hEnd _ _ => exact absurd hLast hEnd
  | cons token front inductionHypothesis =>
      rw [List.cons_append] at hClean
      generalize hTokens : front ++ last :: later = tokens at *
      cases hClean with
      | last => exact absurd hTokens (List.append_ne_nil_of_right_ne_nil _ (List.cons_ne_nil _ _))
      | more _ _ hRest => exact inductionHypothesis hRest

/-- What a reader sees: the current token, the next one and the rest; the last one stays. -/
def Sees (reader : Reader) : List Token → Prop
  | [] => False
  | [last] => reader.current = last ∧ reader.upcoming = last ∧ reader.rest = []
  | first :: second :: later =>
      reader.current = first ∧ reader.upcoming = second ∧ reader.rest = later

structure At (reader : Reader) (tokens : List Token) : Prop where
  clean : Clean tokens
  sees : reader.Sees tokens

theorem At.current_eq {reader : Reader} {token : Token} {rest : List Token}
    (hAt : reader.At (token :: rest)) : reader.current = token := by
  have hSees := hAt.sees
  cases rest with
  | nil => exact hSees.1
  | cons second later => exact hSees.1

theorem At.exists_cons {reader : Reader} {tokens : List Token} (hAt : reader.At tokens) :
    ∃ rest, tokens = reader.current :: rest := by
  cases tokens with
  | nil => exact absurd rfl hAt.clean.ne_nil
  | cons token rest => exact ⟨rest, by rw [hAt.current_eq]⟩

theorem At.length_le {reader : Reader} {tokens : List Token} (hAt : reader.At tokens) :
    tokens.length ≤ reader.rest.length + 2 := by
  have hSees := hAt.sees
  match tokens, hSees with
  | [last], _ => exact Nat.le_add_left 1 _
  | first :: second :: later, hSees =>
      rw [hSees.2.2]
      exact Nat.le_refl _

theorem At.advance {reader : Reader} {token : Token} {rest : List Token}
    (hAt : reader.At (token :: rest)) (hKind : token.kind ≠ .endOfInput) :
    reader.advance.At rest ∧ reader.advance.errors = reader.errors := by
  obtain ⟨hClean, hSees⟩ := hAt
  cases hClean with
  | last hEnd => exact absurd hEnd hKind
  | more _ _ hRest =>
      cases hRest with
      | last hEnd =>
          obtain ⟨-, hUpcoming, hNone⟩ := hSees
          simp only [Reader.advance, hUpcoming, hNone, fetch]
          exact ⟨⟨.last hEnd, rfl, rfl, rfl⟩, trivial⟩
      | @more second later hEnd hError hLater =>
          obtain ⟨-, hUpcoming, hNext⟩ := hSees
          cases later with
          | nil => exact absurd rfl hLater.ne_nil
          | cons third later =>
              simp only [Reader.advance, hUpcoming, hNext, fetch, if_neg hLater.head_ne_error]
              exact ⟨⟨.more hEnd hError hLater, rfl, rfl, rfl⟩, trivial⟩

theorem at_ofTokens {tokens : List Token} (hClean : Clean tokens) :
    (ofTokens tokens).At tokens ∧ (ofTokens tokens).errors = [] := by
  match tokens, hClean with
  | [last], hClean =>
      simp only [ofTokens, Reader.advance, fetch, if_neg hClean.head_ne_error]
      exact ⟨⟨hClean, rfl, rfl, rfl⟩, trivial⟩
  | first :: second :: later, hClean =>
      have hSecond : second.kind ≠ .error := by
        cases hClean with
        | more _ _ hRest => exact hRest.head_ne_error
      simp only [ofTokens, Reader.advance, fetch, if_neg hClean.head_ne_error, if_neg hSecond]
      exact ⟨⟨hClean, rfl, rfl, rfl⟩, trivial⟩

end Reader

/-! ### Steady reading -/

-- The instances follow the whole body of a reader.
set_option synthInstance.maxSize 4096

namespace Reading

variable {α β : Type}

class Steady (reading : Reading α) : Prop where
  leads : ∀ reader : Reader, reader.Leads (reading.run reader).2

namespace Steady

instance pure (value : α) : Steady (pure value : Reading α) where
  leads := fun _ => .refl

instance get : Steady (MonadState.get : Reading Reader) where
  leads := fun _ => .refl

instance bind (reading : Reading β) (next : β → Reading α) [hReading : Steady reading]
    [hNext : ∀ value, Steady (next value)] : Steady (reading >>= next) where
  leads := fun reader => (hReading.leads reader).trans ((hNext _).leads _)

instance ite (condition : Prop) [Decidable condition] (first second : Reading α) [Steady first]
    [Steady second] : Steady (if condition then first else second) := by
  split <;> infer_instance

end Steady

instance current_steady : Steady current :=
  inferInstanceAs (Steady (MonadState.get >>= _))

instance advance_steady : Steady advance where
  leads := fun _ => .advance .refl

instance report_steady (fault : TokenKind → SyntaxFault) : Steady (report fault) where
  leads := fun _ => .report .refl _ _

instance spanFrom_steady (first : Position) : Steady (spanFrom first) :=
  inferInstanceAs (Steady (MonadState.get >>= _))

instance bound_steady : Steady bound :=
  inferInstanceAs (Steady (MonadState.get >>= _))

instance expect_steady (wanted : TokenKind) : Steady (expect wanted) := by
  unfold expect
  infer_instance

instance skipToCommand_steady (fuel : Nat) : Steady (skipToCommand fuel) := by
  induction fuel with
  | zero => exact Steady.pure ()
  | succ fuel inductionHypothesis =>
      unfold skipToCommand
      infer_instance

end Reading

namespace Attempt

variable {α β : Type}

class Steady (attempt : Attempt α) : Prop where
  run : Reading.Steady attempt.run

namespace Steady

instance pure (value : α) : Steady (pure value : Attempt α) where
  run := Reading.Steady.pure (some value)

instance failure : Steady (failure : Attempt α) where
  run := Reading.Steady.pure none

instance lift (reading : Reading α) [Reading.Steady reading] :
    Steady (liftM reading : Attempt α) where
  run := inferInstanceAs (Reading.Steady (reading >>= fun value => Pure.pure (some value)))

instance get : Steady (MonadState.get : Attempt Reader) :=
  inferInstanceAs (Steady (liftM (MonadState.get : Reading Reader)))

instance bind (attempt : Attempt β) (next : β → Attempt α) [hAttempt : Steady attempt]
    [hNext : ∀ value, Steady (next value)] : Steady (attempt >>= next) where
  run := by
    rw [OptionT.run_bind, Option.elimM]
    refine @Reading.Steady.bind _ _ _ _ hAttempt.run fun found => ?_
    cases found with
    | none => exact Reading.Steady.pure none
    | some value => exact (hNext value).run

instance ite (condition : Prop) [Decidable condition] (first second : Attempt α) [Steady first]
    [Steady second] : Steady (if condition then first else second) := by
  split <;> infer_instance

end Steady

instance refuse_steady (fault : TokenKind → SyntaxFault) : Steady (refuse fault : Attempt α) := by
  unfold refuse
  infer_instance

instance require_steady (wanted : TokenKind) : Steady (require wanted) := by
  unfold require
  infer_instance

instance number_steady : Steady number := by
  unfold number
  infer_instance

instance index_steady : Steady index := by
  unfold index
  infer_instance

instance reference_steady : Steady reference := by
  unfold reference
  infer_instance

instance atom_steady : Steady atom := by
  unfold atom
  infer_instance

instance expression_steady : Steady expression := by
  unfold expression
  refine @Steady.bind _ _ _ _ _ fun _ => @Steady.bind _ _ _ _ _ fun _ =>
    @Steady.bind _ _ _ _ _ fun _ => ?_
  split <;> infer_instance

instance condition_steady : Steady condition := by
  unfold condition
  refine @Steady.bind _ _ _ _ _ fun _ => @Steady.bind _ _ _ _ _ fun _ =>
    @Steady.bind _ _ _ _ _ fun _ => ?_
  split <;> infer_instance

instance direction_steady : Steady direction := by
  unfold direction
  refine @Steady.bind _ _ _ _ _ fun _ => ?_
  split <;> infer_instance

instance assignment_steady : Steady assignment := by
  unfold assignment
  infer_instance

instance readCommand_steady : Steady readCommand := by
  unfold readCommand
  infer_instance

instance writeCommand_steady : Steady writeCommand := by
  unfold writeCommand
  infer_instance

instance skipCommand_steady : Steady skipCommand := by
  unfold skipCommand
  infer_instance

section

variable (block : TokenKind → Reading (List Command)) [∀ wanted, Reading.Steady (block wanted)]

instance conditional_steady : Steady (conditional block) := by
  unfold conditional
  infer_instance

instance whileLoop_steady : Steady (whileLoop block) := by
  unfold whileLoop
  infer_instance

instance forLoop_steady : Steady (forLoop block) := by
  unfold forLoop
  infer_instance

instance command_steady : Steady (command block) := by
  unfold command
  refine @Steady.bind _ _ _ _ _ fun _ => ?_
  split <;> infer_instance

end

end Attempt

namespace Reading

instance run_steady {α : Type} (attempt : Attempt α) [hAttempt : Attempt.Steady attempt] :
    Steady attempt.run :=
  hAttempt.run

instance block_steady (commands : Reading (List Command)) [Steady commands] (wanted : TokenKind) :
    Steady (block commands wanted) := by
  unfold block
  infer_instance

instance commands_steady (fuel : Nat) : Steady (commands fuel) := by
  induction fuel with
  | zero => exact Steady.pure []
  | succ fuel inductionHypothesis =>
      unfold commands
      infer_instance

instance declarations_steady (fuel : Nat) : Steady (declarations fuel) := by
  induction fuel with
  | zero => exact Steady.pure []
  | succ fuel inductionHypothesis =>
      unfold declarations
      dsimp only
      infer_instance

instance program_steady : Steady program := by
  unfold program
  dsimp only
  infer_instance

end Reading

end RegisterCompiler
