/-
What is read without a fault is derived.

Reading that finds no fault has taken tokens from whose symbols its result is derived.
Faults are never taken back, so that a whole program that is read without a fault was read
without one in all its parts.
-/

import RegisterCompiler.Proofs.Program.Grammar
import RegisterCompiler.Proofs.Program.Reading

set_option autoImplicit false

namespace RegisterCompiler

open Source (Position Span)
open Text (Bytes)
open Grammar

/-! ### Symbols of tokens -/

namespace Token

theorem symbol_of_number {token : Token} (hKind : token.kind = .number) :
    token.symbol = .number (Text.digitsValue token.literal.toList) := by
  simp only [symbol, hKind]

theorem symbol_of_identifier {token : Token} (hKind : token.kind = .identifier) :
    token.symbol = .name token.literal := by
  simp only [symbol, hKind]

theorem symbol_of_sign {token : Token} {kind : TokenKind} (hKind : token.kind = kind)
    (hNumber : kind ≠ .number) (hName : kind ≠ .identifier) : token.symbol = .sign kind := by
  unfold symbol
  split
  · exact absurd (hKind.symm.trans ‹_›) hNumber
  · exact absurd (hKind.symm.trans ‹_›) hName
  · rw [hKind]

theorem of_symbol_number {token : Token} {value : Nat} (hSymbol : token.symbol = .number value) :
    token.kind = .number ∧ Text.digitsValue token.literal.toList = value := by
  unfold symbol at hSymbol
  split at hSymbol
  · exact ⟨‹_›, Symbol.number.inj hSymbol⟩
  · cases hSymbol
  · cases hSymbol

theorem of_symbol_name {token : Token} {name : String} (hSymbol : token.symbol = .name name) :
    token.kind = .identifier ∧ token.literal = name := by
  unfold symbol at hSymbol
  split at hSymbol
  · cases hSymbol
  · exact ⟨‹_›, Symbol.name.inj hSymbol⟩
  · cases hSymbol

theorem kind_of_symbol {token : Token} {kind : TokenKind} (hSymbol : token.symbol = .sign kind) :
    token.kind = kind := by
  unfold symbol at hSymbol
  split at hSymbol
  · cases hSymbol
  · cases hSymbol
  · exact Symbol.sign.inj hSymbol

end Token

abbrev symbolsOf (tokens : List Token) : List Symbol :=
  tokens.map Token.symbol

/-! ### Reading without a fault -/

set_option synthInstance.maxSize 4096

namespace Reading

variable {α β : Type}

/-- Reading that finds a fault, or moves on to tokens that stand in a relation to the
result. -/
def Explains (reading : Reading α) (tokens : List Token) (post : α → List Token → Prop) : Prop :=
  ∀ reader : Reader, reader.At tokens → (reading.run reader).2.errors = reader.errors →
    ∃ rest, (reading.run reader).2.At rest ∧ post (reading.run reader).1 rest

namespace Explains

variable {tokens : List Token} {post : α → List Token → Prop}

private theorem pure {value : α} (hPost : post value tokens) : Explains (pure value) tokens post :=
  fun _ hAt _ => ⟨tokens, hAt, hPost⟩

private theorem bind {reading : Reading β} {next : β → Reading α} {middle : β → List Token → Prop}
    [hReading : Steady reading] [hSteady : ∀ value, Steady (next value)]
    (hFirst : Explains reading tokens middle)
    (hNext : ∀ value rest, middle value rest → Explains (next value) rest post) :
    Explains (reading >>= next) tokens post := by
  intro reader hAt hSame
  obtain ⟨hEarly, hLate⟩ := (hReading.leads reader).errors_eq ((hSteady _).leads _) hSame
  obtain ⟨rest, hRest, hMiddle⟩ := hFirst reader hAt hEarly
  exact hNext _ rest hMiddle _ hRest hLate

end Explains

private theorem current_explains (tokens : List Token) :
    Explains current tokens fun token rest => rest = tokens ∧ ∃ later, tokens = token :: later :=
  fun _ hAt _ => ⟨tokens, hAt, rfl, hAt.exists_cons⟩

private theorem advance_explains {token : Token} {kind : TokenKind} (rest : List Token)
    (hKind : token.kind = kind) (hMoves : kind ≠ .endOfInput) :
    Explains advance (token :: rest) fun _ later => later = rest :=
  fun _ hAt _ => ⟨rest, (hAt.advance (hKind ▸ hMoves)).1, rfl⟩

private theorem report_explains (fault : TokenKind → SyntaxFault) (tokens : List Token)
    (post : Unit → List Token → Prop) : Explains (report fault) tokens post := by
  intro reader _ hSame
  exact absurd (List.self_eq_append_right.mp hSame.symm) (List.cons_ne_nil _ _)

private theorem spanFrom_explains (first : Position) (tokens : List Token) :
    Explains (spanFrom first) tokens fun _ rest => rest = tokens :=
  fun _ hAt _ => ⟨tokens, hAt, rfl⟩

private theorem bound_explains (tokens : List Token) :
    Explains bound tokens fun _ rest => rest = tokens :=
  fun _ hAt _ => ⟨tokens, hAt, rfl⟩

private theorem expect_explains {wanted : TokenKind} (tokens : List Token)
    (hWanted : wanted ≠ .endOfInput) :
    Explains (expect wanted) tokens fun passed rest =>
      passed = true ∧ ∃ token, tokens = token :: rest ∧ token.kind = wanted := by
  refine .bind (current_explains tokens) ?_
  rintro token _ ⟨rfl, rest, rfl⟩
  split
  · rename_i hKind
    refine .bind (advance_explains rest hKind hWanted) ?_
    rintro _ _ rfl
    exact .pure ⟨rfl, token, rfl, hKind⟩
  · exact .bind (report_explains _ _ fun _ _ => False) fun _ _ hFalse => hFalse.elim

end Reading

namespace Attempt

variable {α β : Type}

def Explains (attempt : Attempt α) (tokens : List Token) (post : α → List Token → Prop) : Prop :=
  Reading.Explains attempt.run tokens fun found rest => ∃ value, found = some value ∧ post value rest

def Derived {tree : Type} (production : List Symbol → tree → Prop) (tokens : List Token)
    (value : tree) (rest : List Token) : Prop :=
  ∃ used, tokens = used ++ rest ∧ production (symbolsOf used) value

namespace Explains

variable {tokens : List Token} {post : α → List Token → Prop}

private theorem pure {value : α} (hPost : post value tokens) : Explains (pure value) tokens post :=
  Reading.Explains.pure ⟨value, rfl, hPost⟩

private theorem lift {reading : Reading α} [Reading.Steady reading]
    (hReading : Reading.Explains reading tokens post) : Explains (liftM reading) tokens post :=
  Reading.Explains.bind hReading fun value _ hPost => Reading.Explains.pure ⟨value, rfl, hPost⟩

/-- The rule for sequences whose second part is known to be steady. -/
theorem then_steady {attempt : Attempt β} {next : β → Attempt α}
    {middle : β → List Token → Prop} [hAttempt : Steady attempt]
    (hFirst : Explains attempt tokens middle) (hSteady : ∀ value, Steady (next value))
    (hNext : ∀ value rest, middle value rest → Explains (next value) rest post) :
    Explains (attempt >>= next) tokens post := by
  have hRest : ∀ found : Option β, Reading.Steady
      (found.elim (Pure.pure none) fun value => (next value).run) := by
    intro found
    cases found with
    | none => exact Reading.Steady.pure none
    | some value => exact (hSteady value).run
  rw [Explains, OptionT.run_bind, Option.elimM]
  refine Reading.Explains.bind hFirst ?_
  rintro found rest ⟨value, rfl, hMiddle⟩
  exact hNext value rest hMiddle

private theorem bind {attempt : Attempt β} {next : β → Attempt α} {middle : β → List Token → Prop}
    [Steady attempt] [hSteady : ∀ value, Steady (next value)]
    (hFirst : Explains attempt tokens middle)
    (hNext : ∀ value rest, middle value rest → Explains (next value) rest post) :
    Explains (attempt >>= next) tokens post :=
  hFirst.then_steady hSteady hNext

end Explains

private theorem get_explains (tokens : List Token) :
    Explains (MonadState.get : Attempt Reader) tokens fun _ rest => rest = tokens :=
  fun reader hAt _ => ⟨tokens, hAt, reader, rfl, rfl⟩

private theorem refuse_explains (fault : TokenKind → SyntaxFault) (tokens : List Token)
    (post : α → List Token → Prop) : Explains (refuse fault : Attempt α) tokens post :=
  .bind (.lift (Reading.report_explains fault tokens fun _ _ => False))
    fun _ _ hFalse => hFalse.elim

private theorem require_explains {wanted : TokenKind} (tokens : List Token)
    (hWanted : wanted ≠ .endOfInput) :
    Explains (require wanted) tokens fun _ rest =>
      ∃ token, tokens = token :: rest ∧ token.kind = wanted := by
  refine .bind (.lift (Reading.expect_explains tokens hWanted)) ?_
  rintro passed rest ⟨rfl, hToken⟩
  exact .pure hToken

private theorem number_explains (tokens : List Token) :
    Explains number tokens fun value rest =>
      ∃ token, tokens = token :: rest ∧ token.symbol = .number value := by
  refine .bind (.lift (Reading.current_explains tokens)) ?_
  rintro token _ ⟨rfl, rest, rfl⟩
  split
  · rename_i hKind
    refine .bind (.lift (Reading.advance_explains rest hKind TokenKind.noConfusion)) ?_
    rintro _ _ rfl
    exact .pure ⟨token, rfl, Token.symbol_of_number hKind⟩
  · exact refuse_explains _ _ _

private theorem derived_singleton {tree : Type} {production : List Symbol → tree → Prop}
    {token : Token} {symbol : Symbol} (hSymbol : token.symbol = symbol) {value : tree}
    (hValue : production [symbol] value) (rest : List Token) :
    Derived production (token :: rest) value rest :=
  ⟨[token], rfl, by rw [symbolsOf, List.map_singleton, hSymbol]; exact hValue⟩

theorem index_explains (tokens : List Token) :
    Explains index tokens (Derived IndexOf tokens) := by
  refine .bind (.lift (Reading.current_explains tokens)) ?_
  rintro token _ ⟨rfl, rest, rfl⟩
  split
  · refine .bind (number_explains _) ?_
    rintro value _ ⟨token, hTokens, hSymbol⟩
    refine .bind (.lift (Reading.spanFrom_explains _ _)) ?_
    rintro span later rfl
    rw [hTokens]
    exact .pure (derived_singleton hSymbol (.number span value) later)
  · split
    · rename_i hKind
      refine .bind (get_explains _) ?_
      rintro reader _ rfl
      refine .bind (.lift (Reading.advance_explains rest hKind TokenKind.noConfusion)) ?_
      rintro _ _ rfl
      exact .pure (derived_singleton (Token.symbol_of_identifier hKind) (.name _ _) _)
    · exact refuse_explains _ _ _

theorem reference_explains (tokens : List Token) :
    Explains reference tokens (Derived ReferenceOf tokens) := by
  refine .bind (.lift (Reading.current_explains tokens)) ?_
  rintro name _ ⟨rfl, rest, rfl⟩
  split
  · rename_i hName
    refine .bind (.lift (Reading.advance_explains rest hName TokenKind.noConfusion)) ?_
    rintro _ rest rfl
    refine .bind (.lift (Reading.current_explains rest)) ?_
    rintro token _ ⟨rfl, later, rfl⟩
    split
    · rename_i hOpen
      refine .bind (.lift (Reading.advance_explains later hOpen TokenKind.noConfusion)) ?_
      rintro _ later rfl
      refine .bind (index_explains later) ?_
      rintro found after ⟨used, rfl, hIndex⟩
      refine .bind (require_explains after TokenKind.noConfusion) ?_
      rintro _ final ⟨closing, rfl, hClose⟩
      refine .bind (.lift (Reading.spanFrom_explains _ final)) ?_
      rintro span _ rfl
      refine .pure ⟨name :: token :: (used ++ [closing]), by simp, ?_⟩
      have hElement := ReferenceOf.element span name.literal hIndex
      simpa [Token.symbol_of_identifier hName, Token.symbol_of_sign hOpen, Token.symbol_of_sign hClose]
        using hElement
    · refine .bind (.lift (Reading.spanFrom_explains _ _)) ?_
      rintro span _ rfl
      exact .pure (derived_singleton (Token.symbol_of_identifier hName) (.scalar _ _) _)
  · exact refuse_explains _ _ _

theorem atom_explains (tokens : List Token) : Explains atom tokens (Derived AtomOf tokens) := by
  refine .bind (.lift (Reading.current_explains tokens)) ?_
  rintro token _ ⟨rfl, rest, rfl⟩
  split
  · refine .bind (number_explains _) ?_
    rintro value _ ⟨token, hTokens, hSymbol⟩
    refine .bind (.lift (Reading.spanFrom_explains _ _)) ?_
    rintro span later rfl
    rw [hTokens]
    exact .pure (derived_singleton hSymbol (.number span value) later)
  · split
    · refine .bind (reference_explains _) ?_
      rintro cell later ⟨used, hTokens, hCell⟩
      exact .pure ⟨used, hTokens, .reference hCell⟩
    · exact refuse_explains _ _ _

theorem kind_of_operator? {kind : TokenKind} {operator : Operator}
    (hOperator : operator? kind = some operator) : kind = operator.kind := by
  cases kind <;> cases hOperator <;> rfl

theorem kind_of_relation? {kind : TokenKind} {relation : Relation}
    (hRelation : relation? kind = some relation) : kind = relation.kind := by
  cases kind <;> cases hRelation <;> rfl

private theorem symbol_of_operator {token : Token} {operator : Operator}
    (hKind : token.kind = operator.kind) : token.symbol = .sign operator.kind :=
  Token.symbol_of_sign hKind (by cases operator <;> exact TokenKind.noConfusion)
    (by cases operator <;> exact TokenKind.noConfusion)

private theorem symbol_of_relation {token : Token} {relation : Relation}
    (hKind : token.kind = relation.kind) : token.symbol = .sign relation.kind :=
  Token.symbol_of_sign hKind (by cases relation <;> exact TokenKind.noConfusion)
    (by cases relation <;> exact TokenKind.noConfusion)

theorem expression_explains (tokens : List Token) :
    Explains expression tokens (Derived ExpressionOf tokens) := by
  refine .then_steady (.lift (Reading.current_explains tokens)) (fun _ => @Steady.bind _ _ _ _ _
    fun _ => @Steady.bind _ _ _ _ _ fun _ => by split <;> infer_instance) ?_
  rintro token _ ⟨rfl, -⟩
  refine .then_steady (atom_explains _) (fun _ => @Steady.bind _ _ _ _ _ fun _ => by
    split <;> infer_instance) ?_
  rintro left rest ⟨first, rfl, hLeft⟩
  refine .then_steady (.lift (Reading.current_explains rest)) (fun _ => by
    split <;> infer_instance) ?_
  rintro sign _ ⟨rfl, later, rfl⟩
  split
  · rename_i operator hOperator
    have hKind := kind_of_operator? hOperator
    refine .bind (.lift (Reading.advance_explains later hKind ?_)) ?_
    · cases operator <;> exact TokenKind.noConfusion
    rintro _ later rfl
    refine .bind (atom_explains later) ?_
    rintro right final ⟨second, rfl, hRight⟩
    refine .bind (.lift (Reading.spanFrom_explains _ _)) ?_
    rintro span _ rfl
    refine .pure ⟨first ++ sign :: second, by simp, ?_⟩
    have hOperation := ExpressionOf.operation span hLeft operator hRight
    simpa [symbol_of_operator hKind] using hOperation
  · refine .bind (.lift (Reading.spanFrom_explains _ _)) ?_
    rintro span _ rfl
    exact .pure ⟨first, rfl, .atom span hLeft⟩

theorem condition_explains (tokens : List Token) :
    Explains condition tokens (Derived ConditionOf tokens) := by
  refine .then_steady (.lift (Reading.current_explains tokens)) (fun _ => @Steady.bind _ _ _ _ _
    fun _ => @Steady.bind _ _ _ _ _ fun _ => by split <;> infer_instance) ?_
  rintro token _ ⟨rfl, -⟩
  refine .then_steady (atom_explains _) (fun _ => @Steady.bind _ _ _ _ _ fun _ => by
    split <;> infer_instance) ?_
  rintro left rest ⟨first, rfl, hLeft⟩
  refine .then_steady (.lift (Reading.current_explains rest)) (fun _ => by
    split <;> infer_instance) ?_
  rintro sign _ ⟨rfl, later, rfl⟩
  split
  · rename_i relation hRelation
    have hKind := kind_of_relation? hRelation
    refine .bind (.lift (Reading.advance_explains later hKind ?_)) ?_
    · cases relation <;> exact TokenKind.noConfusion
    rintro _ later rfl
    refine .bind (atom_explains later) ?_
    rintro right final ⟨second, rfl, hRight⟩
    refine .bind (.lift (Reading.spanFrom_explains _ _)) ?_
    rintro span _ rfl
    refine .pure ⟨first ++ sign :: second, by simp, ?_⟩
    have hComparison := ConditionOf.comparison span hLeft relation hRight
    simpa [symbol_of_relation hKind] using hComparison
  · exact refuse_explains _ _ _

private theorem direction_explains (tokens : List Token) :
    Explains direction tokens fun way rest =>
      ∃ token, tokens = token :: rest ∧ token.symbol = .sign way.kind := by
  refine .then_steady (.lift (Reading.current_explains tokens)) (fun _ => by
    split <;> infer_instance) ?_
  rintro token _ ⟨rfl, rest, rfl⟩
  split
  · rename_i hKind
    refine .bind (.lift (Reading.advance_explains rest hKind TokenKind.noConfusion)) ?_
    rintro _ _ rfl
    exact .pure ⟨token, rfl, Token.symbol_of_sign hKind TokenKind.noConfusion TokenKind.noConfusion⟩
  · rename_i hKind
    refine .bind (.lift (Reading.advance_explains rest hKind TokenKind.noConfusion)) ?_
    rintro _ _ rfl
    exact .pure ⟨token, rfl, Token.symbol_of_sign hKind TokenKind.noConfusion TokenKind.noConfusion⟩
  · exact refuse_explains _ _ _

/-! #### Commands -/

theorem assignment_explains (tokens : List Token) :
    Explains assignment tokens (Derived CommandOf tokens) := by
  refine .bind (.lift (Reading.current_explains tokens)) ?_
  rintro token _ ⟨rfl, -⟩
  refine .bind (reference_explains _) ?_
  rintro target rest ⟨first, rfl, hTarget⟩
  refine .bind (require_explains rest TokenKind.noConfusion) ?_
  rintro _ rest ⟨sign, rfl, hSign⟩
  refine .bind (expression_explains rest) ?_
  rintro value rest ⟨second, rfl, hValue⟩
  refine .bind (require_explains rest TokenKind.noConfusion) ?_
  rintro _ rest ⟨closing, rfl, hClosing⟩
  refine .bind (.lift (Reading.spanFrom_explains _ _)) ?_
  rintro span _ rfl
  refine .pure ⟨first ++ sign :: (second ++ [closing]), by simp, ?_⟩
  have hAssign := CommandOf.assign span hTarget hValue
  simpa [Token.symbol_of_sign hSign, Token.symbol_of_sign hClosing] using hAssign

variable {token : Token} (rest : List Token)

theorem readCommand_explains (hKind : token.kind = .readWord) :
    Explains readCommand (token :: rest) (Derived CommandOf (token :: rest)) := by
  refine .bind (.lift (Reading.current_explains _)) ?_
  rintro _ _ ⟨rfl, -⟩
  refine .bind (.lift (Reading.advance_explains rest hKind TokenKind.noConfusion)) ?_
  rintro _ rest rfl
  refine .bind (reference_explains rest) ?_
  rintro target rest ⟨inner, rfl, hTarget⟩
  refine .bind (require_explains rest TokenKind.noConfusion) ?_
  rintro _ rest ⟨closing, rfl, hClosing⟩
  refine .bind (.lift (Reading.spanFrom_explains _ _)) ?_
  rintro span _ rfl
  refine .pure ⟨token :: (inner ++ [closing]), by simp, ?_⟩
  have hRead := CommandOf.read span hTarget
  simpa [Token.symbol_of_sign hKind, Token.symbol_of_sign hClosing] using hRead

theorem writeCommand_explains (hKind : token.kind = .writeWord) :
    Explains writeCommand (token :: rest) (Derived CommandOf (token :: rest)) := by
  refine .bind (.lift (Reading.current_explains _)) ?_
  rintro _ _ ⟨rfl, -⟩
  refine .bind (.lift (Reading.advance_explains rest hKind TokenKind.noConfusion)) ?_
  rintro _ rest rfl
  refine .bind (atom_explains rest) ?_
  rintro value rest ⟨inner, rfl, hValue⟩
  refine .bind (require_explains rest TokenKind.noConfusion) ?_
  rintro _ rest ⟨closing, rfl, hClosing⟩
  refine .bind (.lift (Reading.spanFrom_explains _ _)) ?_
  rintro span _ rfl
  refine .pure ⟨token :: (inner ++ [closing]), by simp, ?_⟩
  have hWrite := CommandOf.write span hValue
  simpa [Token.symbol_of_sign hKind, Token.symbol_of_sign hClosing] using hWrite

theorem skipCommand_explains (hKind : token.kind = .skipWord) :
    Explains skipCommand (token :: rest) (Derived CommandOf (token :: rest)) := by
  refine .bind (.lift (Reading.current_explains _)) ?_
  rintro _ _ ⟨rfl, -⟩
  refine .bind (.lift (Reading.advance_explains rest hKind TokenKind.noConfusion)) ?_
  rintro _ rest rfl
  refine .bind (require_explains rest TokenKind.noConfusion) ?_
  rintro _ rest ⟨closing, rfl, hClosing⟩
  refine .bind (.lift (Reading.spanFrom_explains _ _)) ?_
  rintro span _ rfl
  refine .pure ⟨[token, closing], rfl, ?_⟩
  have hSkip := CommandOf.skip span
  simpa [Token.symbol_of_sign hKind, Token.symbol_of_sign hClosing] using hSkip

section

variable {block : TokenKind → Reading (List Command)} [∀ wanted, Reading.Steady (block wanted)]
  (hBlock : ∀ tokens wanted, wanted ≠ .endOfInput →
    Reading.Explains (block wanted) tokens (Derived CommandsOf tokens))

include hBlock

theorem conditional_explains (hKind : token.kind = .ifWord) :
    Explains (conditional block) (token :: rest) (Derived CommandOf (token :: rest)) := by
  refine .bind (.lift (Reading.current_explains _)) ?_
  rintro _ _ ⟨rfl, -⟩
  refine .bind (.lift (Reading.advance_explains rest hKind TokenKind.noConfusion)) ?_
  rintro _ rest rfl
  refine .bind (condition_explains rest) ?_
  rintro condition rest ⟨test, rfl, hTest⟩
  refine .bind (require_explains rest TokenKind.noConfusion) ?_
  rintro _ rest ⟨thenSign, rfl, hThen⟩
  refine .bind (.lift (hBlock rest _ TokenKind.noConfusion)) ?_
  rintro body rest ⟨inner, rfl, hBody⟩
  refine .bind (.lift (Reading.current_explains rest)) ?_
  rintro sign _ ⟨rfl, later, rfl⟩
  split
  · rename_i hElse
    refine .bind (.lift (Reading.advance_explains later hElse TokenKind.noConfusion)) ?_
    rintro _ later rfl
    refine .bind (.lift (hBlock later _ TokenKind.noConfusion)) ?_
    rintro orElse later ⟨other, rfl, hOrElse⟩
    refine .bind (require_explains later TokenKind.noConfusion) ?_
    rintro _ later ⟨closing, rfl, hClosing⟩
    refine .bind (.lift (Reading.spanFrom_explains _ _)) ?_
    rintro span _ rfl
    simp only [hOrElse.isEmpty_eq, Bool.false_eq_true, if_false]
    refine .pure ⟨token :: (test ++ thenSign :: (inner ++ sign :: (other ++ [closing]))),
      by simp, ?_⟩
    have hIfElse := CommandOf.ifElse span hTest hBody hOrElse
    simpa [Token.symbol_of_sign hKind, Token.symbol_of_sign hThen, Token.symbol_of_sign hElse,
      Token.symbol_of_sign hClosing] using hIfElse
  · refine .bind (require_explains _ TokenKind.noConfusion) ?_
    rintro _ _ ⟨closing, hTokens, hClosing⟩
    obtain ⟨rfl, rfl⟩ := List.cons.inj hTokens
    refine .bind (.lift (Reading.spanFrom_explains _ _)) ?_
    rintro span _ rfl
    refine .pure ⟨token :: (test ++ thenSign :: (inner ++ [sign])), by simp, ?_⟩
    have hIfThen := CommandOf.ifThen span hTest hBody
    simpa [Token.symbol_of_sign hKind, Token.symbol_of_sign hThen,
      Token.symbol_of_sign hClosing] using hIfThen

theorem whileLoop_explains (hKind : token.kind = .whileWord) :
    Explains (whileLoop block) (token :: rest) (Derived CommandOf (token :: rest)) := by
  refine .bind (.lift (Reading.current_explains _)) ?_
  rintro _ _ ⟨rfl, -⟩
  refine .bind (.lift (Reading.advance_explains rest hKind TokenKind.noConfusion)) ?_
  rintro _ rest rfl
  refine .bind (condition_explains rest) ?_
  rintro condition rest ⟨test, rfl, hTest⟩
  refine .bind (require_explains rest TokenKind.noConfusion) ?_
  rintro _ rest ⟨doSign, rfl, hDo⟩
  refine .bind (.lift (hBlock rest _ TokenKind.noConfusion)) ?_
  rintro body rest ⟨inner, rfl, hBody⟩
  refine .bind (require_explains rest TokenKind.noConfusion) ?_
  rintro _ rest ⟨closing, rfl, hClosing⟩
  refine .bind (.lift (Reading.spanFrom_explains _ _)) ?_
  rintro span _ rfl
  refine .pure ⟨token :: (test ++ doSign :: (inner ++ [closing])), by simp, ?_⟩
  have hWhile := CommandOf.whileLoop span hTest hBody
  simpa [Token.symbol_of_sign hKind, Token.symbol_of_sign hDo, Token.symbol_of_sign hClosing]
    using hWhile

theorem forLoop_explains (hKind : token.kind = .forWord) :
    Explains (forLoop block) (token :: rest) (Derived CommandOf (token :: rest)) := by
  refine .bind (.lift (Reading.current_explains _)) ?_
  rintro _ _ ⟨rfl, -⟩
  refine .bind (.lift (Reading.advance_explains rest hKind TokenKind.noConfusion)) ?_
  rintro _ rest rfl
  refine .bind (.lift (Reading.current_explains rest)) ?_
  rintro iterator _ ⟨rfl, rest, rfl⟩
  split
  · rename_i hIterator
    refine .bind (.lift (Reading.advance_explains rest hIterator TokenKind.noConfusion)) ?_
    rintro _ rest rfl
    refine .bind (require_explains rest TokenKind.noConfusion) ?_
    rintro _ rest ⟨fromSign, rfl, hFrom⟩
    refine .bind (atom_explains rest) ?_
    rintro first rest ⟨lower, rfl, hFirst⟩
    refine .bind (direction_explains rest) ?_
    rintro way rest ⟨waySign, rfl, hWay⟩
    refine .bind (atom_explains rest) ?_
    rintro last rest ⟨upper, rfl, hLast⟩
    refine .bind (require_explains rest TokenKind.noConfusion) ?_
    rintro _ rest ⟨doSign, rfl, hDo⟩
    refine .bind (.lift (hBlock rest _ TokenKind.noConfusion)) ?_
    rintro body rest ⟨inner, rfl, hBody⟩
    refine .bind (require_explains rest TokenKind.noConfusion) ?_
    rintro _ rest ⟨closing, rfl, hClosing⟩
    refine .bind (.lift (Reading.spanFrom_explains _ _)) ?_
    rintro span _ rfl
    refine .pure ⟨token :: iterator :: fromSign :: (lower ++ waySign :: (upper ++ doSign ::
      (inner ++ [closing]))), by simp, ?_⟩
    have hFor := CommandOf.forLoop span iterator.literal hFirst way hLast hBody
    simpa [Token.symbol_of_sign hKind, Token.symbol_of_identifier hIterator,
      Token.symbol_of_sign hFrom, hWay, Token.symbol_of_sign hDo, Token.symbol_of_sign hClosing]
      using hFor
  · exact refuse_explains _ _ _

private theorem command_explains (tokens : List Token) :
    Explains (command block) tokens (Derived CommandOf tokens) := by
  refine .then_steady (.lift (Reading.current_explains tokens)) (fun _ => by
    split <;> infer_instance) ?_
  rintro token _ ⟨rfl, rest, rfl⟩
  split
  · exact assignment_explains _
  · exact conditional_explains rest hBlock ‹_›
  · exact whileLoop_explains rest hBlock ‹_›
  · exact forLoop_explains rest hBlock ‹_›
  · exact readCommand_explains rest ‹_›
  · exact writeCommand_explains rest ‹_›
  · exact skipCommand_explains rest ‹_›
  · exact .bind (.lift (Reading.report_explains _ _ fun _ _ => False))
      fun _ _ hFalse => hFalse.elim

end

end Attempt

namespace Reading

theorem run_commands_succ (fuel : Nat) (reader : Reader) :
    (commands (fuel + 1)).run reader =
      if endsCommands reader.current.kind then ([], reader)
      else
        let first := (Attempt.command (block (commands fuel))).run.run reader
        let resumed :=
          if reader.errors.length < first.2.errors.length then
            ((skipToCommand (first.2.rest.length + 2)).run first.2).2
          else first.2
        let later := (commands fuel).run resumed
        (first.1.toList ++ later.1, later.2) := by
  rw [commands, StateT.run_bind]
  change StateT.run (if endsCommands reader.current.kind = true then _ else _) reader = _
  split
  · rfl
  · rw [StateT.run_bind]
    change StateT.run (if reader.errors.length < ((Attempt.command
      (block (commands fuel))).run.run reader).2.errors.length then _ else _) _ = _
    dsimp only
    split <;> rfl

/-- A round that reports nothing skips nothing. -/
theorem run_commands_quiet {fuel : Nat} {reader : Reader}
    (hStarts : ¬ endsCommands reader.current.kind = true)
    (hSame : ((commands (fuel + 1)).run reader).2.errors = reader.errors) :
    ∃ first : Option Command × Reader,
      (Attempt.command (block (commands fuel))).run.run reader = first ∧
        first.2.errors = reader.errors ∧
        ((commands fuel).run first.2).2.errors = first.2.errors ∧
        (commands (fuel + 1)).run reader =
          (first.1.toList ++ ((commands fuel).run first.2).1, ((commands fuel).run first.2).2) := by
  rw [run_commands_succ, if_neg hStarts] at hSame ⊢
  simp only at hSame ⊢
  generalize hCommand : (Attempt.command (block (commands fuel))).run.run reader = first at hSame ⊢
  have hFirst : reader.Leads first.2 := by
    rw [← hCommand]
    exact (run_steady (Attempt.command (block (commands fuel)))).leads reader
  have hResumed : first.2.Leads (if reader.errors.length < first.2.errors.length then
      ((skipToCommand (first.2.rest.length + 2)).run first.2).2 else first.2) := by
    split
    · exact (skipToCommand_steady _).leads _
    · exact .refl
  obtain ⟨hEarly, hLate⟩ :=
    hFirst.errors_eq (hResumed.trans ((commands_steady fuel).leads _)) hSame
  have hKept : ¬ reader.errors.length < first.2.errors.length := by
    rw [hEarly]
    exact Nat.lt_irrefl _
  rw [if_neg hKept] at hLate ⊢
  exact ⟨first, rfl, hEarly, hLate, rfl⟩

theorem block_explains {commands : Reading (List Command)} [Steady commands] {tokens : List Token}
    (hCommands : Explains commands tokens fun found rest =>
      found = [] ∧ rest = tokens ∨ Attempt.Derived CommandsOf tokens found rest)
    {wanted : TokenKind} (hWanted : wanted ≠ .endOfInput) :
    Explains (block commands wanted) tokens (Attempt.Derived CommandsOf tokens) := by
  refine .bind hCommands ?_
  rintro found rest (⟨rfl, rfl⟩ | hDerived)
  · simp only [List.isEmpty_nil, hWanted, ne_eq, not_false_eq_true, decide_true, Bool.and_self,
      if_true]
    exact .bind (report_explains _ _ fun _ _ => False) fun _ _ hFalse => hFalse.elim
  · obtain ⟨used, rfl, hFound⟩ := hDerived
    simp only [hFound.isEmpty_eq, Bool.false_and, Bool.false_eq_true, if_false]
    exact .pure ⟨used, rfl, hFound⟩

theorem commands_explains (fuel : Nat) (tokens : List Token) :
    Explains (commands fuel) tokens fun found rest =>
      found = [] ∧ rest = tokens ∨ Attempt.Derived CommandsOf tokens found rest := by
  induction fuel generalizing tokens with
  | zero => exact .pure (.inl ⟨rfl, rfl⟩)
  | succ fuel inductionHypothesis =>
      intro reader hAt hSame
      by_cases hEnds : endsCommands reader.current.kind = true
      · rw [run_commands_succ, if_pos hEnds]
        exact ⟨tokens, hAt, .inl ⟨rfl, rfl⟩⟩
      · obtain ⟨first, hCommand, hEarly, hLate, hRun⟩ := run_commands_quiet hEnds hSame
        obtain ⟨rest, hRest, command, hFound, used, rfl, hCommandOf⟩ :=
          Attempt.command_explains (fun _ _ hWanted => block_explains (inductionHypothesis _) hWanted)
            tokens reader hAt (by rw [hCommand]; exact hEarly)
        rw [hCommand] at hRest hFound
        obtain ⟨last, hLast, hDerived⟩ := inductionHypothesis rest first.2 hRest hLate
        rw [hRun]
        refine ⟨last, hLast, .inr ?_⟩
        rw [hFound]
        rcases hDerived with ⟨hNone, rfl⟩ | ⟨more, rfl, hMore⟩
        · rw [hNone]
          exact ⟨used, rfl, .one hCommandOf⟩
        · exact ⟨used ++ more, (List.append_assoc _ _ _).symm, by
            rw [symbolsOf, List.map_append]
            exact .more hCommandOf hMore⟩

private theorem declarations_explains (fuel : Nat) (tokens : List Token) :
    Explains (declarations fuel) tokens (Attempt.Derived DeclarationsOf tokens) := by
  induction fuel generalizing tokens with
  | zero => exact .pure ⟨[], rfl, .none⟩
  | succ fuel inductionHypothesis =>
      refine .bind (current_explains tokens) ?_
      rintro name _ ⟨rfl, rest, rfl⟩
      split
      · rename_i hName
        refine .bind (advance_explains rest hName TokenKind.noConfusion) ?_
        rintro _ rest rfl
        refine .bind (current_explains rest) ?_
        rintro opening _ ⟨rfl, later, rfl⟩
        dsimp only
        split
        · rename_i hOpen
          refine .bind (advance_explains later hOpen TokenKind.noConfusion) ?_
          rintro _ later rfl
          refine .bind (Attempt.number_explains later) ?_
          rintro _ later ⟨length, rfl, number, rfl, hNumber⟩
          refine .bind (expect_explains later TokenKind.noConfusion) ?_
          rintro _ later ⟨rfl, closing, rfl, hClose⟩
          refine .bind (spanFrom_explains _ _) ?_
          rintro span later rfl
          refine .bind (inductionHypothesis later) ?_
          rintro others final ⟨used, rfl, hOthers⟩
          refine .pure ⟨name :: opening :: number :: closing :: used, by simp, ?_⟩
          have hArray := DeclarationsOf.more (.array span name.literal length) hOthers
          simpa [Token.symbol_of_identifier hName, Token.symbol_of_sign hOpen, hNumber,
            Token.symbol_of_sign hClose] using hArray
        · refine .bind (spanFrom_explains _ _) ?_
          rintro span _ rfl
          refine .bind (inductionHypothesis _) ?_
          rintro others final ⟨used, hTokens, hOthers⟩
          refine .pure ⟨name :: used, by rw [hTokens, List.cons_append], ?_⟩
          have hScalar := DeclarationsOf.more (.scalar span name.literal) hOthers
          simpa [Token.symbol_of_identifier hName] using hScalar
      · exact .pure ⟨[], rfl, .none⟩

theorem program_explains {tokens : List Token} (hClean : Reader.Clean tokens) :
    Explains program tokens fun found _ => ∃ program used last, found = some program ∧
      tokens = used ++ [last] ∧ ProgramOf (symbolsOf used) program := by
  refine .bind (current_explains tokens) ?_
  rintro first _ ⟨rfl, -⟩
  refine .bind (expect_explains _ TokenKind.noConfusion) ?_
  rintro _ rest ⟨rfl, opening, rfl, hVar⟩
  rw [if_pos rfl]
  refine .bind (bound_explains rest) ?_
  rintro fuel rest rfl
  refine .bind (declarations_explains fuel rest) ?_
  rintro declared rest ⟨used, rfl, hDeclared⟩
  refine .bind (expect_explains rest TokenKind.noConfusion) ?_
  rintro _ rest ⟨rfl, begins, rfl, hBegin⟩
  refine .bind (bound_explains rest) ?_
  rintro fuel rest rfl
  refine .bind (block_explains (commands_explains fuel rest) TokenKind.noConfusion) ?_
  rintro body rest ⟨inner, rfl, hBody⟩
  refine .bind (expect_explains rest TokenKind.noConfusion) ?_
  rintro _ rest ⟨rfl, ends, rfl, hEnd⟩
  refine .bind (current_explains rest) ?_
  rintro last _ ⟨rfl, later, rfl⟩
  dsimp only
  split
  · exact .bind (report_explains _ _ fun _ _ => False) fun _ _ hFalse => hFalse.elim
  · rename_i hLast
    refine .bind (spanFrom_explains _ _) ?_
    rintro span _ rfl
    refine .pure ⟨_, opening :: (used ++ begins :: (inner ++ [ends])), last, rfl, ?_, ?_⟩
    · have hEnded : Reader.Clean ((opening :: (used ++ begins :: (inner ++ [ends]))) ++
          last :: later) := by
        simpa using hClean
      rw [hEnded.eq_nil_of_append (not_not.mp hLast)]
      simp
    · have hProgram := ProgramOf.program span hDeclared hBody
      simpa [Token.symbol_of_sign hVar, Token.symbol_of_sign hBegin, Token.symbol_of_sign hEnd]
        using hProgram

end Reading

end RegisterCompiler
