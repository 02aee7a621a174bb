/-
Programs are read as the grammar says.

Where the symbols ahead derive a tree, and what follows cannot be part of it, reading finds
no fault and gives that tree, up to places.  Together with the converse, a text is read
exactly if all its tokens spell something and its symbols derive a program, and there is
only one such program.
-/

import Mathlib.Data.List.TakeWhile
import RegisterCompiler.Proofs.Program.Derivation

set_option autoImplicit false

namespace RegisterCompiler

open Source (Position Span)
open Text (Bytes)
open Grammar

/-! ### Tokens of symbols -/

theorem exists_of_symbols_cons {used : List Token} {symbol : Symbol} {later : List Symbol}
    (hUsed : symbolsOf used = symbol :: later) :
    ∃ token rest, used = token :: rest ∧ token.symbol = symbol ∧ symbolsOf rest = later := by
  obtain ⟨token, rest, rfl, hToken, hRest⟩ := List.map_eq_cons_iff.mp hUsed
  exact ⟨token, rest, rfl, hToken, hRest⟩

private theorem exists_of_symbols_append {used : List Token} {first second : List Symbol}
    (hUsed : symbolsOf used = first ++ second) :
    ∃ front back, used = front ++ back ∧ symbolsOf front = first ∧ symbolsOf back = second := by
  obtain ⟨front, back, rfl, hFront, hBack⟩ := List.map_eq_append_iff.mp hUsed
  exact ⟨front, back, rfl, hFront, hBack⟩

private theorem exists_of_symbols_singleton {used : List Token} {symbol : Symbol}
    (hUsed : symbolsOf used = [symbol]) : ∃ token, used = [token] ∧ token.symbol = symbol := by
  obtain ⟨token, rest, rfl, hToken, hRest⟩ := exists_of_symbols_cons hUsed
  rw [List.map_eq_nil_iff.mp hRest]
  exact ⟨token, rfl, hToken⟩

namespace Reading

variable {α β : Type}

/-- Reading that finds no fault and leaves the tokens `rest`. -/
def Accepts (reading : Reading α) (tokens rest : List Token) (post : α → Prop) : Prop :=
  ∀ reader : Reader, reader.At tokens → post (reading.run reader).1 ∧
    (reading.run reader).2.At rest ∧ (reading.run reader).2.errors = reader.errors

namespace Accepts

variable {tokens middle rest : List Token} {post : α → Prop}

private theorem pure {value : α} (hPost : post value) : Accepts (pure value) tokens tokens post :=
  fun _ hAt => ⟨hPost, hAt, rfl⟩

private theorem bind {reading : Reading β} {next : β → Reading α} {found : β → Prop}
    (hFirst : Accepts reading tokens middle found)
    (hNext : ∀ value, found value → Accepts (next value) middle rest post) :
    Accepts (reading >>= next) tokens rest post := by
  intro reader hAt
  obtain ⟨hFound, hMiddle, hErrors⟩ := hFirst reader hAt
  obtain ⟨hPost, hRest, hLater⟩ := hNext _ hFound _ hMiddle
  exact ⟨hPost, hRest, hLater.trans hErrors⟩

end Accepts

private theorem current_accepts (token : Token) (rest : List Token) :
    Accepts current (token :: rest) (token :: rest) (· = token) :=
  fun _ hAt => ⟨hAt.current_eq, hAt, rfl⟩

private theorem place_accepts (tokens : List Token) : Accepts current tokens tokens fun _ => True :=
  fun _ hAt => ⟨trivial, hAt, rfl⟩

private theorem advance_accepts {token : Token} {kind : TokenKind} (rest : List Token)
    (hKind : token.kind = kind) (hMoves : kind ≠ .endOfInput) :
    Accepts advance (token :: rest) rest fun _ => True :=
  fun _ hAt => ⟨trivial, hAt.advance (hKind ▸ hMoves)⟩

private theorem spanFrom_accepts (first : Position) (tokens : List Token) :
    Accepts (spanFrom first) tokens tokens fun _ => True :=
  fun _ hAt => ⟨trivial, hAt, rfl⟩

private theorem bound_accepts (tokens : List Token) :
    Accepts bound tokens tokens (tokens.length ≤ ·) :=
  fun _ hAt => ⟨hAt.length_le, hAt, rfl⟩

private theorem expect_accepts {token : Token} {wanted : TokenKind} (rest : List Token)
    (hKind : token.kind = wanted) (hMoves : wanted ≠ .endOfInput) :
    Accepts (expect wanted) (token :: rest) rest (· = true) := by
  refine .bind (current_accepts token rest) ?_
  rintro _ rfl
  rw [if_pos hKind]
  exact .bind (advance_accepts rest hKind hMoves) fun _ _ => .pure rfl

end Reading

namespace Attempt

variable {α β : Type}

def Accepts (attempt : Attempt α) (tokens rest : List Token) (post : α → Prop) : Prop :=
  Reading.Accepts attempt.run tokens rest fun found => ∃ value, found = some value ∧ post value

namespace Accepts

variable {tokens middle rest : List Token} {post : α → Prop}

private theorem pure {value : α} (hPost : post value) : Accepts (pure value) tokens tokens post :=
  Reading.Accepts.pure ⟨value, rfl, hPost⟩

private theorem lift {reading : Reading α} (hReading : Reading.Accepts reading tokens rest post) :
    Accepts (liftM reading) tokens rest post :=
  Reading.Accepts.bind hReading fun value hPost => Reading.Accepts.pure ⟨value, rfl, hPost⟩

private theorem bind {attempt : Attempt β} {next : β → Attempt α} {found : β → Prop}
    (hFirst : Accepts attempt tokens middle found)
    (hNext : ∀ value, found value → Accepts (next value) middle rest post) :
    Accepts (attempt >>= next) tokens rest post := by
  rw [Accepts, OptionT.run_bind, Option.elimM]
  refine Reading.Accepts.bind hFirst ?_
  rintro _ ⟨value, rfl, hFound⟩
  exact hNext value hFound

private theorem spanned {first : Position} {finish : Span → α}
    (hPost : ∀ span, post (finish span)) :
    Accepts (liftM (Reading.spanFrom first) >>= fun span => Pure.pure (finish span)) tokens tokens
      post :=
  bind (lift (Reading.spanFrom_accepts first tokens)) fun span _ => pure (hPost span)

end Accepts

private theorem get_accepts (tokens : List Token) :
    Accepts (MonadState.get : Attempt Reader) tokens tokens fun _ => True :=
  fun reader hAt => ⟨⟨reader, rfl, trivial⟩, hAt, rfl⟩

private theorem require_accepts {token : Token} {wanted : TokenKind} (rest : List Token)
    (hSymbol : token.symbol = .sign wanted) (hMoves : wanted ≠ .endOfInput) :
    Accepts (require wanted) (token :: rest) rest fun _ => True := by
  refine .bind (.lift (Reading.expect_accepts rest (Token.kind_of_symbol hSymbol) hMoves)) ?_
  rintro _ rfl
  exact .pure trivial

private theorem number_accepts {token : Token} {value : Nat} (rest : List Token)
    (hSymbol : token.symbol = .number value) :
    Accepts number (token :: rest) rest (· = value) := by
  obtain ⟨hKind, hValue⟩ := Token.of_symbol_number hSymbol
  refine .bind (.lift (Reading.current_accepts token rest)) ?_
  rintro _ rfl
  rw [if_pos hKind]
  exact .bind (.lift (Reading.advance_accepts rest hKind TokenKind.noConfusion)) fun _ _ =>
    .pure hValue

private theorem index_accepts {used : List Token} {found : Index}
    (hIndex : IndexOf (symbolsOf used) found) (rest : List Token) :
    Accepts index (used ++ rest) rest (·.bare = found.bare) := by
  generalize hUsed : symbolsOf used = symbols at hIndex
  cases hIndex with
  | number span value =>
      obtain ⟨token, rfl, hSymbol⟩ := exists_of_symbols_singleton hUsed
      refine .bind (.lift (Reading.current_accepts token rest)) ?_
      rintro _ rfl
      rw [if_pos (Token.of_symbol_number hSymbol).1]
      refine .bind (number_accepts rest hSymbol) ?_
      rintro _ rfl
      exact .spanned fun _ => rfl
  | name span name =>
      obtain ⟨token, rfl, hSymbol⟩ := exists_of_symbols_singleton hUsed
      obtain ⟨hKind, rfl⟩ := Token.of_symbol_name hSymbol
      refine .bind (.lift (Reading.current_accepts token rest)) ?_
      rintro _ rfl
      rw [if_neg (hKind ▸ TokenKind.noConfusion), if_pos hKind]
      exact .bind (get_accepts _) fun _ _ => .bind
        (.lift (Reading.advance_accepts rest hKind TokenKind.noConfusion)) fun _ _ => .pure rfl

private theorem reference_accepts {used : List Token} {cell : Reference}
    (hCell : ReferenceOf (symbolsOf used) cell) {next : Token} (hNext : next.kind ≠ .openBracket)
    (rest : List Token) :
    Accepts reference (used ++ next :: rest) (next :: rest) (·.bare = cell.bare) := by
  generalize hUsed : symbolsOf used = symbols at hCell
  cases hCell with
  | scalar span name =>
      obtain ⟨token, rfl, hSymbol⟩ := exists_of_symbols_singleton hUsed
      obtain ⟨hKind, rfl⟩ := Token.of_symbol_name hSymbol
      refine .bind (.lift (Reading.current_accepts token (next :: rest))) ?_
      rintro _ rfl
      rw [if_pos hKind]
      refine .bind (.lift (Reading.advance_accepts _ hKind TokenKind.noConfusion)) fun _ _ => ?_
      refine .bind (.lift (Reading.current_accepts next rest)) ?_
      rintro _ rfl
      rw [if_neg hNext]
      exact .spanned fun _ => rfl
  | element span name hIndex =>
      obtain ⟨token, used, rfl, hSymbol, hUsed⟩ := exists_of_symbols_cons hUsed
      obtain ⟨opening, used, rfl, hOpen, hUsed⟩ := exists_of_symbols_cons hUsed
      obtain ⟨inner, last, rfl, rfl, hLast⟩ := exists_of_symbols_append hUsed
      obtain ⟨closing, rfl, hClose⟩ := exists_of_symbols_singleton hLast
      obtain ⟨hKind, rfl⟩ := Token.of_symbol_name hSymbol
      have hOpenKind := Token.kind_of_symbol hOpen
      simp only [List.cons_append, List.append_assoc, List.nil_append]
      refine .bind (.lift (Reading.current_accepts token _)) ?_
      rintro _ rfl
      rw [if_pos hKind]
      refine .bind (.lift (Reading.advance_accepts _ hKind TokenKind.noConfusion)) fun _ _ => ?_
      refine .bind (.lift (Reading.current_accepts opening _)) ?_
      rintro _ rfl
      rw [if_pos hOpenKind]
      refine .bind (.lift (Reading.advance_accepts _ hOpenKind TokenKind.noConfusion)) fun _ _ => ?_
      refine .bind (index_accepts hIndex _) fun found hFound => ?_
      refine .bind (require_accepts _ hClose TokenKind.noConfusion) fun _ _ => ?_
      exact .spanned fun _ => by simp only [Reference.bare, Option.map_some, hFound]

private theorem exists_name_of_referenceOf {used : List Token} {cell : Reference}
    (hCell : ReferenceOf (symbolsOf used) cell) :
    ∃ token rest, used = token :: rest ∧ token.kind = .identifier := by
  generalize hUsed : symbolsOf used = symbols at hCell
  cases hCell with
  | scalar span name =>
      obtain ⟨token, rest, rfl, hSymbol, -⟩ := exists_of_symbols_cons hUsed
      exact ⟨token, rest, rfl, (Token.of_symbol_name hSymbol).1⟩
  | element span name hIndex =>
      obtain ⟨token, rest, rfl, hSymbol, -⟩ := exists_of_symbols_cons hUsed
      exact ⟨token, rest, rfl, (Token.of_symbol_name hSymbol).1⟩

private theorem atom_accepts {used : List Token} {value : Atom}
    (hValue : AtomOf (symbolsOf used) value) {next : Token} (hNext : next.kind ≠ .openBracket)
    (rest : List Token) :
    Accepts atom (used ++ next :: rest) (next :: rest) (·.bare = value.bare) := by
  generalize hUsed : symbolsOf used = symbols at hValue
  cases hValue with
  | number span value =>
      obtain ⟨token, rfl, hSymbol⟩ := exists_of_symbols_singleton hUsed
      refine .bind (.lift (Reading.current_accepts token _)) ?_
      rintro _ rfl
      rw [if_pos (Token.of_symbol_number hSymbol).1]
      refine .bind (number_accepts _ hSymbol) ?_
      rintro _ rfl
      exact .spanned fun _ => rfl
  | reference hCell =>
      rw [← hUsed] at hCell
      have hReads := reference_accepts hCell hNext rest
      obtain ⟨token, later, rfl, hKind⟩ := exists_name_of_referenceOf hCell
      refine .bind (.lift (Reading.current_accepts token _)) ?_
      rintro _ rfl
      rw [if_neg (hKind ▸ TokenKind.noConfusion), if_pos hKind]
      exact .bind hReads fun found hFound => .pure (by simp only [Atom.bare, hFound])

private theorem operator?_kind (operator : Operator) : operator? operator.kind = some operator := by
  cases operator <;> rfl

private theorem relation?_kind (relation : Relation) : relation? relation.kind = some relation := by
  cases relation <;> rfl

private theorem expression_accepts {used : List Token} {value : Expression}
    (hValue : ExpressionOf (symbolsOf used) value) {next : Token}
    (hNext : next.symbol = .sign .semicolon) (rest : List Token) :
    Accepts expression (used ++ next :: rest) (next :: rest) (·.bare = value.bare) := by
  have hSemicolon := Token.kind_of_symbol hNext
  generalize hUsed : symbolsOf used = symbols at hValue
  cases hValue with
  | atom span hValue =>
      rw [← hUsed] at hValue
      refine .bind (.lift (Reading.place_accepts _)) fun first _ => ?_
      refine .bind (atom_accepts hValue (hSemicolon ▸ TokenKind.noConfusion) rest)
        fun left hLeft => ?_
      refine .bind (.lift (Reading.current_accepts next rest)) ?_
      rintro _ rfl
      rw [hSemicolon]
      exact .spanned fun _ => by simp only [Expression.bare, hLeft]
  | operation span hLeft operator hRight =>
      obtain ⟨front, back, rfl, rfl, hBack⟩ := exists_of_symbols_append hUsed
      obtain ⟨sign, back, rfl, hSign, rfl⟩ := exists_of_symbols_cons hBack
      have hKind := Token.kind_of_symbol hSign
      simp only [List.cons_append, List.append_assoc]
      refine .bind (.lift (Reading.place_accepts _)) fun first _ => ?_
      refine .bind (atom_accepts hLeft ?_ _) fun left hLeft => ?_
      · rw [hKind]
        cases operator <;> exact TokenKind.noConfusion
      refine .bind (.lift (Reading.current_accepts sign _)) ?_
      rintro _ rfl
      rw [hKind, operator?_kind]
      refine .bind (.lift (Reading.advance_accepts _ hKind ?_)) fun _ _ => ?_
      · cases operator <;> exact TokenKind.noConfusion
      refine .bind (atom_accepts hRight (hSemicolon ▸ TokenKind.noConfusion) rest)
        fun right hRight => ?_
      exact .spanned fun _ => by simp only [Expression.bare, hLeft, hRight]

private theorem condition_accepts {used : List Token} {found : Condition}
    (hFound : ConditionOf (symbolsOf used) found) {next : Token}
    (hNext : next.kind ≠ .openBracket) (rest : List Token) :
    Accepts condition (used ++ next :: rest) (next :: rest) (·.bare = found.bare) := by
  generalize hUsed : symbolsOf used = symbols at hFound
  cases hFound with
  | comparison span hLeft relation hRight =>
      obtain ⟨front, back, rfl, rfl, hBack⟩ := exists_of_symbols_append hUsed
      obtain ⟨sign, back, rfl, hSign, rfl⟩ := exists_of_symbols_cons hBack
      have hKind := Token.kind_of_symbol hSign
      simp only [List.cons_append, List.append_assoc]
      refine .bind (.lift (Reading.place_accepts _)) fun first _ => ?_
      refine .bind (atom_accepts hLeft ?_ _) fun left hLeft => ?_
      · rw [hKind]
        cases relation <;> exact TokenKind.noConfusion
      refine .bind (.lift (Reading.current_accepts sign _)) ?_
      rintro _ rfl
      rw [hKind, relation?_kind]
      refine .bind (.lift (Reading.advance_accepts _ hKind ?_)) fun _ _ => ?_
      · cases relation <;> exact TokenKind.noConfusion
      refine .bind (atom_accepts hRight hNext rest) fun right hRight => ?_
      exact .spanned fun _ => by simp only [Condition.bare, hLeft, hRight]

private theorem direction_accepts {token : Token} {way : Direction}
    (hSymbol : token.symbol = .sign way.kind) (rest : List Token) :
    Accepts direction (token :: rest) rest (· = way) := by
  have hKind := Token.kind_of_symbol hSymbol
  refine .bind (.lift (Reading.current_accepts token rest)) ?_
  rintro _ rfl
  rw [hKind]
  cases way with
  | up =>
      exact .bind (.lift (Reading.advance_accepts rest hKind TokenKind.noConfusion)) fun _ _ =>
        .pure rfl
  | down =>
      exact .bind (.lift (Reading.advance_accepts rest hKind TokenKind.noConfusion)) fun _ _ =>
        .pure rfl

/-! ### Commands -/

theorem assignment_accepts {first second : List Token} {target : Reference} {value : Expression}
    (span : Span) (hTarget : ReferenceOf (symbolsOf first) target) {sign closing : Token}
    (hSign : sign.symbol = .sign .assign) (hValue : ExpressionOf (symbolsOf second) value)
    (hClosing : closing.symbol = .sign .semicolon) (rest : List Token) :
    Accepts assignment (first ++ sign :: (second ++ closing :: rest)) rest
      (·.bare = (Command.assign span target value).bare) := by
  refine .bind (.lift (Reading.place_accepts _)) fun first _ => ?_
  refine .bind (reference_accepts hTarget (Token.kind_of_symbol hSign ▸ TokenKind.noConfusion) _)
    fun found hFound => ?_
  refine .bind (require_accepts _ hSign TokenKind.noConfusion) fun _ _ => ?_
  refine .bind (expression_accepts hValue hClosing _) fun result hResult => ?_
  refine .bind (require_accepts _ hClosing TokenKind.noConfusion) fun _ _ => ?_
  exact .spanned fun _ => by simp only [Command.bare, hFound, hResult]

variable {token closing : Token}

private theorem readCommand_accepts {inner : List Token} {target : Reference} (span : Span)
    (hKind : token.kind = .readWord) (hTarget : ReferenceOf (symbolsOf inner) target)
    (hClosing : closing.symbol = .sign .semicolon) (rest : List Token) :
    Accepts readCommand (token :: (inner ++ closing :: rest)) rest
      (·.bare = (Command.read span target).bare) := by
  refine .bind (.lift (Reading.place_accepts _)) fun first _ => ?_
  refine .bind (.lift (Reading.advance_accepts _ hKind TokenKind.noConfusion)) fun _ _ => ?_
  refine .bind (reference_accepts hTarget (Token.kind_of_symbol hClosing ▸ TokenKind.noConfusion) _)
    fun found hFound => ?_
  refine .bind (require_accepts _ hClosing TokenKind.noConfusion) fun _ _ => ?_
  exact .spanned fun _ => by simp only [Command.bare, hFound]

private theorem writeCommand_accepts {inner : List Token} {value : Atom} (span : Span)
    (hKind : token.kind = .writeWord) (hValue : AtomOf (symbolsOf inner) value)
    (hClosing : closing.symbol = .sign .semicolon) (rest : List Token) :
    Accepts writeCommand (token :: (inner ++ closing :: rest)) rest
      (·.bare = (Command.write span value).bare) := by
  refine .bind (.lift (Reading.place_accepts _)) fun first _ => ?_
  refine .bind (.lift (Reading.advance_accepts _ hKind TokenKind.noConfusion)) fun _ _ => ?_
  refine .bind (atom_accepts hValue (Token.kind_of_symbol hClosing ▸ TokenKind.noConfusion) _)
    fun found hFound => ?_
  refine .bind (require_accepts _ hClosing TokenKind.noConfusion) fun _ _ => ?_
  exact .spanned fun _ => by simp only [Command.bare, hFound]

private theorem skipCommand_accepts (span : Span) (hKind : token.kind = .skipWord)
    (hClosing : closing.symbol = .sign .semicolon) (rest : List Token) :
    Accepts skipCommand (token :: closing :: rest) rest
      (·.bare = (Command.skip span).bare) := by
  refine .bind (.lift (Reading.place_accepts _)) fun first _ => ?_
  refine .bind (.lift (Reading.advance_accepts _ hKind TokenKind.noConfusion)) fun _ _ => ?_
  refine .bind (require_accepts _ hClosing TokenKind.noConfusion) fun _ _ => ?_
  exact .spanned fun _ => rfl

section

/-- Reading a command list of at most so many tokens, behind which a list can end. -/
def AcceptsBlocks (block : TokenKind → Reading (List Command)) (size : Nat) : Prop :=
  ∀ {used : List Token} {body : List Command}, CommandsOf (symbolsOf used) body →
    used.length ≤ size → ∀ {next : Token}, Reading.endsCommands next.kind = true →
    ∀ (rest : List Token) (wanted : TokenKind),
      Reading.Accepts (block wanted) (used ++ next :: rest) (next :: rest) fun found =>
        Command.allBare found = Command.allBare body

variable {block : TokenKind → Reading (List Command)} {size : Nat}
  (hBlock : AcceptsBlocks block size)

include hBlock

private theorem whileLoop_accepts {test inner : List Token} {condition : Condition}
    {body : List Command} (span : Span) (hKind : token.kind = .whileWord)
    (hTest : ConditionOf (symbolsOf test) condition) {doSign : Token}
    (hDo : doSign.symbol = .sign .doWord) (hBody : CommandsOf (symbolsOf inner) body)
    (hSize : inner.length ≤ size) (hClosing : closing.symbol = .sign .endWhileWord)
    (rest : List Token) :
    Accepts (whileLoop block) (token :: (test ++ doSign :: (inner ++ closing :: rest))) rest
      (·.bare = (Command.whileLoop span condition body).bare) := by
  have hEnds : Reading.endsCommands closing.kind = true := by
    rw [Token.kind_of_symbol hClosing]
    rfl
  refine .bind (.lift (Reading.place_accepts _)) fun first _ => ?_
  refine .bind (.lift (Reading.advance_accepts _ hKind TokenKind.noConfusion)) fun _ _ => ?_
  refine .bind (condition_accepts hTest (Token.kind_of_symbol hDo ▸ TokenKind.noConfusion) _)
    fun found hFound => ?_
  refine .bind (require_accepts _ hDo TokenKind.noConfusion) fun _ _ => ?_
  refine .bind (.lift (hBlock hBody hSize hEnds _ _)) fun commands hCommands => ?_
  refine .bind (require_accepts _ hClosing TokenKind.noConfusion) fun _ _ => ?_
  exact .spanned fun _ => by simp only [Command.bare, hFound, hCommands]

private theorem forLoop_accepts {lower upper inner : List Token} {first last : Atom}
    {way : Direction} {body : List Command} (span : Span) (hKind : token.kind = .forWord)
    {iterator fromSign : Token} (hIterator : iterator.kind = .identifier)
    (hFrom : fromSign.symbol = .sign .fromWord)
    (hFirst : AtomOf (symbolsOf lower) first) {waySign : Token}
    (hWay : waySign.symbol = .sign way.kind) (hLast : AtomOf (symbolsOf upper) last)
    {doSign : Token} (hDo : doSign.symbol = .sign .doWord)
    (hBody : CommandsOf (symbolsOf inner) body) (hSize : inner.length ≤ size)
    (hClosing : closing.symbol = .sign .endForWord) (rest : List Token) :
    Accepts (forLoop block) (token :: iterator :: fromSign :: (lower ++ waySign :: (upper ++
        doSign :: (inner ++ closing :: rest)))) rest
      (·.bare = (Command.forLoop span iterator.literal first last way body).bare) := by
  have hEnds : Reading.endsCommands closing.kind = true := by
    rw [Token.kind_of_symbol hClosing]
    rfl
  refine .bind (.lift (Reading.place_accepts _)) fun _ _ => ?_
  refine .bind (.lift (Reading.advance_accepts _ hKind TokenKind.noConfusion)) fun _ _ => ?_
  refine .bind (.lift (Reading.current_accepts iterator _)) ?_
  rintro _ rfl
  rw [if_pos hIterator]
  refine .bind (.lift (Reading.advance_accepts _ hIterator TokenKind.noConfusion)) fun _ _ => ?_
  refine .bind (require_accepts _ hFrom TokenKind.noConfusion) fun _ _ => ?_
  refine .bind (atom_accepts hFirst ?_ _) fun low hLow => ?_
  · rw [Token.kind_of_symbol hWay]
    cases way <;> exact TokenKind.noConfusion
  refine .bind (direction_accepts hWay _) ?_
  rintro _ rfl
  refine .bind (atom_accepts hLast (Token.kind_of_symbol hDo ▸ TokenKind.noConfusion) _)
    fun high hHigh => ?_
  refine .bind (require_accepts _ hDo TokenKind.noConfusion) fun _ _ => ?_
  refine .bind (.lift (hBlock hBody hSize hEnds _ _)) fun commands hCommands => ?_
  refine .bind (require_accepts _ hClosing TokenKind.noConfusion) fun _ _ => ?_
  exact .spanned fun _ => by simp only [Command.bare, hLow, hHigh, hCommands]

private theorem ifThen_accepts {test inner : List Token} {condition : Condition}
    {body : List Command}
    (span : Span) (hKind : token.kind = .ifWord) (hTest : ConditionOf (symbolsOf test) condition)
    {thenSign : Token} (hThen : thenSign.symbol = .sign .thenWord)
    (hBody : CommandsOf (symbolsOf inner) body) (hSize : inner.length ≤ size)
    (hClosing : closing.symbol = .sign .endIfWord) (rest : List Token) :
    Accepts (conditional block) (token :: (test ++ thenSign :: (inner ++ closing :: rest))) rest
      (·.bare = (Command.ifThen span condition body).bare) := by
  have hEndKind := Token.kind_of_symbol hClosing
  have hEnds : Reading.endsCommands closing.kind = true := by
    rw [hEndKind]
    rfl
  refine .bind (.lift (Reading.place_accepts _)) fun first _ => ?_
  refine .bind (.lift (Reading.advance_accepts _ hKind TokenKind.noConfusion)) fun _ _ => ?_
  refine .bind (condition_accepts hTest (Token.kind_of_symbol hThen ▸ TokenKind.noConfusion) _)
    fun found hFound => ?_
  refine .bind (require_accepts _ hThen TokenKind.noConfusion) fun _ _ => ?_
  refine .bind (.lift (hBlock hBody hSize hEnds _ _)) fun commands hCommands => ?_
  refine .bind (.lift (Reading.current_accepts closing rest)) ?_
  rintro _ rfl
  rw [if_neg (hEndKind ▸ TokenKind.noConfusion)]
  refine .bind (require_accepts _ hClosing TokenKind.noConfusion) fun _ _ => ?_
  exact .spanned fun _ => by simp only [Command.bare, hFound, hCommands]

private theorem ifElse_accepts {test inner other : List Token} {condition : Condition}
    {body orElse : List Command} (span : Span) (hKind : token.kind = .ifWord)
    (hTest : ConditionOf (symbolsOf test) condition) {thenSign elseSign : Token}
    (hThen : thenSign.symbol = .sign .thenWord) (hBody : CommandsOf (symbolsOf inner) body)
    (hSize : inner.length ≤ size) (hElse : elseSign.symbol = .sign .elseWord)
    (hOrElse : CommandsOf (symbolsOf other) orElse) (hOther : other.length ≤ size)
    (hClosing : closing.symbol = .sign .endIfWord) (rest : List Token) :
    Accepts (conditional block) (token :: (test ++ thenSign :: (inner ++ elseSign :: (other ++
        closing :: rest)))) rest
      (·.bare = (Command.ifElse span condition body orElse).bare) := by
  have hElseKind := Token.kind_of_symbol hElse
  have hMiddle : Reading.endsCommands elseSign.kind = true := by
    rw [hElseKind]
    rfl
  have hEnds : Reading.endsCommands closing.kind = true := by
    rw [Token.kind_of_symbol hClosing]
    rfl
  refine .bind (.lift (Reading.place_accepts _)) fun first _ => ?_
  refine .bind (.lift (Reading.advance_accepts _ hKind TokenKind.noConfusion)) fun _ _ => ?_
  refine .bind (condition_accepts hTest (Token.kind_of_symbol hThen ▸ TokenKind.noConfusion) _)
    fun found hFound => ?_
  refine .bind (require_accepts _ hThen TokenKind.noConfusion) fun _ _ => ?_
  refine .bind (.lift (hBlock hBody hSize hMiddle _ _)) fun commands hCommands => ?_
  refine .bind (.lift (Reading.current_accepts elseSign _)) ?_
  rintro _ rfl
  rw [if_pos hElseKind]
  refine .bind (.lift (Reading.advance_accepts _ hElseKind TokenKind.noConfusion)) fun _ _ => ?_
  refine .bind (.lift (hBlock hOrElse hOther hEnds _ _)) fun others hOthers => ?_
  have hSome : others.isEmpty = false := by
    rw [Command.isEmpty_eq_of_allBare hOthers]
    exact hOrElse.isEmpty_eq
  refine .bind (require_accepts _ hClosing TokenKind.noConfusion) fun _ _ => ?_
  simp only [hSome, Bool.false_eq_true, if_false]
  exact .spanned fun _ => by simp only [Command.bare, hFound, hCommands, hOthers]

/-- A command is read wherever it is derived: each form ends by a sign of its own. -/
theorem command_accepts {used : List Token} {found : Command}
    (hCommand : CommandOf (symbolsOf used) found) (hSize : used.length ≤ size + 1)
    (rest : List Token) :
    Accepts (command block) (used ++ rest) rest (·.bare = found.bare) := by
  generalize hUsed : symbolsOf used = symbols at hCommand
  cases hCommand with
  | assign span hTarget hValue =>
      obtain ⟨first, later, rfl, rfl, hLater⟩ := exists_of_symbols_append hUsed
      obtain ⟨sign, later, rfl, hSign, hLater⟩ := exists_of_symbols_cons hLater
      obtain ⟨second, last, rfl, rfl, hLast⟩ := exists_of_symbols_append hLater
      obtain ⟨closing, rfl, hClosing⟩ := exists_of_symbols_singleton hLast
      have hReads := assignment_accepts span hTarget hSign hValue hClosing rest
      obtain ⟨token, later, rfl, hKind⟩ := exists_name_of_referenceOf hTarget
      simp only [List.cons_append, List.append_assoc, List.nil_append] at hReads ⊢
      refine .bind (.lift (Reading.current_accepts token _)) ?_
      rintro _ rfl
      rw [hKind]
      exact hReads
  | read span hTarget =>
      obtain ⟨token, later, rfl, hSymbol, hLater⟩ := exists_of_symbols_cons hUsed
      obtain ⟨inner, last, rfl, rfl, hLast⟩ := exists_of_symbols_append hLater
      obtain ⟨closing, rfl, hClosing⟩ := exists_of_symbols_singleton hLast
      have hKind := Token.kind_of_symbol hSymbol
      simp only [List.cons_append, List.append_assoc, List.nil_append]
      refine .bind (.lift (Reading.current_accepts token _)) ?_
      rintro _ rfl
      rw [hKind]
      exact readCommand_accepts span hKind hTarget hClosing rest
  | write span hValue =>
      obtain ⟨token, later, rfl, hSymbol, hLater⟩ := exists_of_symbols_cons hUsed
      obtain ⟨inner, last, rfl, rfl, hLast⟩ := exists_of_symbols_append hLater
      obtain ⟨closing, rfl, hClosing⟩ := exists_of_symbols_singleton hLast
      have hKind := Token.kind_of_symbol hSymbol
      simp only [List.cons_append, List.append_assoc, List.nil_append]
      refine .bind (.lift (Reading.current_accepts token _)) ?_
      rintro _ rfl
      rw [hKind]
      exact writeCommand_accepts span hKind hValue hClosing rest
  | skip span =>
      obtain ⟨token, later, rfl, hSymbol, hLater⟩ := exists_of_symbols_cons hUsed
      obtain ⟨closing, rfl, hClosing⟩ := exists_of_symbols_singleton hLater
      have hKind := Token.kind_of_symbol hSymbol
      refine .bind (.lift (Reading.current_accepts token _)) ?_
      rintro _ rfl
      rw [hKind]
      exact skipCommand_accepts span hKind hClosing rest
  | ifThen span hTest hBody =>
      obtain ⟨token, later, rfl, hSymbol, hLater⟩ := exists_of_symbols_cons hUsed
      obtain ⟨test, later, rfl, rfl, hBack⟩ := exists_of_symbols_append hLater
      obtain ⟨thenSign, later, rfl, hThen, hLater⟩ := exists_of_symbols_cons hBack
      obtain ⟨inner, last, rfl, rfl, hLast⟩ := exists_of_symbols_append hLater
      obtain ⟨closing, rfl, hClosing⟩ := exists_of_symbols_singleton hLast
      have hKind := Token.kind_of_symbol hSymbol
      simp only [List.length_cons, List.length_append] at hSize
      simp only [List.cons_append, List.append_assoc, List.nil_append]
      refine .bind (.lift (Reading.current_accepts token _)) ?_
      rintro _ rfl
      rw [hKind]
      exact ifThen_accepts hBlock span hKind hTest hThen hBody (by omega) hClosing rest
  | ifElse span hTest hBody hOrElse =>
      obtain ⟨token, later, rfl, hSymbol, hLater⟩ := exists_of_symbols_cons hUsed
      obtain ⟨test, later, rfl, rfl, hBack⟩ := exists_of_symbols_append hLater
      obtain ⟨thenSign, later, rfl, hThen, hLater⟩ := exists_of_symbols_cons hBack
      obtain ⟨inner, later, rfl, rfl, hMore⟩ := exists_of_symbols_append hLater
      obtain ⟨elseSign, later, rfl, hElse, hLater⟩ := exists_of_symbols_cons hMore
      obtain ⟨other, last, rfl, rfl, hLast⟩ := exists_of_symbols_append hLater
      obtain ⟨closing, rfl, hClosing⟩ := exists_of_symbols_singleton hLast
      have hKind := Token.kind_of_symbol hSymbol
      simp only [List.length_cons, List.length_append] at hSize
      simp only [List.cons_append, List.append_assoc, List.nil_append]
      refine .bind (.lift (Reading.current_accepts token _)) ?_
      rintro _ rfl
      rw [hKind]
      exact ifElse_accepts hBlock span hKind hTest hThen hBody (by omega) hElse hOrElse (by omega)
        hClosing rest
  | whileLoop span hTest hBody =>
      obtain ⟨token, later, rfl, hSymbol, hLater⟩ := exists_of_symbols_cons hUsed
      obtain ⟨test, later, rfl, rfl, hBack⟩ := exists_of_symbols_append hLater
      obtain ⟨doSign, later, rfl, hDo, hLater⟩ := exists_of_symbols_cons hBack
      obtain ⟨inner, last, rfl, rfl, hLast⟩ := exists_of_symbols_append hLater
      obtain ⟨closing, rfl, hClosing⟩ := exists_of_symbols_singleton hLast
      have hKind := Token.kind_of_symbol hSymbol
      simp only [List.length_cons, List.length_append] at hSize
      simp only [List.cons_append, List.append_assoc, List.nil_append]
      refine .bind (.lift (Reading.current_accepts token _)) ?_
      rintro _ rfl
      rw [hKind]
      exact whileLoop_accepts hBlock span hKind hTest hDo hBody (by omega) hClosing rest
  | forLoop span iterator hFirst way hLast hBody =>
      obtain ⟨token, later, rfl, hSymbol, hLater⟩ := exists_of_symbols_cons hUsed
      obtain ⟨variableToken, later, rfl, hVariable, hLater⟩ := exists_of_symbols_cons hLater
      obtain ⟨fromSign, later, rfl, hFrom, hLater⟩ := exists_of_symbols_cons hLater
      obtain ⟨lower, later, rfl, rfl, hBack⟩ := exists_of_symbols_append hLater
      obtain ⟨waySign, later, rfl, hWay, hLater⟩ := exists_of_symbols_cons hBack
      obtain ⟨upper, later, rfl, rfl, hMore⟩ := exists_of_symbols_append hLater
      obtain ⟨doSign, later, rfl, hDo, hLater⟩ := exists_of_symbols_cons hMore
      obtain ⟨inner, last, rfl, rfl, hEnd⟩ := exists_of_symbols_append hLater
      obtain ⟨closing, rfl, hClosing⟩ := exists_of_symbols_singleton hEnd
      obtain ⟨hIterator, rfl⟩ := Token.of_symbol_name hVariable
      have hKind := Token.kind_of_symbol hSymbol
      simp only [List.length_cons, List.length_append] at hSize
      simp only [List.cons_append, List.append_assoc, List.nil_append]
      refine .bind (.lift (Reading.current_accepts token _)) ?_
      rintro _ rfl
      rw [hKind]
      exact forLoop_accepts hBlock span hKind hIterator hFrom hFirst hWay hLast hDo hBody
        (by omega) hClosing rest

end

end Attempt

private theorem exists_start_of_commandOf {used : List Token} {command : Command}
    (hCommand : CommandOf (symbolsOf used) command) :
    ∃ token rest, used = token :: rest ∧ Reading.endsCommands token.kind = false := by
  have hSign : ∀ {kind later}, symbolsOf used = .sign kind :: later →
      Reading.endsCommands kind = false →
      ∃ token rest, used = token :: rest ∧ Reading.endsCommands token.kind = false := by
    intro kind later hUsed hStarts
    obtain ⟨token, rest, rfl, hSymbol, -⟩ := exists_of_symbols_cons hUsed
    exact ⟨token, rest, rfl, by rw [Token.kind_of_symbol hSymbol]; exact hStarts⟩
  generalize hUsed : symbolsOf used = symbols at hCommand
  cases hCommand with
  | assign span hTarget hValue =>
      obtain ⟨front, back, rfl, rfl, -⟩ := exists_of_symbols_append hUsed
      obtain ⟨token, rest, rfl, hKind⟩ := Attempt.exists_name_of_referenceOf hTarget
      exact ⟨token, rest ++ back, rfl, by rw [hKind]; rfl⟩
  | read => exact hSign hUsed rfl
  | write => exact hSign hUsed rfl
  | skip => exact hSign hUsed rfl
  | ifThen => exact hSign hUsed rfl
  | ifElse => exact hSign hUsed rfl
  | whileLoop => exact hSign hUsed rfl
  | forLoop => exact hSign hUsed rfl

namespace Reading

private theorem commands_accepts_nil (fuel : Nat) {next : Token}
    (hNext : endsCommands next.kind = true) (rest : List Token) :
    Accepts (commands fuel) (next :: rest) (next :: rest) (· = []) := by
  cases fuel with
  | zero => exact .pure rfl
  | succ fuel =>
      intro reader hAt
      rw [run_commands_succ, hAt.current_eq, if_pos hNext]
      exact ⟨rfl, hAt, rfl⟩

private theorem block_accepts {commands : Reading (List Command)} {used rest : List Token}
    {body : List Command} {symbols : List Symbol} (hBody : CommandsOf symbols body)
    (hCommands : Accepts commands used rest fun found =>
      Command.allBare found = Command.allBare body) (wanted : TokenKind) :
    Accepts (block commands wanted) used rest fun found =>
      Command.allBare found = Command.allBare body := by
  refine .bind hCommands fun found hFound => ?_
  have hSome : found.isEmpty = false := by
    rw [Command.isEmpty_eq_of_allBare hFound]
    exact hBody.isEmpty_eq
  simp only [hSome, Bool.false_and, Bool.false_eq_true, if_false]
  exact .pure hFound

/-- One round on a command that is derived: it is read, nothing is skipped, and the rest is
read as a list of its own. -/
theorem commands_accepts_cons {fuel : Nat} (hBlock : Attempt.AcceptsBlocks (block (commands fuel)) fuel)
    {used : List Token} {command : Command} (hCommand : CommandOf (symbolsOf used) command)
    (hSize : used.length ≤ fuel + 1) {middle rest : List Token} {others : List Command}
    (hOthers : Accepts (commands fuel) middle rest fun found =>
      Command.allBare found = Command.allBare others) :
    Accepts (commands (fuel + 1)) (used ++ middle) rest fun found =>
      Command.allBare found = Command.allBare (command :: others) := by
  intro reader hAt
  obtain ⟨⟨found, hFound, hBare⟩, hMiddle, hErrors⟩ :=
    Attempt.command_accepts hBlock hCommand hSize middle reader hAt
  obtain ⟨token, later, rfl, hStarts⟩ := exists_start_of_commandOf hCommand
  have hGoesOn : ¬ endsCommands reader.current.kind = true := by
    rw [hAt.current_eq, hStarts]
    exact Bool.false_ne_true
  rw [run_commands_succ, if_neg hGoesOn]
  simp only
  rw [hErrors, if_neg (Nat.lt_irrefl _)]
  obtain ⟨hLater, hRest, hLast⟩ := hOthers _ hMiddle
  refine ⟨?_, hRest, hLast.trans hErrors⟩
  rw [hFound, Option.toList_some, List.singleton_append, Command.allBare, hBare, hLater]
  rfl

private theorem commands_accepts (fuel : Nat) {used : List Token} {body : List Command}
    (hBody : CommandsOf (symbolsOf used) body) (hSize : used.length ≤ fuel) {next : Token}
    (hNext : endsCommands next.kind = true) (rest : List Token) :
    Accepts (commands fuel) (used ++ next :: rest) (next :: rest) fun found =>
      Command.allBare found = Command.allBare body := by
  induction fuel generalizing used body next rest with
  | zero =>
      obtain rfl := List.length_eq_zero_iff.mp (Nat.le_zero.mp hSize)
      exact absurd rfl hBody.ne_nil
  | succ fuel inductionHypothesis =>
      have hBlock : Attempt.AcceptsBlocks (block (commands fuel)) fuel :=
        fun hInner hInnerSize _ hEnds later wanted =>
          block_accepts hInner (inductionHypothesis hInner hInnerSize hEnds later) wanted
      generalize hUsed : symbolsOf used = symbols at hBody
      cases hBody with
      | one hCommand =>
          rw [← hUsed] at hCommand
          refine commands_accepts_cons hBlock hCommand hSize ?_
          intro reader hAt
          obtain ⟨hNone, hRest⟩ := commands_accepts_nil fuel hNext rest reader hAt
          exact ⟨by rw [hNone], hRest⟩
      | more hCommand hRest =>
          obtain ⟨front, back, rfl, rfl, rfl⟩ := exists_of_symbols_append hUsed
          obtain ⟨token, later, rfl, -⟩ := exists_start_of_commandOf hCommand
          simp only [List.length_append, List.length_cons] at hSize
          rw [List.append_assoc]
          exact commands_accepts_cons hBlock hCommand (by simp only [List.length_cons]; omega)
            (inductionHypothesis hRest (by omega) hNext rest)

/-- Behind a declaration there is another one or the end of the declarations. -/
theorem exists_next_of_declarationsOf {used : List Token} {declared : List Declaration}
    (hDeclared : DeclarationsOf (symbolsOf used) declared) {next : Token}
    (hNext : next.kind = .beginWord) (rest : List Token) :
    ∃ token later, used ++ next :: rest = token :: later ∧ token.kind ≠ .openBracket := by
  generalize hUsed : symbolsOf used = symbols at hDeclared
  cases hDeclared with
  | none =>
      obtain rfl := List.map_eq_nil_iff.mp hUsed
      exact ⟨next, rest, rfl, hNext ▸ TokenKind.noConfusion⟩
  | more hDeclaration hRest =>
      cases hDeclaration with
      | scalar span name =>
          obtain ⟨token, later, rfl, hSymbol, -⟩ := exists_of_symbols_cons hUsed
          exact ⟨token, _, rfl, (Token.of_symbol_name hSymbol).1 ▸ TokenKind.noConfusion⟩
      | array span name length =>
          obtain ⟨token, later, rfl, hSymbol, -⟩ := exists_of_symbols_cons hUsed
          exact ⟨token, _, rfl, (Token.of_symbol_name hSymbol).1 ▸ TokenKind.noConfusion⟩

private theorem declarations_accepts (fuel : Nat) {used : List Token} {declared : List Declaration}
    (hDeclared : DeclarationsOf (symbolsOf used) declared) (hSize : used.length ≤ fuel)
    {next : Token} (hNext : next.kind = .beginWord) (rest : List Token) :
    Accepts (declarations fuel) (used ++ next :: rest) (next :: rest) fun found =>
      found.map Declaration.bare = declared.map Declaration.bare := by
  induction fuel generalizing used declared with
  | zero =>
      obtain rfl := List.length_eq_zero_iff.mp (Nat.le_zero.mp hSize)
      generalize hUsed : symbolsOf [] = symbols at hDeclared
      cases hDeclared with
      | none => exact .pure rfl
      | more hDeclaration hRest => cases hDeclaration <;> cases hUsed
  | succ fuel inductionHypothesis =>
      generalize hUsed : symbolsOf used = symbols at hDeclared
      cases hDeclared with
      | none =>
          obtain rfl := List.map_eq_nil_iff.mp hUsed
          refine .bind (current_accepts next rest) ?_
          rintro _ rfl
          rw [if_neg (hNext ▸ TokenKind.noConfusion)]
          exact .pure rfl
      | more hDeclaration hRest =>
          obtain ⟨front, back, rfl, hFront, rfl⟩ := exists_of_symbols_append hUsed
          have hOthers := inductionHypothesis hRest
          cases hDeclaration with
          | scalar span name =>
              obtain ⟨token, rfl, hSymbol⟩ := exists_of_symbols_singleton hFront
              obtain ⟨hKind, rfl⟩ := Token.of_symbol_name hSymbol
              simp only [List.length_append, List.length_cons] at hSize
              rw [List.append_assoc, List.singleton_append]
              refine .bind (current_accepts token _) ?_
              rintro _ rfl
              rw [if_pos hKind]
              refine .bind (advance_accepts _ hKind TokenKind.noConfusion) fun _ _ => ?_
              have hLater := hOthers (by omega)
              obtain ⟨follower, later, hFollows, hFollower⟩ :=
                exists_next_of_declarationsOf hRest hNext rest
              rw [hFollows] at hLater ⊢
              refine .bind (current_accepts follower later) ?_
              rintro _ rfl
              dsimp only
              rw [if_neg hFollower]
              refine .bind (spanFrom_accepts _ _) fun _ _ => ?_
              refine .bind hLater fun found hFound => .pure ?_
              rw [List.map_cons, List.map_cons, hFound]
              rfl
          | array span name length =>
              obtain ⟨token, later, rfl, hSymbol, hLater⟩ := exists_of_symbols_cons hFront
              obtain ⟨opening, later, rfl, hOpening, hLater⟩ := exists_of_symbols_cons hLater
              obtain ⟨size, later, rfl, hNumber, hLater⟩ := exists_of_symbols_cons hLater
              obtain ⟨closing, rfl, hClosing⟩ := exists_of_symbols_singleton hLater
              obtain ⟨hKind, rfl⟩ := Token.of_symbol_name hSymbol
              have hOpen := Token.kind_of_symbol hOpening
              simp only [List.length_append, List.length_cons] at hSize
              simp only [List.cons_append, List.nil_append]
              refine .bind (current_accepts token _) ?_
              rintro _ rfl
              rw [if_pos hKind]
              refine .bind (advance_accepts _ hKind TokenKind.noConfusion) fun _ _ => ?_
              refine .bind (current_accepts opening _) ?_
              rintro _ rfl
              dsimp only
              rw [if_pos hOpen]
              refine .bind (advance_accepts _ hOpen TokenKind.noConfusion) fun _ _ => ?_
              refine .bind (Attempt.number_accepts _ hNumber) ?_
              rintro _ ⟨_, rfl, rfl⟩
              refine .bind (expect_accepts _ (Token.kind_of_symbol hClosing)
                TokenKind.noConfusion) fun _ _ => ?_
              refine .bind (spanFrom_accepts _ _) fun _ _ => ?_
              refine .bind (hOthers (by omega)) fun found hFound => .pure ?_
              rw [List.map_cons, List.map_cons, hFound]
              rfl

private theorem program_accepts {used : List Token} {tree : Program}
    (hTree : ProgramOf (symbolsOf used) tree) {last : Token} (hLast : last.kind = .endOfInput) :
    Accepts program (used ++ [last]) [last] fun found =>
      ∃ program, found = some program ∧ program.bare = tree.bare := by
  generalize hUsed : symbolsOf used = symbols at hTree
  cases hTree with
  | program span hDeclared hBody =>
      obtain ⟨opening, later, rfl, hOpening, hLater⟩ := exists_of_symbols_cons hUsed
      obtain ⟨front, later, rfl, rfl, hBack⟩ := exists_of_symbols_append hLater
      obtain ⟨begins, later, rfl, hBegins, hLater⟩ := exists_of_symbols_cons hBack
      obtain ⟨inner, final, rfl, rfl, hFinal⟩ := exists_of_symbols_append hLater
      obtain ⟨ends, rfl, hEnds⟩ := exists_of_symbols_singleton hFinal
      have hBegin := Token.kind_of_symbol hBegins
      have hEnd := Token.kind_of_symbol hEnds
      simp only [List.cons_append, List.append_assoc, List.nil_append]
      refine .bind (place_accepts _) fun _ _ => ?_
      refine .bind (expect_accepts _ (Token.kind_of_symbol hOpening) TokenKind.noConfusion) ?_
      rintro _ rfl
      rw [if_pos rfl]
      refine .bind (bound_accepts _) fun fuel hFuel => ?_
      simp only [List.length_append] at hFuel
      refine .bind (declarations_accepts fuel hDeclared (by omega) hBegin _)
        fun declared hFound => ?_
      refine .bind (expect_accepts _ hBegin TokenKind.noConfusion) fun _ _ => ?_
      refine .bind (bound_accepts _) fun bound hBound => ?_
      simp only [List.length_append] at hBound
      refine .bind (block_accepts hBody (commands_accepts bound hBody (by omega)
        (by rw [hEnd]; rfl) [last]) _) fun body hCommands => ?_
      refine .bind (expect_accepts _ hEnd TokenKind.noConfusion) fun _ _ => ?_
      refine .bind (current_accepts last []) ?_
      rintro _ rfl
      dsimp only
      rw [if_neg (not_not.mpr hLast)]
      refine .bind (spanFrom_accepts _ _) fun _ _ => .pure ⟨_, rfl, ?_⟩
      simp only [Program.bare, hFound, hCommands]

end Reading

/-! ### Texts -/

def Token.body (text : Bytes) : List Token :=
  (Token.scan text).takeWhile fun token => decide (token.kind ≠ .endOfInput)

theorem Token.scan_eq (text : Bytes) :
    ∃ last, Token.scan text = Token.body text ++ [last] ∧ last.kind = .endOfInput := by
  obtain ⟨front, last, hTokens, hLast, hFront⟩ := Token.ended_scan text
  refine ⟨last, ?_, hLast⟩
  have hBody : Token.body text = front := by
    rw [Token.body, hTokens, List.takeWhile_append_of_pos]
    · simp [hLast]
    · simpa using hFront
  rw [hBody, hTokens]

private theorem Token.kind_of_mem_body {text : Bytes} {token : Token}
    (hToken : token ∈ Token.body text) :
    token.kind ≠ .endOfInput := by
  simpa using List.mem_takeWhile_imp hToken

theorem parse_eq_ok_iff {text : Bytes} {program : Program} :
    parse text = .ok program ↔
      (Reading.program.run (Reader.ofTokens (Token.scan text))).1 = some program ∧
        (Reading.program.run (Reader.ofTokens (Token.scan text))).2.errors = [] := by
  simp only [parse, readProgram, readText]
  generalize Reading.program.run (Reader.ofTokens (Token.scan text)) = outcome
  obtain ⟨result, reader⟩ := outcome
  simp only
  split
  · rename_i found hErrors
    rw [hErrors, Except.ok.injEq, Option.some.injEq, and_iff_left rfl]
  · rename_i hRefused
    refine ⟨fun hNone => (nomatch hNone), fun ⟨hResult, hErrors⟩ => ?_⟩
    exact absurd hResult (hRefused program hErrors)

namespace Reading

/-- Reading that gives a program without a fault only at the end of input. -/
def Finishes (reading : Reading (Option Program)) : Prop :=
  ∀ reader : Reader, (reading.run reader).1 ≠ none → (reading.run reader).2.errors = [] →
    (reading.run reader).2.current.kind = .endOfInput

private theorem Finishes.bind {β : Type} {reading : Reading β} {next : β → Reading (Option Program)}
    (hNext : ∀ value, Finishes (next value)) : Finishes (reading >>= next) :=
  fun _ => hNext _ _

private theorem Finishes.current {next : Token → Reading (Option Program)}
    (hNext : ∀ reader : Reader, ((next reader.current).run reader).1 ≠ none →
      ((next reader.current).run reader).2.errors = [] →
        ((next reader.current).run reader).2.current.kind = .endOfInput) :
    Finishes (Reading.current >>= next) :=
  hNext

private theorem program_finishes : Finishes program := by
  refine .bind fun _ => .bind fun passed => ?_
  split
  · refine .bind fun _ => .bind fun _ => .bind fun _ => .bind fun _ => .bind fun _ =>
      .bind fun _ => ?_
    refine .current fun reader => ?_
    split
    · intro _ hErrors
      exact absurd hErrors (List.append_ne_nil_of_right_ne_nil _ (List.cons_ne_nil _ _))
    · rename_i hLast
      exact fun _ _ => not_not.mp hLast
  · exact fun _ hNone => absurd rfl hNone

end Reading

theorem kind_ne_error_of_parse {text : Bytes} {program : Program}
    (hParse : parse text = .ok program) : ∀ token ∈ Token.body text, token.kind ≠ .error := by
  intro bad hBad hKind
  obtain ⟨hFound, hErrors⟩ := parse_eq_ok_iff.mp hParse
  obtain ⟨front, back, hBody⟩ := List.append_of_mem hBad
  obtain ⟨last, hTokens, -⟩ := Token.scan_eq text
  have hTainted : Reader.Tainted (Token.scan text) := by
    refine ⟨front, bad, back ++ [last], by rw [hTokens, hBody]; simp, hKind, ?_⟩
    intro token hToken
    exact Token.kind_of_mem_body (hBody ▸ List.mem_append_left _ hToken)
  have hDoomed := (Reader.doomed_ofTokens hTainted).of_leads (Reading.program_steady.leads _)
  rcases hDoomed with hFaulty | ⟨hCurrent, -, -⟩
  · exact hFaulty hErrors
  · exact hCurrent (Reading.program_finishes _ (by rw [hFound]; exact Option.some_ne_none _) hErrors)

theorem at_scan {text : Bytes} (hErrors : ∀ token ∈ Token.body text, token.kind ≠ .error) :
    (Reader.ofTokens (Token.scan text)).At (Token.scan text) ∧
      (Reader.ofTokens (Token.scan text)).errors = [] := by
  obtain ⟨last, hTokens, hLast⟩ := Token.scan_eq text
  refine Reader.at_ofTokens ?_
  rw [hTokens]
  exact Reader.clean_append hLast fun token hToken =>
    ⟨Token.kind_of_mem_body hToken, hErrors token hToken⟩

private theorem derives_of_parse {text : Bytes} {program : Program}
    (hParse : parse text = .ok program) :
    ProgramOf ((Token.body text).map Token.symbol) program := by
  obtain ⟨hFound, hErrors⟩ := parse_eq_ok_iff.mp hParse
  obtain ⟨hAt, hNone⟩ := at_scan (kind_ne_error_of_parse hParse)
  obtain ⟨rest, -, found, used, last, hResult, hUsed, hProgram⟩ :=
    Reading.program_explains hAt.clean _ hAt (hErrors.trans hNone.symm)
  obtain rfl : program = found := Option.some.inj (hFound.symm.trans hResult)
  obtain ⟨final, hTokens, -⟩ := Token.scan_eq text
  obtain ⟨hSame, -⟩ := List.append_inj' (hUsed.symm.trans hTokens) rfl
  rw [← hSame]
  exact hProgram

private theorem parse_of_derives {text : Bytes}
    (hErrors : ∀ token ∈ Token.body text, token.kind ≠ .error) {tree : Program}
    (hTree : ProgramOf ((Token.body text).map Token.symbol) tree) :
    ∃ program, parse text = .ok program ∧ program.bare = tree.bare := by
  obtain ⟨hAt, hNone⟩ := at_scan hErrors
  obtain ⟨last, hTokens, hLast⟩ := Token.scan_eq text
  have hAccepts := Reading.program_accepts hTree hLast
  rw [← hTokens] at hAccepts
  obtain ⟨⟨program, hFound, hBare⟩, -, hLater⟩ := hAccepts _ hAt
  exact ⟨program, parse_eq_ok_iff.mpr ⟨hFound, hLater.trans hNone⟩, hBare⟩

/-- A text is read exactly if all its tokens spell something and their symbols derive a
program; what is read is that program, which has the symbols of the text, and up to places
no other is derived from them. -/
theorem parse_iff_derivable (text : Bytes) :
    (∃ last, Token.scan text = Token.body text ++ [last] ∧ last.kind = .endOfInput) ∧
    ((∃ program, parse text = .ok program) ↔
      (∀ token ∈ Token.body text, token.kind ≠ .error) ∧
        ∃ tree, ProgramOf ((Token.body text).map Token.symbol) tree) ∧
    ∀ program, parse text = .ok program →
      ProgramOf ((Token.body text).map Token.symbol) program ∧
      program.symbols = (Token.body text).map Token.symbol ∧
      ∀ tree, ProgramOf ((Token.body text).map Token.symbol) tree → tree.bare = program.bare := by
  refine ⟨Token.scan_eq text, ⟨?_, ?_⟩, ?_⟩
  · rintro ⟨program, hParse⟩
    exact ⟨kind_ne_error_of_parse hParse, program, derives_of_parse hParse⟩
  · rintro ⟨hErrors, tree, hTree⟩
    obtain ⟨program, hParse, -⟩ := parse_of_derives hErrors hTree
    exact ⟨program, hParse⟩
  · intro program hParse
    have hDerives := derives_of_parse hParse
    refine ⟨hDerives, hDerives.symbols_eq, fun tree hTree => ?_⟩
    obtain ⟨other, hOther, hBare⟩ := parse_of_derives (kind_ne_error_of_parse hParse) hTree
    obtain rfl : program = other := Except.ok.inj (hParse.symm.trans hOther)
    exact hBare.symm

end RegisterCompiler
