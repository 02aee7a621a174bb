/-
The names in programs that were read.

An identifier has at least one character.  The reader takes all names from identifiers,
so that no declared name and no loop variable of a program it reads is empty; simplifying
a program keeps that.
-/

import RegisterCompiler.Build
import RegisterCompiler.Proofs.Generator.Bodies

set_option autoImplicit false

namespace RegisterCompiler

open Source (Position)
open Text (Bytes)

/-! ### Tokens -/

namespace Token

def Named (token : Token) : Prop :=
  token.kind = .identifier → token.literal ≠ ""

private theorem ofWord?_ne_identifier {word : String} {kind : TokenKind}
    (hWord : TokenKind.ofWord? word = some kind) : kind ≠ .identifier := by
  have hKeyword := List.mem_of_find?_eq_some hWord
  rintro rfl
  contradiction

private theorem singleKind?_ne_identifier {char : Char} {kind : TokenKind}
    (hChar : singleKind? char = some kind) : kind ≠ .identifier := by
  unfold singleKind? at hChar
  split at hChar
  all_goals
    cases hChar
    try exact TokenKind.noConfusion

private theorem takeWhile_ne_nil {cursor : Cursor} {property : Char → Bool}
    (hStart : cursor.char ≠ Char.ofNat 0) (hProperty : property cursor.char = true) :
    (cursor.takeWhile property).1 ≠ [] := by
  obtain ⟨rest, position⟩ := cursor
  cases rest with
  | nil => exact absurd rfl hStart
  | cons glyph rest =>
      simp only [Cursor.char] at hProperty
      simp only [Cursor.takeWhile, Cursor.takeWhileFrom, hProperty, if_true]
      exact List.cons_ne_nil _ _

private theorem named_of_ne {token : Token} (hKind : token.kind ≠ .identifier) : token.Named :=
  fun hName => absurd hName hKind

private theorem named_readAt (cursor : Cursor) : (readAt cursor).1.Named := by
  simp only [readAt]
  by_cases hStart : cursor.char = Char.ofNat 0
  · rw [if_pos hStart]
    exact named_of_ne TokenKind.noConfusion
  · rw [if_neg hStart]
    split
    · rename_i kind hSingle
      exact named_of_ne (singleKind?_ne_identifier hSingle)
    · split
      · split <;> exact named_of_ne TokenKind.noConfusion
      · split
        · split
          · exact named_of_ne TokenKind.noConfusion
          · split <;> exact named_of_ne TokenKind.noConfusion
        · split
          · split <;> exact named_of_ne TokenKind.noConfusion
          · split
            · exact named_of_ne TokenKind.noConfusion
            · split
              · rename_i hChar
                intro _ hEmpty
                have hRun := String.ofList_eq_empty_iff.mp hEmpty
                exact takeWhile_ne_nil hStart hChar hRun
              · split
                · split
                  · rename_i kind hWord
                    exact named_of_ne (ofWord?_ne_identifier hWord)
                  · exact named_of_ne TokenKind.noConfusion
                · exact named_of_ne TokenKind.noConfusion

private theorem named_next (cursor : Cursor) : (next cursor).1.Named := by
  unfold next
  split
  · exact named_readAt _
  · exact named_of_ne TokenKind.noConfusion

private theorem named_scanFrom (fuel : Nat) (cursor : Cursor) :
    ∀ token ∈ scanFrom fuel cursor, token.Named := by
  induction fuel generalizing cursor with
  | zero => exact fun _ hNone => absurd hNone List.not_mem_nil
  | succ fuel inductionHypothesis =>
      simp only [scanFrom]
      split
      · exact List.forall_mem_singleton.mpr (named_next cursor)
      · exact List.forall_mem_cons.mpr ⟨named_next cursor, inductionHypothesis _⟩

end Token

/-! ### Readers -/

namespace Reader

structure Named (reader : Reader) : Prop where
  current : reader.current.Named
  upcoming : reader.upcoming.Named
  rest : ∀ token ∈ reader.rest, token.Named

private theorem named_fetch {reader : Reader} {tokens : List Token}
    (hCurrent : reader.current.Named) (hUpcoming : reader.upcoming.Named)
    (hTokens : ∀ token ∈ tokens, token.Named) :
    (reader.fetch tokens).Named := by
  induction tokens generalizing reader with
  | nil => exact ⟨hCurrent, hUpcoming, hTokens⟩
  | cons token rest inductionHypothesis =>
      obtain ⟨hToken, hRest⟩ := List.forall_mem_cons.mp hTokens
      unfold fetch
      split
      · exact inductionHypothesis hCurrent hUpcoming hRest
      · exact ⟨hCurrent, hToken, hRest⟩

private theorem Named.advance {reader : Reader} (hNamed : reader.Named) : reader.advance.Named :=
  named_fetch hNamed.upcoming hNamed.upcoming hNamed.rest

private theorem named_ofTokens {tokens : List Token} (hTokens : ∀ token ∈ tokens, token.Named) :
    (ofTokens tokens).Named :=
  (named_fetch (Token.named_of_ne TokenKind.noConfusion) (Token.named_of_ne TokenKind.noConfusion)
    hTokens).advance

end Reader

namespace Reading

variable {α β : Type}

/-- Reading that keeps the identifiers and whose result has a property. -/
def Yields (reading : Reading α) (post : α → Prop) : Prop :=
  ∀ reader : Reader, reader.Named →
    post (reading.run reader).1 ∧ (reading.run reader).2.Named

namespace Yields

variable {post : α → Prop}

private theorem pure {value : α} (hPost : post value) : Yields (pure value) post :=
  fun _ hNamed => ⟨hPost, hNamed⟩

private theorem bind {reading : Reading β} {next : β → Reading α} {middle : β → Prop}
    (hReading : Yields reading middle) (hNext : ∀ value, middle value → Yields (next value) post) :
    Yields (reading >>= next) post := by
  intro reader hNamed
  obtain ⟨hMiddle, hLater⟩ := hReading reader hNamed
  exact hNext _ hMiddle _ hLater

private theorem get : Yields (MonadState.get : Reading Reader) Reader.Named :=
  fun _ hNamed => ⟨hNamed, hNamed⟩

private theorem modify {change : Reader → Reader} (hChange : ∀ reader : Reader, reader.Named →
    (change reader).Named) : Yields (modify change : Reading Unit) fun _ => True :=
  fun reader hNamed => ⟨trivial, hChange reader hNamed⟩

end Yields

private theorem current_yields : Yields current Token.Named :=
  .bind .get fun _ hNamed => .pure hNamed.current

private theorem advance_yields : Yields advance fun _ => True :=
  .modify fun _ hNamed => hNamed.advance

private theorem report_yields (fault : TokenKind → SyntaxFault) :
    Yields (report fault) fun _ => True :=
  .modify fun _ hNamed => ⟨hNamed.current, hNamed.upcoming, hNamed.rest⟩

private theorem expect_yields (wanted : TokenKind) : Yields (expect wanted) fun _ => True := by
  refine .bind current_yields fun token _ => ?_
  split
  · exact .bind advance_yields fun _ _ => .pure trivial
  · exact .bind (report_yields _) fun _ _ => .pure trivial

private theorem spanFrom_yields (first : Position) : Yields (spanFrom first) fun _ => True :=
  .bind .get fun _ _ => .pure trivial

private theorem bound_yields : Yields bound fun _ => True :=
  .bind .get fun _ _ => .pure trivial

private theorem skipToCommand_yields (fuel : Nat) : Yields (skipToCommand fuel) fun _ => True := by
  induction fuel with
  | zero => exact .pure trivial
  | succ fuel inductionHypothesis =>
      refine .bind current_yields fun token _ => ?_
      dsimp only
      split
      · exact advance_yields
      · split
        · exact .pure trivial
        · exact .bind advance_yields fun _ _ => inductionHypothesis

end Reading

namespace Attempt

variable {α β : Type}

def Yields (attempt : Attempt α) (post : α → Prop) : Prop :=
  Reading.Yields attempt.run fun found => ∀ value, found = some value → post value

namespace Yields

variable {post : α → Prop}

private theorem pure {value : α} (hPost : post value) : Yields (pure value) post := by
  refine Reading.Yields.pure fun found hFound => ?_
  rw [← Option.some.inj hFound]
  exact hPost

private theorem failure : Yields (failure : Attempt α) post :=
  Reading.Yields.pure nofun

private theorem bind {attempt : Attempt β} {next : β → Attempt α} {middle : β → Prop}
    (hAttempt : Yields attempt middle) (hNext : ∀ value, middle value → Yields (next value) post) :
    Yields (attempt >>= next) post := by
  rw [Yields, OptionT.run_bind, Option.elimM]
  refine Reading.Yields.bind hAttempt fun found hFound => ?_
  cases found with
  | none => exact Reading.Yields.pure nofun
  | some value => exact hNext value (hFound value rfl)

private theorem lift {reading : Reading α} (hReading : Reading.Yields reading post) :
    Yields (liftM reading : Attempt α) post := by
  refine Reading.Yields.bind hReading fun value hValue => .pure fun found hFound => ?_
  rw [← Option.some.inj hFound]
  exact hValue

private theorem get : Yields (MonadState.get : Attempt Reader) Reader.Named :=
  lift Reading.Yields.get

end Yields

private theorem refuse_yields (fault : TokenKind → SyntaxFault) (post : α → Prop) :
    Yields (refuse fault : Attempt α) post :=
  .bind (.lift (Reading.report_yields fault)) fun _ _ => .failure

private theorem require_yields (wanted : TokenKind) : Yields (require wanted) fun _ => True := by
  refine .bind (.lift (Reading.expect_yields wanted)) fun found _ => ?_
  split
  · exact .pure trivial
  · exact .failure

private theorem number_yields : Yields number fun _ => True := by
  refine .bind (.lift Reading.current_yields) fun token _ => ?_
  split
  · exact .bind (.lift Reading.advance_yields) fun _ _ => .pure trivial
  · exact refuse_yields _ _

private theorem spanned_yields (first : Position) {next : Source.Span → Attempt α} {post : α → Prop}
    (hNext : ∀ span, Yields (next span) post) :
    Yields (liftM (Reading.spanFrom first) >>= next) post :=
  .bind (.lift (Reading.spanFrom_yields first)) fun span _ => hNext span

private theorem index_yields : Yields index fun _ => True := by
  refine .bind (.lift Reading.current_yields) fun token _ => ?_
  split
  · exact .bind number_yields fun _ _ => spanned_yields _ fun _ => .pure trivial
  · split
    · exact .bind .get fun _ _ => .bind (.lift Reading.advance_yields) fun _ _ => .pure trivial
    · exact refuse_yields _ _

private theorem reference_yields : Yields reference fun _ => True := by
  refine .bind (.lift Reading.current_yields) fun token _ => ?_
  split
  · refine .bind (.lift Reading.advance_yields) fun _ _ => ?_
    refine .bind (.lift Reading.current_yields) fun _ _ => ?_
    split
    · exact .bind (.lift Reading.advance_yields) fun _ _ => .bind index_yields fun _ _ =>
        .bind (require_yields _) fun _ _ => spanned_yields _ fun _ => .pure trivial
    · exact spanned_yields _ fun _ => .pure trivial
  · exact refuse_yields _ _

private theorem atom_yields : Yields atom fun _ => True := by
  refine .bind (.lift Reading.current_yields) fun token _ => ?_
  split
  · exact .bind number_yields fun _ _ => spanned_yields _ fun _ => .pure trivial
  · split
    · exact .bind reference_yields fun _ _ => .pure trivial
    · exact refuse_yields _ _

private theorem expression_yields : Yields expression fun _ => True := by
  refine .bind (.lift Reading.current_yields) fun token _ => .bind atom_yields fun _ _ => ?_
  refine .bind (.lift Reading.current_yields) fun _ _ => ?_
  split
  · exact .bind (.lift Reading.advance_yields) fun _ _ => .bind atom_yields fun _ _ =>
      spanned_yields _ fun _ => .pure trivial
  · exact spanned_yields _ fun _ => .pure trivial

private theorem condition_yields : Yields condition fun _ => True := by
  refine .bind (.lift Reading.current_yields) fun token _ => .bind atom_yields fun _ _ => ?_
  refine .bind (.lift Reading.current_yields) fun _ _ => ?_
  split
  · exact .bind (.lift Reading.advance_yields) fun _ _ => .bind atom_yields fun _ _ =>
      spanned_yields _ fun _ => .pure trivial
  · exact refuse_yields _ _

private theorem direction_yields : Yields direction fun _ => True := by
  refine .bind (.lift Reading.current_yields) fun token _ => ?_
  split
  · exact .bind (.lift Reading.advance_yields) fun _ _ => .pure trivial
  · exact .bind (.lift Reading.advance_yields) fun _ _ => .pure trivial
  · exact refuse_yields _ _

/-! ### Commands -/

theorem assignment_yields : Yields assignment Command.Named :=
  .bind (.lift Reading.current_yields) fun _ _ => .bind reference_yields fun _ _ =>
    .bind (require_yields _) fun _ _ => .bind expression_yields fun _ _ =>
    .bind (require_yields _) fun _ _ => spanned_yields _ fun _ => .pure trivial

private theorem readCommand_yields : Yields readCommand Command.Named :=
  .bind (.lift Reading.current_yields) fun _ _ => .bind (.lift Reading.advance_yields) fun _ _ =>
    .bind reference_yields fun _ _ => .bind (require_yields _) fun _ _ =>
    spanned_yields _ fun _ => .pure trivial

private theorem writeCommand_yields : Yields writeCommand Command.Named :=
  .bind (.lift Reading.current_yields) fun _ _ => .bind (.lift Reading.advance_yields) fun _ _ =>
    .bind atom_yields fun _ _ => .bind (require_yields _) fun _ _ =>
    spanned_yields _ fun _ => .pure trivial

private theorem skipCommand_yields : Yields skipCommand Command.Named :=
  .bind (.lift Reading.current_yields) fun _ _ => .bind (.lift Reading.advance_yields) fun _ _ =>
    .bind (require_yields _) fun _ _ => spanned_yields _ fun _ => .pure trivial

section

variable {block : TokenKind → Reading (List Command)}
  (hBlock : ∀ wanted, Reading.Yields (block wanted) Command.AllNamed)

include hBlock

private theorem conditional_yields : Yields (conditional block) Command.Named := by
  refine .bind (.lift Reading.current_yields) fun _ _ =>
    .bind (.lift Reading.advance_yields) fun _ _ => .bind condition_yields fun _ _ =>
    .bind (require_yields _) fun _ _ => .bind (.lift (hBlock _)) fun body hBody =>
    .bind (.lift Reading.current_yields) fun _ _ => ?_
  split
  · refine .bind (.lift Reading.advance_yields) fun _ _ =>
      .bind (.lift (hBlock _)) fun orElse hOrElse => .bind (require_yields _) fun _ _ =>
      spanned_yields _ fun _ => .pure ?_
    split
    · exact hBody
    · exact ⟨hBody, hOrElse⟩
  · exact .bind (require_yields _) fun _ _ => spanned_yields _ fun _ => .pure hBody

private theorem whileLoop_yields : Yields (whileLoop block) Command.Named :=
  .bind (.lift Reading.current_yields) fun _ _ =>
    .bind (.lift Reading.advance_yields) fun _ _ => .bind condition_yields fun _ _ =>
    .bind (require_yields _) fun _ _ => .bind (.lift (hBlock _)) fun _ hBody =>
    .bind (require_yields _) fun _ _ => spanned_yields _ fun _ => .pure hBody

private theorem forLoop_yields : Yields (forLoop block) Command.Named := by
  refine .bind (.lift Reading.current_yields) fun _ _ =>
    .bind (.lift Reading.advance_yields) fun _ _ =>
    .bind (.lift Reading.current_yields) fun iterator hIterator => ?_
  split
  · rename_i hKind
    exact .bind (.lift Reading.advance_yields) fun _ _ => .bind (require_yields _) fun _ _ =>
      .bind atom_yields fun _ _ => .bind direction_yields fun _ _ =>
      .bind atom_yields fun _ _ => .bind (require_yields _) fun _ _ =>
      .bind (.lift (hBlock _)) fun _ hBody => .bind (require_yields _) fun _ _ =>
      spanned_yields _ fun _ => .pure ⟨hIterator hKind, hBody⟩
  · exact refuse_yields _ _

private theorem command_yields : Yields (command block) Command.Named := by
  refine .bind (.lift Reading.current_yields) fun token _ => ?_
  split
  · exact assignment_yields
  · exact conditional_yields hBlock
  · exact whileLoop_yields hBlock
  · exact forLoop_yields hBlock
  · exact readCommand_yields
  · exact writeCommand_yields
  · exact skipCommand_yields
  · exact .bind (.lift (Reading.report_yields _)) fun _ _ =>
      .bind (.lift Reading.advance_yields) fun _ _ => .failure

end

end Attempt

private theorem Command.allNamed_append {first second : List Command} (hFirst : AllNamed first)
    (hSecond : AllNamed second) : AllNamed (first ++ second) := by
  induction first with
  | nil => exact hSecond
  | cons command rest inductionHypothesis => exact ⟨hFirst.1, inductionHypothesis hFirst.2⟩

namespace Reading

private theorem block_yields {commands : Reading (List Command)}
    (hCommands : Yields commands Command.AllNamed) (wanted : TokenKind) :
    Yields (block commands wanted) Command.AllNamed := by
  refine .bind hCommands fun found hFound => ?_
  split
  · exact .bind (report_yields _) fun _ _ => .pure hFound
  · exact .pure hFound

private theorem commands_yields (fuel : Nat) : Yields (commands fuel) Command.AllNamed := by
  induction fuel with
  | zero => exact .pure trivial
  | succ fuel inductionHypothesis =>
      refine .bind current_yields fun token _ => ?_
      split
      · exact .pure trivial
      · refine .bind .get fun _ _ => ?_
        refine .bind (Attempt.command_yields (block_yields inductionHypothesis))
          fun found hFound => .bind .get fun _ _ => ?_
        have hJoin : ∀ rest, Command.AllNamed rest → Command.AllNamed (found.toList ++ rest) := by
          intro rest hRest
          cases found with
          | none => exact hRest
          | some command => exact ⟨hFound command rfl, hRest⟩
        split
        · exact .bind bound_yields fun _ _ => .bind (skipToCommand_yields _) fun _ _ =>
            .bind inductionHypothesis fun rest hRest => .pure (hJoin rest hRest)
        · exact .bind inductionHypothesis fun rest hRest => .pure (hJoin rest hRest)

private theorem declarations_yields (fuel : Nat) :
    Yields (declarations fuel) fun found => ∀ declaration ∈ found, declaration.name ≠ "" := by
  induction fuel with
  | zero => exact .pure fun _ hNone => absurd hNone List.not_mem_nil
  | succ fuel inductionHypothesis =>
      refine .bind current_yields fun name hName => ?_
      split
      · rename_i hKind
        refine .bind advance_yields fun _ _ => .bind current_yields fun _ _ => ?_
        split
        · exact .bind advance_yields fun _ _ => .bind Attempt.number_yields fun _ _ =>
            .bind (expect_yields _) fun _ _ => .bind (spanFrom_yields _) fun _ _ =>
            .bind inductionHypothesis fun rest hRest =>
            .pure (List.forall_mem_cons.mpr ⟨hName hKind, hRest⟩)
        · exact .bind (spanFrom_yields _) fun _ _ =>
            .bind inductionHypothesis fun rest hRest =>
            .pure (List.forall_mem_cons.mpr ⟨hName hKind, hRest⟩)
      · exact .pure fun _ hNone => absurd hNone List.not_mem_nil

private theorem program_yields :
    Yields program fun found => ∀ program, found = some program → program.Named := by
  refine .bind current_yields fun _ _ => .bind (expect_yields _) fun found _ => ?_
  split
  · refine .bind bound_yields fun _ _ => .bind (declarations_yields _) fun declared hDeclared =>
      .bind (expect_yields _) fun _ _ => .bind bound_yields fun _ _ =>
      .bind (block_yields (commands_yields _) _) fun body hBody =>
      .bind (expect_yields _) fun _ _ => .bind current_yields fun _ _ => ?_
    have hProgram : ∀ span, ∀ program, some (Program.mk span declared body) = some program →
        program.Named := by
      intro span program hSame
      rw [← Option.some.inj hSame]
      exact ⟨hDeclared, hBody⟩
    split
    · exact .bind (report_yields _) fun _ _ => .bind (spanFrom_yields _) fun span _ =>
        .pure (hProgram span)
    · exact .bind (spanFrom_yields _) fun span _ => .pure (hProgram span)
  · exact .pure nofun

end Reading

theorem named_of_parse {text : Bytes} {program : Program} (hParse : parse text = .ok program) :
    program.Named := by
  have hTokens : ∀ token ∈ Token.scan text, token.Named := Token.named_scanFrom _ _
  have hYields := (Reading.program_yields _ (Reader.named_ofTokens hTokens)).1
  simp only [parse, readProgram, readText] at hParse
  generalize Reading.program.run (Reader.ofTokens (Token.scan text)) = outcome at hParse hYields
  split at hParse
  · rename_i found _ hResult
    rw [← Except.ok.inj hParse]
    exact hYields found hResult
  · contradiction

/-! ### Simplified programs -/

namespace Command

mutual

theorem allNamed_simplify {command : Command} (hNamed : command.Named) :
    AllNamed command.simplify := by
  cases command with
  | assign span target value =>
      simp only [simplify]
      split
      · trivial
      · exact ⟨trivial, trivial⟩
  | read => exact ⟨trivial, trivial⟩
  | write => exact ⟨trivial, trivial⟩
  | skip => exact ⟨trivial, trivial⟩
  | ifThen span condition body =>
      simp only [simplify]
      split
      · exact allNamed_simplifyAll hNamed
      · trivial
      · exact ⟨⟨allNamed_simplifyAll hNamed, trivial⟩, trivial⟩
  | ifElse span condition body orElse =>
      simp only [simplify]
      split
      · exact allNamed_simplifyAll hNamed.1
      · exact allNamed_simplifyAll hNamed.2
      · exact ⟨⟨allNamed_simplifyAll hNamed.1, allNamed_simplifyAll hNamed.2⟩, trivial⟩
  | whileLoop span condition body =>
      simp only [simplify]
      split
      · trivial
      · exact ⟨allNamed_simplifyAll hNamed, trivial⟩
  | forLoop span iterator first last direction body =>
      simp only [simplify]
      split
      · trivial
      · exact ⟨⟨hNamed.1, allNamed_simplifyAll hNamed.2⟩, trivial⟩

theorem allNamed_simplifyAll {commands : List Command} (hNamed : AllNamed commands) :
    AllNamed (simplifyAll commands) := by
  cases commands with
  | nil => trivial
  | cons command rest =>
      exact allNamed_append (allNamed_simplify hNamed.1) (allNamed_simplifyAll hNamed.2)

end

end Command

theorem Program.Named.simplify {program : Program} (hNamed : program.Named) :
    program.simplify.Named where
  declarations := hNamed.declarations
  body := Command.allNamed_simplifyAll hNamed.body

end RegisterCompiler
