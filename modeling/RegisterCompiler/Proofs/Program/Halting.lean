/-
Reading ends.

Splitting a text and reading its tokens are loops, some of them inside others.  A loop is
compared with one that does something else when it is not over after a number of passes:
with as many passes as there are tokens, and with command lists nested no deeper than that,
nothing else is ever done.  What carries this is that a pass leaves fewer tokens to be read.
-/

import Mathlib.Logic.Function.Iterate
import RegisterCompiler.Proofs.Program.Derivation
import RegisterCompiler.Proofs.Token.Rows

set_option autoImplicit false

namespace RegisterCompiler

open Source (Position)
open Text (Bytes glyphs)

/-! ### Splitting a text -/

/-- A cursor that stands in a text, at the place of the characters before it. -/
def Cursor.In (text : Bytes) (cursor : Cursor) : Prop :=
  ∃ front, glyphs text = front ++ cursor.rest ∧ cursor.position = Position.start.pass front

private theorem Cursor.ofBytes_in (text : Bytes) : (ofBytes text).In text :=
  ⟨[], rfl, rfl⟩

namespace Token

private theorem next_progresses {text : Bytes} {cursor : Cursor} (hIn : cursor.In text) :
    (next cursor).2.In text ∧
      (cursor.position.offset < (next cursor).2.position.offset ∨
        (next cursor).1.kind = .endOfInput ∧ Stops (next cursor).2.rest) := by
  obtain ⟨ahead, start⟩ := cursor
  obtain ⟨front, hGlyphs, rfl⟩ := hIn
  obtain ⟨gap, behind, rfl, hGap, hStops | hToken⟩ := exists_next ahead (Position.start.pass front)
  · rw [next_of_stops hGap hStops]
    exact ⟨⟨front ++ gap, by rw [hGlyphs, List.append_assoc], (Position.pass_append _ _ _).symm⟩,
      .inr ⟨rfl, hStops⟩⟩
  · obtain ⟨token, covered, rest, rfl, hSome, hPosition, hCovers⟩ := hToken
    have hCovered : ∀ glyph ∈ gap ++ covered, glyph.IsRead := by
      rw [← List.append_assoc, ← List.append_assoc] at hGlyphs
      exact fun glyph hGlyph => isRead_of_glyphs hGlyphs glyph (by
        rw [List.append_assoc]
        exact List.mem_append_right front hGlyph)
    rw [next_of_covers hGap hPosition hCovers]
    refine ⟨⟨front ++ (gap ++ covered), ?_, (Position.pass_append _ _ _).symm⟩, .inl ?_⟩
    · rw [hGlyphs]
      simp only [List.append_assoc]
    · exact Position.offset_lt_pass _ (List.append_ne_nil_of_right_ne_nil _ hSome) hCovered

/-- One pass of splitting a text, given what the later passes do. -/
def scanWith (later : Cursor → List Token) (cursor : Cursor) : List Token :=
  let (token, after) := next cursor
  if token.kind = .endOfInput then [token] else token :: later after

/-- Splitting is over after fewer passes than there are characters. -/
theorem iterate_scanWith (beyond : Cursor → List Token) {cursor : Cursor}
    {fuel limit : Nat} (hFuel : cursor.left < fuel) (hLimit : cursor.left < limit) :
    scanWith^[limit] beyond cursor = scanFrom fuel cursor := by
  induction fuel generalizing cursor limit with
  | zero => exact absurd hFuel (Nat.not_lt_zero _)
  | succ fuel inductionHypothesis =>
      obtain ⟨limit, rfl⟩ := Nat.exists_eq_succ_of_ne_zero (Nat.ne_zero_of_lt hLimit)
      rw [Function.iterate_succ_apply', scanFrom, scanWith]
      by_cases hEnd : (next cursor).1.kind = .endOfInput
      · simp only [if_pos hEnd]
      · have hLess := left_next_lt hEnd
        simp only [if_neg hEnd]
        rw [inductionHypothesis (Nat.lt_of_lt_of_le hLess (Nat.le_of_lt_succ hFuel))
          (Nat.lt_of_lt_of_le hLess (Nat.le_of_lt_succ hLimit))]

private theorem not_ended_nil : ¬ Ended [] := by
  rintro ⟨front, last, hNone, -⟩
  exact absurd hNone.symm (List.append_ne_nil_of_right_ne_nil _ (List.cons_ne_nil _ _))

private theorem Ended.of_cons {token : Token} {rest : List Token} (hEnded : Ended (token :: rest)) :
    (token.kind = .endOfInput ∧ rest = []) ∨ (token.kind ≠ .endOfInput ∧ Ended rest) := by
  obtain ⟨front, last, hTokens, hLast, hFront⟩ := hEnded
  cases front with
  | nil =>
      obtain ⟨rfl, rfl⟩ := List.cons.inj hTokens
      exact .inl ⟨hLast, rfl⟩
  | cons first front =>
      obtain ⟨rfl, rfl⟩ := List.cons.inj hTokens
      obtain ⟨hFirst, hLater⟩ := List.forall_mem_cons.mp hFront
      exact .inr ⟨hFirst, front, last, rfl, hLast, hLater⟩

private theorem Ended.of_suffix {tokens later : List Token} (hEnded : Ended tokens)
    (hSuffix : later <:+ tokens) (hSome : later ≠ []) : Ended later := by
  obtain ⟨front, last, rfl, hLast, hFront⟩ := hEnded
  obtain hNone | ⟨part, rfl, hPart⟩ := List.suffix_concat_iff.mp hSuffix
  · exact absurd hNone hSome
  · exact ⟨part, last, rfl, hLast, fun token hToken => hFront token (hPart.subset hToken)⟩

def proper (tokens : List Token) : Nat :=
  tokens.countP fun token => token.kind != .endOfInput

private theorem proper_cons (token : Token) (rest : List Token) :
    proper (token :: rest) = proper rest + if token.kind = .endOfInput then 0 else 1 := by
  rw [proper, List.countP_cons]
  by_cases hKind : token.kind = .endOfInput
  · rw [hKind]
    rfl
  · rw [if_pos (bne_iff_ne.mpr hKind), if_neg hKind]
    rfl

private theorem Ended.proper_lt {tokens : List Token} (hEnded : Ended tokens) :
    proper tokens < tokens.length := by
  obtain ⟨front, last, rfl, hLast, -⟩ := hEnded
  have hFront : front.countP (fun token => token.kind != .endOfInput) ≤ front.length :=
    List.countP_le_length
  rw [proper, List.countP_append, List.countP_singleton, hLast, List.length_append]
  exact Nat.lt_succ_of_le hFront

end Token

/-! ### Tokens left to a reader -/

namespace Reader

/-- How many of the tokens ahead are still to be passed.  The end of input never is. -/
def left (reader : Reader) : Nat :=
  Token.proper (reader.current :: reader.upcoming :: reader.rest)

/-- A reader behind whose current token the tokens run up to the end of input. -/
def Ended (reader : Reader) : Prop :=
  Token.Ended (reader.upcoming :: reader.rest)

private theorem fetch_suffix (reader : Reader) {tokens : List Token} (hEnded : Token.Ended tokens) :
    (reader.fetch tokens).current = reader.current ∧
      (reader.fetch tokens).upcoming :: (reader.fetch tokens).rest <:+ tokens := by
  induction tokens generalizing reader with
  | nil => exact absurd hEnded Token.not_ended_nil
  | cons token rest inductionHypothesis =>
      unfold fetch
      split
      · rename_i hError
        have hLater : Token.Ended rest := by
          rcases hEnded.of_cons with ⟨hEnd, -⟩ | ⟨-, hLater⟩
          · rw [hError] at hEnd
            cases hEnd
          · exact hLater
        obtain ⟨hCurrent, hSuffix⟩ := inductionHypothesis
          (reader.report token.position.line (.lexical token.literal)) hLater
        exact ⟨hCurrent, hSuffix.trans (List.suffix_cons token rest)⟩
      · exact ⟨rfl, List.suffix_refl _⟩

private theorem Ended.advance {reader : Reader} (hEnded : reader.Ended) :
    reader.advance.Ended ∧
      reader.advance.left ≤ Token.proper (reader.upcoming :: reader.rest) := by
  unfold Reader.advance
  rcases hEnded.of_cons with ⟨hLast, hNone⟩ | ⟨-, hLater⟩
  · rw [hNone]
    refine ⟨⟨[], reader.upcoming, rfl, hLast, List.forall_mem_nil _⟩, Nat.le_of_eq ?_⟩
    simp [left, Token.proper, fetch, hLast]
  · obtain ⟨hCurrent, hSuffix⟩ := fetch_suffix { reader with
      current := reader.upcoming
      passedEnd := if reader.current.literal = "" then reader.passedEnd else reader.current.stop }
      hLater
    refine ⟨hLater.of_suffix hSuffix (List.cons_ne_nil _ _), ?_⟩
    simp only [left, Token.proper, hCurrent]
    exact (hSuffix.sublist.cons_cons reader.upcoming).countP_le

private theorem left_eq (reader : Reader) :
    reader.left = Token.proper (reader.upcoming :: reader.rest) +
      if reader.current.kind = .endOfInput then 0 else 1 :=
  Token.proper_cons _ _

private theorem Ended.left_advance_le {reader : Reader} (hEnded : reader.Ended) :
    reader.advance.left ≤ reader.left := by
  rw [left_eq reader]
  exact hEnded.advance.2.trans (Nat.le_add_right _ _)

private theorem Ended.left_advance_lt {reader : Reader} (hEnded : reader.Ended)
    (hKind : reader.current.kind ≠ .endOfInput) : reader.advance.left < reader.left := by
  rw [left_eq reader, if_neg hKind]
  exact Nat.lt_succ_of_le hEnded.advance.2

private theorem Leads.left_le {before after : Reader} (hLeads : before.Leads after)
    (hEnded : before.Ended) : after.Ended ∧ after.left ≤ before.left := by
  induction hLeads with
  | refl => exact ⟨hEnded, Nat.le_refl _⟩
  | advance _ inductionHypothesis =>
      obtain ⟨hAfter, hLeft⟩ := inductionHypothesis
      exact ⟨hAfter.advance.1, hAfter.left_advance_le.trans hLeft⟩
  | report _ _ _ inductionHypothesis => exact inductionHypothesis

private theorem ended_ofTokens {tokens : List Token} (hEnded : Token.Ended tokens) :
    (ofTokens tokens).Ended ∧ (ofTokens tokens).left < tokens.length := by
  obtain ⟨hCurrent, hSuffix⟩ :=
    fetch_suffix ⟨nothingRead, nothingRead, tokens, .unset, []⟩ hEnded
  have hFetched : (fetch ⟨nothingRead, nothingRead, tokens, .unset, []⟩ tokens).Ended :=
    hEnded.of_suffix hSuffix (List.cons_ne_nil _ _)
  obtain ⟨hFirst, hLeft⟩ := hFetched.advance
  exact ⟨hFirst, Nat.lt_of_le_of_lt (hLeft.trans hSuffix.sublist.countP_le) hEnded.proper_lt⟩

/-- The number of passes that loops are given suffices. -/
theorem Ended.left_lt {reader : Reader} (hEnded : reader.Ended) :
    reader.left < reader.rest.length + 2 := by
  have hBehind : Token.proper (reader.upcoming :: reader.rest) < reader.rest.length + 1 :=
    Token.Ended.proper_lt hEnded
  rw [left_eq]
  split <;> omega

end Reader

/-! ### Reading that agrees near the end -/

namespace Reading

variable {α β : Type}

/-- Two ways of reading that do the same where fewer than `limit` tokens are left. -/
def Agree (limit : Nat) (first second : Reading α) : Prop :=
  ∀ reader : Reader, reader.Ended → reader.left < limit → first.run reader = second.run reader

namespace Agree

variable {limit : Nat}

private theorem refl (limit : Nat) (reading : Reading α) : Agree limit reading reading :=
  fun _ _ _ => rfl

private theorem mono {smaller : Nat} {first second : Reading α} (hAgree : Agree limit first second)
    (hLess : smaller ≤ limit) : Agree smaller first second :=
  fun reader hEnded hLeft => hAgree reader hEnded (Nat.lt_of_lt_of_le hLeft hLess)

private theorem bind {first second : Reading β} {next other : β → Reading α}
    [hSteady : Steady first] (hFirst : Agree limit first second)
    (hNext : ∀ value, Agree limit (next value) (other value)) :
    Agree limit (first >>= next) (second >>= other) := by
  intro reader hEnded hLeft
  obtain ⟨hLater, hLess⟩ := (hSteady.leads reader).left_le hEnded
  rw [StateT.run_bind, StateT.run_bind, ← hFirst reader hEnded hLeft]
  exact hNext _ _ hLater (Nat.lt_of_le_of_lt hLess hLeft)

private theorem followed {first second : Reading β} (hFirst : Agree limit first second)
    (next : β → Reading α) : Agree limit (first >>= next) (second >>= next) := by
  intro reader hEnded hLeft
  rw [StateT.run_bind, StateT.run_bind, hFirst reader hEnded hLeft]

private theorem ite {condition : Prop} [Decidable condition] {first second third fourth : Reading α}
    (hThen : Agree limit first second) (hElse : Agree limit third fourth) :
    Agree limit (if condition then first else third) (if condition then second else fourth) := by
  split
  · exact hThen
  · exact hElse

end Agree

/-- Behind a token fewer tokens are left. -/
theorem Agree.behind_advance {reader : Reader} (hEnded : reader.Ended)
    (hKind : reader.current.kind ≠ .endOfInput) {first second : Unit → Reading α}
    (hAgree : ∀ value, Agree reader.left (first value) (second value)) :
    (advance >>= first).run reader = (advance >>= second).run reader :=
  hAgree () reader.advance hEnded.advance.1 (hEnded.left_advance_lt hKind)

private theorem block_agree {limit : Nat} {first second : Reading (List Command)}
    (hAgree : Agree limit first second) (wanted : TokenKind) :
    Agree limit (block first wanted) (block second wanted) :=
  hAgree.followed _

end Reading

namespace Attempt

variable {α β : Type}

def Agree (limit : Nat) (first second : Attempt α) : Prop :=
  Reading.Agree limit first.run second.run

namespace Agree

variable {limit : Nat}

private theorem refl (limit : Nat) (attempt : Attempt α) : Agree limit attempt attempt :=
  Reading.Agree.refl _ _

private theorem lift {first second : Reading α} (hAgree : Reading.Agree limit first second) :
    Agree limit (liftM first : Attempt α) (liftM second) :=
  hAgree.followed fun value => Pure.pure (some value)

private theorem bind {first second : Attempt β} {next other : β → Attempt α}
    [hSteady : Steady first] (hFirst : Agree limit first second)
    (hNext : ∀ value, Agree limit (next value) (other value)) :
    Agree limit (first >>= next) (second >>= other) := by
  have hRun := hSteady.run
  rw [Agree, OptionT.run_bind, OptionT.run_bind, Option.elimM, Option.elimM]
  refine Reading.Agree.bind hFirst fun found => ?_
  cases found with
  | none => exact .refl _ _
  | some value => exact hNext value

private theorem ite {condition : Prop} [Decidable condition] {first second third fourth : Attempt α}
    (hThen : Agree limit first second) (hElse : Agree limit third fourth) :
    Agree limit (if condition then first else third) (if condition then second else fourth) := by
  split
  · exact hThen
  · exact hElse

end Agree

/-! ### Commands take tokens -/

-- The instances follow the whole body of a reader.
set_option synthInstance.maxSize 4096

private theorem run_current_bind (reader : Reader) (next : Token → Attempt α) :
    (liftM Reading.current >>= next).run.run reader = (next reader.current).run.run reader :=
  rfl

private theorem run_report_bind (reader : Reader) (fault : TokenKind → SyntaxFault)
    (next : Unit → Attempt α) :
    (liftM (Reading.report fault) >>= next).run.run reader =
      (next ()).run.run
        (reader.report reader.current.position.line (fault reader.current.kind)) :=
  rfl

private theorem leads_bind (attempt : Attempt β) {next : β → Attempt α}
    (hNext : ∀ value, Steady (next value)) (reader : Reader) :
    (attempt.run.run reader).2.Leads ((attempt >>= next).run.run reader).2 := by
  rw [OptionT.run_bind, Option.elimM, StateT.run_bind]
  obtain ⟨found, after⟩ := attempt.run.run reader
  cases found with
  | none => exact .refl
  | some value => exact (hNext value).run.leads after

section

variable {reader : Reader} (hEnded : reader.Ended) (hKind : reader.current.kind ≠ .endOfInput)

include hEnded hKind

private theorem left_lt_of_advance {after : Reader} (hLeads : reader.advance.Leads after) :
    after.left < reader.left :=
  Nat.lt_of_le_of_lt (hLeads.left_le hEnded.advance.1).2 (hEnded.left_advance_lt hKind)

private theorem left_advance_bind_lt {rest : Unit → Attempt α}
    [hSteady : ∀ value, Steady (rest value)] :
    ((liftM Reading.advance >>= rest).run.run reader).2.left < reader.left :=
  left_lt_of_advance hEnded hKind ((hSteady ()).run.leads reader.advance)

private theorem left_behind_word_lt {rest : Token → Attempt α} [∀ word, Steady (rest word)] :
    ((do
      let word ← Reading.current
      Reading.advance
      rest word : Attempt α).run.run reader).2.left < reader.left := by
  rw [run_current_bind]
  exact left_advance_bind_lt hEnded hKind

private theorem Agree.behind_word {first second : Token → Attempt α}
    (hAgree : ∀ word, Agree reader.left (first word) (second word)) :
    (do
      let word ← Reading.current
      Reading.advance
      first word : Attempt α).run.run reader =
    (do
      let word ← Reading.current
      Reading.advance
      second word : Attempt α).run.run reader :=
  hAgree _ reader.advance hEnded.advance.1 (hEnded.left_advance_lt hKind)

omit hKind in
private theorem left_reference_lt (hName : reader.current.kind = .identifier) :
    (reference.run.run reader).2.left < reader.left := by
  rw [reference, run_current_bind, if_pos hName]
  refine left_advance_bind_lt hEnded ?_
  rw [hName]
  exact nofun

section

variable (block : TokenKind → Reading (List Command)) [∀ wanted, Reading.Steady (block wanted)]

/-- A command takes at least one token, also when it is faulty. -/
theorem left_command_lt : ((command block).run.run reader).2.left < reader.left := by
  rw [command, run_current_bind]
  split
  case h_1 hName =>
    obtain ⟨hTarget, -⟩ := (reference_steady.run.leads reader).left_le hEnded
    rw [assignment, run_current_bind]
    exact Nat.lt_of_le_of_lt
      ((leads_bind reference (fun _ => inferInstance) reader).left_le hTarget).2
      (left_reference_lt hEnded hName)
  -- What starts no command is passed, too.
  case h_8 =>
    have hReported : (reader.report reader.current.position.line
      (.unexpectedStart reader.current.kind)).Ended := hEnded
    rw [run_report_bind]
    exact left_advance_bind_lt hReported hKind
  all_goals
    dsimp only [conditional, whileLoop, forLoop, readCommand, writeCommand, skipCommand]
    exact left_behind_word_lt hEnded hKind

end

variable {block other : TokenKind → Reading (List Command)}
  [∀ wanted, Reading.Steady (block wanted)]
  (hBlock : ∀ wanted, Reading.Agree reader.left (block wanted) (other wanted))

include hBlock

private theorem conditional_congr :
    (conditional block).run.run reader = (conditional other).run.run reader := by
  dsimp only [conditional]
  refine Agree.behind_word hEnded hKind fun word => ?_
  refine .bind (.refl _ condition) fun test => ?_
  refine .bind (.refl _ (require .thenWord)) fun _ => ?_
  refine .bind (.lift (hBlock .elseWord)) fun body => ?_
  refine .bind (.refl _ _) fun token => .ite ?_ (.refl _ _)
  refine .bind (.refl _ _) fun _ => ?_
  exact .bind (.lift (hBlock .endIfWord)) fun orElse => .refl _ _

private theorem whileLoop_congr :
    (whileLoop block).run.run reader = (whileLoop other).run.run reader := by
  dsimp only [whileLoop]
  refine Agree.behind_word hEnded hKind fun word => ?_
  refine .bind (.refl _ condition) fun test => ?_
  refine .bind (.refl _ (require .doWord)) fun _ => ?_
  exact .bind (.lift (hBlock .endWhileWord)) fun body => .refl _ _

private theorem forLoop_congr :
    (forLoop block).run.run reader = (forLoop other).run.run reader := by
  dsimp only [forLoop]
  refine Agree.behind_word hEnded hKind fun word => ?_
  refine .bind (.refl _ _) fun iterator => .ite ?_ (.refl _ _)
  refine .bind (.refl _ _) fun _ => ?_
  refine .bind (.refl _ (require .fromWord)) fun _ => ?_
  refine .bind (.refl _ atom) fun lower => ?_
  refine .bind (.refl _ direction) fun way => ?_
  refine .bind (.refl _ atom) fun upper => ?_
  refine .bind (.refl _ (require .doWord)) fun _ => ?_
  exact .bind (.lift (hBlock .endForWord)) fun body => .refl _ _

private theorem command_congr :
    (command block).run.run reader = (command other).run.run reader := by
  rw [command, command, run_current_bind, run_current_bind]
  split
  · rfl
  · exact conditional_congr hEnded hKind hBlock
  · exact whileLoop_congr hEnded hKind hBlock
  · exact forLoop_congr hEnded hKind hBlock
  all_goals rfl

end

end Attempt

/-! ### Passes of loops -/

namespace Reading

def skipWith (later : Reading Unit) : Reading Unit := do
  let kind := (← current).kind
  if kind = .semicolon then
    advance
  else if endsCommands kind || startsCommand kind then
    return
  else
    advance
    later

def commandRound (skip : Reading Unit) (nested : Reading (List Command)) :
    Reading (Option Command) := do
  let before := (← get).errors.length
  let found ← (Attempt.command (block nested)).run
  if before < (← get).errors.length then
    skip
  return found

def commandsWith (skip : Reading Unit) (nested later : Reading (List Command)) :
    Reading (List Command) := do
  if endsCommands (← current).kind then
    return []
  else
    let found ← commandRound skip nested
    let rest ← later
    return found.toList ++ rest

def declarationsWith (later : Reading (List Declaration)) : Reading (List Declaration) := do
  let name ← current
  if name.kind = .identifier then
    advance
    let mut length : Option Nat := none
    if (← current).kind = .openBracket then
      advance
      length ← Attempt.number.run
      let _ ← expect .closeBracket
    let declaration : Declaration := ⟨← spanFrom name.position, name.literal, length⟩
    let rest ← later
    return declaration :: rest
  else
    return []

def programWith (declared : Reading (List Declaration)) (commands : Reading (List Command)) :
    Reading (Option Program) := do
  let first := (← current).position
  if ← expect .varWord then
    let found ← declared
    let _ ← expect .beginWord
    let body ← block commands .endWord
    let _ ← expect .endWord
    if (← current).kind ≠ .endOfInput then
      report .unexpectedAfterEnd
    return some ⟨← spanFrom first, found, body⟩
  else
    return none

def skipLoop : Reading Unit := do
  skipToCommand (← bound)

def commandLoop : Reading (List Command) := do
  commands (← bound)

def declarationLoop : Reading (List Declaration) := do
  declarations (← bound)

private theorem skipToCommand_succ (fuel : Nat) :
    skipToCommand (fuel + 1) = skipWith (skipToCommand fuel) :=
  rfl

private theorem declarations_succ (fuel : Nat) :
    declarations (fuel + 1) = declarationsWith (declarations fuel) :=
  rfl

private theorem run_commandRound (skip : Reading Unit) (nested : Reading (List Command))
    (reader : Reader) :
    (commandRound skip nested).run reader =
      let first := (Attempt.command (block nested)).run.run reader
      (first.1, if reader.errors.length < first.2.errors.length then (skip.run first.2).2
        else first.2) := by
  change StateT.run (if reader.errors.length < ((Attempt.command
    (block nested)).run.run reader).2.errors.length then _ else _) _ = _
  dsimp only
  split <;> rfl

private theorem run_commandsWith (skip : Reading Unit) (nested later : Reading (List Command))
    (reader : Reader) :
    (commandsWith skip nested later).run reader =
      if endsCommands reader.current.kind then ([], reader)
      else
        let round := (commandRound skip nested).run reader
        let rest := later.run round.2
        (round.1.toList ++ rest.1, rest.2) := by
  change StateT.run (if endsCommands reader.current.kind = true then _ else _) reader = _
  split <;> rfl

private theorem commands_succ (fuel : Nat) :
    commands (fuel + 1) = commandsWith skipLoop (commands fuel) (commands fuel) := by
  refine StateT.ext fun reader => ?_
  rw [run_commands_succ, run_commandsWith, run_commandRound]
  rfl

private theorem program_eq : program = programWith declarationLoop commandLoop := by
  rfl

/-! ### Loops end -/

/-- A pass that asks the later passes only where fewer tokens are left. -/
def Descends {α : Type} (pass : Reading α → Reading α) : Prop :=
  ∀ (first second : Reading α) [Steady first] (reader : Reader), reader.Ended →
    Agree reader.left first second → (pass first).run reader = (pass second).run reader

section

variable {α : Type} {pass : Reading α → Reading α} (hPass : Descends pass) {loop : Nat → Reading α}
  [∀ fuel, Steady (loop fuel)] (hLoop : ∀ fuel, loop (fuel + 1) = pass (loop fuel))

include hPass hLoop

/-- More passes than there are tokens left make no difference. -/
theorem Descends.fuel_agree {limit fuel more : Nat} (hFuel : limit ≤ fuel) (hMore : limit ≤ more) :
    Agree limit (loop fuel) (loop more) := by
  induction limit generalizing fuel more with
  | zero => exact fun _ _ hLeft => absurd hLeft (Nat.not_lt_zero _)
  | succ limit inductionHypothesis =>
      obtain ⟨fuel, rfl⟩ := Nat.exists_eq_succ_of_ne_zero (Nat.ne_zero_of_lt hFuel)
      obtain ⟨more, rfl⟩ := Nat.exists_eq_succ_of_ne_zero (Nat.ne_zero_of_lt hMore)
      intro reader hEnded hLeft
      rw [Nat.succ_eq_add_one, Nat.succ_eq_add_one, hLoop, hLoop]
      have hAgree :=
        inductionHypothesis (Nat.le_of_succ_le_succ hFuel) (Nat.le_of_succ_le_succ hMore)
      exact hPass _ _ reader hEnded (hAgree.mono (Nat.le_of_lt_succ hLeft))

private theorem Descends.run_loop {reader : Reader} (hEnded : reader.Ended) :
    (bound >>= loop).run reader = (pass (bound >>= loop)).run reader := by
  have hBound := hEnded.left_lt
  change (loop (reader.rest.length + 1 + 1)).run reader = _
  rw [hLoop]
  refine hPass _ _ reader hEnded fun later hLater hLeft => ?_
  have hLaterBound := hLater.left_lt
  change _ = (loop (later.rest.length + 2)).run later
  exact hPass.fuel_agree hLoop (by omega) (by omega) later hLater (Nat.lt_succ_self _)

/-- A loop is over after fewer passes than there are tokens left, and what would be done
later is never done. -/
theorem Descends.loop_agree (beyond : Reading α) (limit : Nat) :
    Agree limit (bound >>= loop) (pass^[limit] beyond) := by
  induction limit with
  | zero => exact fun _ _ hLeft => absurd hLeft (Nat.not_lt_zero _)
  | succ limit inductionHypothesis =>
      intro reader hEnded hLeft
      rw [Function.iterate_succ_apply', hPass.run_loop hLoop hEnded]
      exact hPass _ _ reader hEnded (inductionHypothesis.mono (Nat.le_of_lt_succ hLeft))

end

private theorem ne_endOfInput {kind : TokenKind} (hKind : ¬ endsCommands kind = true) :
    kind ≠ .endOfInput := by
  rintro rfl
  exact hKind rfl

private theorem skipWith_descends : Descends skipWith := by
  intro first second _ reader hEnded hAgree
  change StateT.run (if reader.current.kind = .semicolon then _ else
      if (endsCommands reader.current.kind || startsCommand reader.current.kind) = true then _
      else _) reader =
    StateT.run (if reader.current.kind = .semicolon then _ else
      if (endsCommands reader.current.kind || startsCommand reader.current.kind) = true then _
      else _) reader
  split
  · rfl
  · split
    · rfl
    · rename_i hGoesOn
      rw [Bool.or_eq_true, not_or] at hGoesOn
      exact Agree.behind_advance hEnded (ne_endOfInput hGoesOn.1) fun _ => hAgree

private theorem declarationsWith_descends : Descends declarationsWith := by
  intro first second _ reader hEnded hAgree
  change StateT.run (if reader.current.kind = .identifier then _ else _) reader =
    StateT.run (if reader.current.kind = .identifier then _ else _) reader
  split
  · rename_i hName
    have hKind : reader.current.kind ≠ .endOfInput := by
      rw [hName]
      exact nofun
    dsimp only
    refine Agree.behind_advance hEnded hKind fun _ => ?_
    refine .bind (.refl _ current) fun opening => ?_
    refine .ite ?_ ?_
    · refine .bind (.refl _ _) fun _ => .bind (.refl _ _) fun length => .bind (.refl _ _) fun _ =>
        .bind (.refl _ _) fun span => ?_
      exact hAgree.followed _
    · refine .bind (.refl _ _) fun span => ?_
      exact hAgree.followed _
  · rfl

instance skipLoop_steady : Steady skipLoop := by
  unfold skipLoop
  infer_instance

instance declarationLoop_steady : Steady declarationLoop := by
  unfold declarationLoop
  infer_instance

instance commandLoop_steady : Steady commandLoop := by
  unfold commandLoop
  infer_instance

/-- A round takes at least one token, in the command or in what is skipped behind it. -/
theorem left_commandRound_lt {reader : Reader} (hEnded : reader.Ended)
    (hStarts : ¬ endsCommands reader.current.kind = true) (skip : Reading Unit)
    [hSkip : Steady skip] (nested : Reading (List Command)) [Steady nested] :
    ((commandRound skip nested).run reader).2.Ended ∧
      ((commandRound skip nested).run reader).2.left < reader.left := by
  have hFirst := Attempt.left_command_lt hEnded (ne_endOfInput hStarts) (block nested)
  obtain ⟨hBehind, -⟩ :=
    ((Attempt.command_steady (block nested)).run.leads reader).left_le hEnded
  rw [run_commandRound]
  dsimp only
  split
  · obtain ⟨hLater, hLeft⟩ := (hSkip.leads _).left_le hBehind
    exact ⟨hLater, Nat.lt_of_le_of_lt hLeft hFirst⟩
  · exact ⟨hBehind, hFirst⟩

section

variable {skip otherSkip : Reading Unit} {nested otherNested : Reading (List Command)}
  [Steady nested] {reader : Reader} (hEnded : reader.Ended)

include hEnded

private theorem commandRound_congr (hStarts : ¬ endsCommands reader.current.kind = true)
    (hSkips : Agree reader.left skip otherSkip) (hLists : Agree reader.left nested otherNested) :
    (commandRound skip nested).run reader = (commandRound otherSkip otherNested).run reader := by
  have hKind := ne_endOfInput hStarts
  have hFirst := Attempt.left_command_lt hEnded hKind (block nested)
  obtain ⟨hBehind, -⟩ :=
    ((Attempt.command_steady (block nested)).run.leads reader).left_le hEnded
  rw [run_commandRound, run_commandRound,
    ← Attempt.command_congr hEnded hKind fun wanted => block_agree hLists wanted]
  dsimp only
  rw [hSkips _ hBehind hFirst]

/-- Reading a command list asks for the lists inside it, and for the rest of it, only where
fewer tokens are left. -/
theorem commandsWith_congr {later otherLater : Reading (List Command)} [Steady skip]
    (hSkips : Agree reader.left skip otherSkip) (hLists : Agree reader.left nested otherNested)
    (hLater : Agree reader.left later otherLater) :
    (commandsWith skip nested later).run reader =
      (commandsWith otherSkip otherNested otherLater).run reader := by
  rw [run_commandsWith, run_commandsWith]
  split
  · rfl
  · rename_i hStarts
    obtain ⟨hBehind, hLess⟩ := left_commandRound_lt hEnded hStarts skip nested
    rw [← commandRound_congr hEnded hStarts hSkips hLists]
    dsimp only
    rw [hLater _ hBehind hLess]

private theorem run_commandLoop :
    commandLoop.run reader = (commandsWith skipLoop commandLoop commandLoop).run reader := by
  have hPass : Descends fun list => commandsWith skipLoop list list :=
    fun _ _ _ _ hBefore hAgree => commandsWith_congr hBefore (.refl _ _) hAgree hAgree
  exact hPass.run_loop commands_succ hEnded

end

end Reading

/-! ### Readers whose loops are cut off -/

/-- What a reader does where a loop is not over after a number of passes. -/
structure Overrun where
  skip : Reading Unit
  commands : Reading (List Command)
  declarations : Reading (List Declaration)

namespace Overrun

open Reading

variable (overrun : Overrun) (limit : Nat)

def skipUpTo : Reading Unit :=
  skipWith^[limit] overrun.skip

def declarationsUpTo : Reading (List Declaration) :=
  declarationsWith^[limit] overrun.declarations

/-- Reading a command list with at most `limit` passes in a row and lists nested at most
`depth` deep. -/
def commandsUpTo : Nat → Reading (List Command)
  | 0 => overrun.commands
  | depth + 1 =>
      (commandsWith (overrun.skipUpTo limit) (commandsUpTo depth))^[limit] overrun.commands

def programUpTo : Reading (Option Program) :=
  programWith (overrun.declarationsUpTo limit) (overrun.commandsUpTo limit limit)

variable {limit}

private theorem skip_agree : Agree limit skipLoop (overrun.skipUpTo limit) :=
  skipWith_descends.loop_agree skipToCommand_succ overrun.skip limit

private theorem declarations_agree : Agree limit declarationLoop (overrun.declarationsUpTo limit) :=
  declarationsWith_descends.loop_agree declarations_succ overrun.declarations limit

/-- Where the lists inside are read to the end with fewer than `depth` tokens left, a list is
read to the end with one token more. -/
theorem rounds_agree {nested : Reading (List Command)} {depth : Nat} (hDepth : depth < limit)
    (hNested : Agree depth commandLoop nested) {bound passes : Nat} (hBound : bound ≤ depth + 1)
    (hPasses : bound ≤ passes) :
    Agree bound commandLoop
      ((commandsWith (overrun.skipUpTo limit) nested)^[passes] overrun.commands) := by
  induction bound generalizing passes with
  | zero => exact fun _ _ hLeft => absurd hLeft (Nat.not_lt_zero _)
  | succ bound inductionHypothesis =>
      obtain ⟨passes, rfl⟩ := Nat.exists_eq_succ_of_ne_zero (Nat.ne_zero_of_lt hPasses)
      have hLater := inductionHypothesis (Nat.le_of_succ_le hBound) (Nat.le_of_succ_le_succ hPasses)
      intro reader hEnded hLeft
      rw [Function.iterate_succ_apply', run_commandLoop hEnded]
      exact commandsWith_congr hEnded (overrun.skip_agree.mono (by omega))
        (hNested.mono (by omega)) (hLater.mono (by omega))

private theorem commands_agree {depth : Nat} (hDepth : depth ≤ limit) :
    Agree depth commandLoop (overrun.commandsUpTo limit depth) := by
  induction depth with
  | zero => exact fun _ _ hLeft => absurd hLeft (Nat.not_lt_zero _)
  | succ depth inductionHypothesis =>
      exact overrun.rounds_agree hDepth (inductionHypothesis (Nat.le_of_succ_le hDepth))
        (Nat.le_refl _) hDepth

private theorem program_agree : Agree limit program (overrun.programUpTo limit) := by
  rw [program_eq]
  refine .bind (.refl _ _) fun first => ?_
  refine .bind (.refl _ _) fun passed => .ite ?_ (.refl _ _)
  refine .bind overrun.declarations_agree fun found => ?_
  refine .bind (.refl _ _) fun _ => ?_
  exact (block_agree (overrun.commands_agree (Nat.le_refl _)) _).followed _

end Overrun

/-- A text is split and read to the end, whatever it is.  The next token lies further on unless
the text ends; splitting needs no more passes than there are characters; a round of reading
commands takes a token; and no loop needs more passes, nor do command lists need to be nested
deeper, than there are tokens. -/
theorem reading_ends (text : Bytes) :
    ((Cursor.ofBytes text).In text ∧ ∀ cursor : Cursor, cursor.In text →
      (Token.next cursor).2.In text ∧
        (cursor.position.offset < (Token.next cursor).2.position.offset ∨
          (Token.next cursor).1.kind = .endOfInput ∧ Stops (Token.next cursor).2.rest)) ∧
    (∀ (beyond : Cursor → List Token) (limit : Nat), (glyphs text).length < limit →
      Token.scanWith^[limit] beyond (Cursor.ofBytes text) = Token.scan text) ∧
    (∀ reader : Reader, (Reader.ofTokens (Token.scan text)).Leads reader →
      ¬ Reading.endsCommands reader.current.kind = true →
      ((Reading.commandRound Reading.skipLoop Reading.commandLoop).run reader).2.left <
        reader.left) ∧
    ∀ (overrun : Overrun) (limit : Nat), (Token.scan text).length ≤ limit →
      readText (overrun.programUpTo limit) text = readProgram text ∧
        readText (Reading.block (overrun.commandsUpTo limit limit) .endOfInput) text =
          readCommands text := by
  obtain ⟨hEnded, hLeft⟩ := Reader.ended_ofTokens (Token.ended_scan text)
  refine ⟨⟨Cursor.ofBytes_in text, fun cursor => Token.next_progresses⟩, fun beyond limit hLimit =>
    Token.iterate_scanWith beyond (Nat.lt_succ_self _) hLimit, fun reader hLeads hStarts => ?_,
    fun overrun limit hLimit => ⟨?_, ?_⟩⟩
  · exact (Reading.left_commandRound_lt (hLeads.left_le hEnded).1 hStarts _ _).2
  · have hRun := overrun.program_agree _ hEnded (Nat.lt_of_lt_of_le hLeft hLimit)
    rw [readText, ← hRun]
    rfl
  · have hRun := Reading.block_agree (overrun.commands_agree (Nat.le_refl limit)) .endOfInput _
      hEnded (Nat.lt_of_lt_of_le hLeft hLimit)
    rw [readText, ← hRun]
    rfl

end RegisterCompiler
