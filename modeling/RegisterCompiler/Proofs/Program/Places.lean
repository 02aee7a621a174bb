/-
Trees and the tokens they were read from.

Reading that finds no fault takes tokens one after the other, and the parts of what it gives
take theirs one after the other inside these.  A part starts at its first token and ends
behind its last one; only an index that is a name reaches on, up to the token after it.
-/

import RegisterCompiler.Proofs.Program.Derivation

set_option autoImplicit false

namespace RegisterCompiler

open Source (Position Span)
open Grammar

/-! ### Parts of programs -/

inductive Node where
  | program (tree : Program)
  | declaration (tree : Declaration)
  | command (tree : Command)
  | expression (tree : Expression)
  | condition (tree : Condition)
  | atom (tree : Atom)
  | reference (tree : Reference)
  | index (tree : Index)

namespace Node

def span : Node → Span
  | program tree => tree.span
  | declaration tree => tree.span
  | command tree => tree.span
  | expression tree => tree.span
  | condition tree => tree.span
  | atom tree => tree.span
  | reference tree => tree.span
  | index (.number span _) => span
  | index (.name span _) => span

def symbols : Node → List Symbol
  | program tree => tree.symbols
  | declaration tree => tree.symbols
  | command tree => tree.symbols
  | expression tree => tree.symbols
  | condition tree => tree.symbols
  | atom tree => tree.symbols
  | reference tree => tree.symbols
  | index tree => tree.symbols

def children : Node → List Node
  | program tree => tree.declarations.map declaration ++ tree.body.map command
  | declaration _ => []
  | command (.assign _ target value) => [reference target, expression value]
  | command (.read _ target) => [reference target]
  | command (.write _ value) => [atom value]
  | command (.skip _) => []
  | command (.ifThen _ test body) => condition test :: body.map command
  | command (.ifElse _ test body orElse) =>
      condition test :: (body.map command ++ orElse.map command)
  | command (.whileLoop _ test body) => condition test :: body.map command
  | command (.forLoop _ _ first last _ body) => atom first :: atom last :: body.map command
  | expression (.atom _ value) => [atom value]
  | expression (.operation _ left _ right) => [atom left, atom right]
  | condition tree => [atom tree.left, atom tree.right]
  | atom (.number _ _) => []
  | atom (.reference cell) => [reference cell]
  | reference cell => cell.index.toList.map index
  | index _ => []

def isNameIndex : Node → Bool
  | index (.name _ _) => true
  | _ => false

inductive Occurs (root : Node) : Node → Prop where
  | self : Occurs root root
  | child {parent node : Node} (hParent : Occurs root parent) (hChild : node ∈ parent.children) :
      Occurs root node

/-- The end of a part, given its last token and the tokens after it. -/
def StopsAt (node : Node) (last : Token) (later : List Token) : Prop :=
  match node.isNameIndex with
  | true => ∃ next ∈ later.head?, node.span.last = next.position
  | false => node.span.last = last.stop

mutual

/-- A part that takes the tokens `used`, which `later` follow. -/
inductive Laid : List Token → List Token → Node → Prop where
  | mk {used later : List Token} {node : Node} (hSymbols : node.symbols = symbolsOf used)
      (hStart : ∃ first ∈ used.head?, node.span.first = first.position)
      (hStop : ∃ last ∈ used.getLast?, node.StopsAt last later)
      (hParts : Within used later node.children) : Laid used later node

inductive Within : List Token → List Token → List Node → Prop where
  | nil {used later : List Token} : Within used later []
  | skip {used later : List Token} {nodes : List Node} (token : Token)
      (hParts : Within used later nodes) : Within (token :: used) later nodes
  | cons {part used later : List Token} {node : Node} {nodes : List Node}
      (hNode : Laid part (used ++ later) node)
      (hBehind : node.isNameIndex = true → used ≠ []) (hParts : Within used later nodes) :
      Within (part ++ used) later (node :: nodes)

end

private theorem Within.skipAll (gap : List Token) {used later : List Token} {nodes : List Node}
    (hParts : Within used later nodes) : Within (gap ++ used) later nodes := by
  induction gap with
  | nil => exact hParts
  | cons token gap inductionHypothesis => exact .skip token inductionHypothesis

private theorem Within.append {used more later : List Token} {nodes others : List Node} :
    Within used (more ++ later) nodes → Within more later others →
      Within (used ++ more) later (nodes ++ others)
  | .nil, hOthers => hOthers.skipAll used
  | .skip token hParts, hOthers => .skip token (hParts.append hOthers)
  | .cons hNode hBehind hParts, hOthers => by
      rw [List.append_assoc]
      refine .cons ?_ (fun hName => ?_) (hParts.append hOthers)
      · rwa [List.append_assoc]
      · exact List.append_ne_nil_of_left_ne_nil (hBehind hName) _

private theorem Within.close {used later : List Token} {token : Token} {nodes : List Node}
    (hParts : Within used (token :: later) nodes) : Within (used ++ [token]) later nodes := by
  have hAll : Within (used ++ [token]) later (nodes ++ []) := Within.append hParts .nil
  rwa [List.append_nil] at hAll

private theorem Laid.before {part used later : List Token} {node : Node} {nodes : List Node}
    (hNode : Laid part (used ++ later) node) (hName : node.isNameIndex = false)
    (hParts : Within used later nodes) : Within (part ++ used) later (node :: nodes) :=
  .cons hNode (fun hReaches => absurd (hName.symm.trans hReaches) Bool.false_ne_true) hParts

private theorem Laid.within {used later : List Token} {node : Node} (hNode : Laid used later node)
    (hName : node.isNameIndex = false) : Within used later [node] := by
  have hParts : Within (used ++ []) later [node] := hNode.before hName .nil
  rwa [List.append_nil] at hParts

theorem Within.exists_of_mem {used later : List Token} {nodes : List Node} {node : Node} :
    Within used later nodes → node ∈ nodes → ∃ front part back, used = front ++ (part ++ back) ∧
      Laid part (back ++ later) node ∧ (node.isNameIndex = true → back ≠ [])
  | .nil, hNode => nomatch hNode
  | .skip token hParts, hNode => by
      obtain ⟨front, part, back, rfl, hLaid, hBehind⟩ := hParts.exists_of_mem hNode
      exact ⟨token :: front, part, back, rfl, hLaid, hBehind⟩
  | .cons hFirst hBehind hParts, hNode => by
      rcases List.mem_cons.mp hNode with rfl | hLater
      · exact ⟨[], _, _, rfl, hFirst, hBehind⟩
      · obtain ⟨front, part, back, rfl, hLaid, hBehind⟩ := hParts.exists_of_mem hLater
        exact ⟨_ ++ front, part, back, (List.append_assoc _ _ _).symm, hLaid, hBehind⟩

private theorem Laid.exists_last {used later : List Token} {node : Node}
    (hNode : Laid used later node) :
    ∃ last, used.getLast? = some last := by
  obtain ⟨-, -, ⟨last, hLast, -⟩, -⟩ := hNode
  exact ⟨last, hLast⟩

private theorem Laid.ne_nil {used later : List Token} {node : Node} (hNode : Laid used later node) :
    used ≠ [] := by
  rintro rfl
  obtain ⟨last, hLast⟩ := hNode.exists_last
  cases hLast

/-- Whatever is inside a part takes tokens of its own among those of the part. -/
theorem Laid.exists_of_occurs {used later : List Token} {root node : Node}
    (hRoot : Laid used later root) (hName : root.isNameIndex = false) (hNode : Occurs root node) :
    ∃ front part back, used = front ++ (part ++ back) ∧ Laid part (back ++ later) node ∧
      (node.isNameIndex = true → back ≠ []) := by
  induction hNode with
  | self =>
      refine ⟨[], used, [], (List.append_nil used).symm, hRoot, fun hReaches => ?_⟩
      exact absurd (hName.symm.trans hReaches) Bool.false_ne_true
  | child _ hChild inductionHypothesis =>
      obtain ⟨front, part, back, rfl, ⟨-, -, -, hParts⟩, -⟩ := inductionHypothesis
      obtain ⟨before, inner, behind, rfl, hLaid, hBehind⟩ := hParts.exists_of_mem hChild
      refine ⟨front ++ before, inner, behind ++ back, by simp, by rwa [List.append_assoc], ?_⟩
      exact fun hReaches => List.append_ne_nil_of_left_ne_nil (hBehind hReaches) _

end Node

/-! ### Readers that know what they passed -/

namespace Reader

private theorem passedEnd_fetch (reader : Reader) (tokens : List Token) :
    (reader.fetch tokens).passedEnd = reader.passedEnd := by
  induction tokens generalizing reader with
  | nil => rfl
  | cons token rest inductionHypothesis =>
      unfold fetch
      split
      · exact inductionHypothesis _
      · rfl

/-- A reader that passed the tokens `front` and has `tokens` ahead. -/
structure Stands (reader : Reader) (front tokens : List Token) : Prop where
  here : reader.At tokens
  spelled : ∀ token ∈ tokens, token.kind ≠ .endOfInput → token.literal ≠ ""
  passed : ∀ last ∈ front.getLast?, reader.passedEnd = last.stop

private theorem Stands.advance {reader : Reader} {front rest : List Token} {token : Token}
    (hStands : reader.Stands front (token :: rest)) (hKind : token.kind ≠ .endOfInput) :
    reader.advance.Stands (front ++ [token]) rest ∧ reader.advance.errors = reader.errors := by
  obtain ⟨hHere, hErrors⟩ := hStands.here.advance hKind
  obtain ⟨hToken, hRest⟩ := List.forall_mem_cons.mp hStands.spelled
  refine ⟨⟨hHere, hRest, ?_⟩, hErrors⟩
  intro last hLast
  rw [List.getLast?_concat, Option.mem_some_iff] at hLast
  rw [← hLast, Reader.advance, passedEnd_fetch]
  simp only [hStands.here.current_eq, if_neg (hToken hKind)]

private theorem At.exists_upcoming {reader : Reader} {token : Token} {rest : List Token}
    (hAt : reader.At (token :: rest)) (hKind : token.kind ≠ .endOfInput) :
    ∃ later, rest = reader.upcoming :: later := by
  cases rest with
  | nil =>
      cases hAt.clean with
      | last hEnd => exact absurd hEnd hKind
      | more _ _ hRest => exact absurd rfl hRest.ne_nil
  | cons second later => exact ⟨later, by rw [hAt.sees.2.1]⟩

private theorem At.unique {reader : Reader} {tokens others : List Token} (hAt : reader.At tokens)
    (hOther : reader.At others) : tokens = others := by
  have hEnds : ∀ {last first second : Token} {later : List Token}, reader.At [last] →
      ¬ reader.At (first :: second :: later) := by
    intro last first second later hLast hMore
    have hSame : first = last := hMore.current_eq.symm.trans hLast.current_eq
    cases hMore.clean with
    | more hKind =>
        cases hLast.clean with
        | last hEnd => exact hKind (hSame ▸ hEnd)
        | more _ _ hNone => exact absurd rfl hNone.ne_nil
  match tokens, others, hAt, hOther with
  | [last], [other], hAt, hOther => rw [← hAt.current_eq, ← hOther.current_eq]
  | [last], _ :: _ :: _, hAt, hOther => exact absurd hOther (hEnds hAt)
  | _ :: _ :: _, [last], hAt, hOther => exact absurd hAt (hEnds hOther)
  | _ :: _ :: _, _ :: _ :: _, hAt, hOther =>
      obtain ⟨hFirst, hSecond, hRest⟩ := hAt.sees
      obtain ⟨hFirstSame, hSecondSame, hRestSame⟩ := hOther.sees
      rw [← hFirst, ← hSecond, ← hRest, hFirstSame, hSecondSame, hRestSame]
  | [], _, hAt, _ => exact absurd rfl hAt.clean.ne_nil
  | _, [], _, hOther => exact absurd rfl hOther.clean.ne_nil

end Reader

set_option synthInstance.maxSize 4096

namespace Reading

variable {α β : Type}

/-- Reading that finds a fault, or takes tokens that stand in a relation to the result and to
the tokens after them. -/
def Places (reading : Reading α) (front tokens : List Token)
    (post : α → List Token → List Token → Prop) : Prop :=
  ∀ reader : Reader, reader.Stands front tokens →
    (reading.run reader).2.errors = reader.errors →
      ∃ used rest, tokens = used ++ rest ∧ (reading.run reader).2.Stands (front ++ used) rest ∧
        post (reading.run reader).1 used rest

namespace Places

variable {front tokens : List Token} {post : α → List Token → List Token → Prop}

private theorem pure {value : α} (hPost : post value [] tokens) :
    Places (pure value) front tokens post :=
  fun _ hStands _ => ⟨[], tokens, rfl, by rwa [List.append_nil], hPost⟩

private theorem bind {reading : Reading β} {next : β → Reading α}
    {middle : β → List Token → List Token → Prop} [hReading : Steady reading]
    (hSteady : ∀ value, Steady (next value)) (hFirst : Places reading front tokens middle)
    (hNext : ∀ value used rest, tokens = used ++ rest → middle value used rest →
      Places (next value) (front ++ used) rest fun found more => post found (used ++ more)) :
    Places (reading >>= next) front tokens post := by
  intro reader hStands hSame
  obtain ⟨hEarly, hLate⟩ := (hReading.leads reader).errors_eq ((hSteady _).leads _) hSame
  obtain ⟨used, rest, rfl, hMiddle, hPost⟩ := hFirst reader hStands hEarly
  obtain ⟨more, last, rfl, hEnd, hFinal⟩ := hNext _ used rest rfl hPost _ hMiddle hLate
  refine ⟨used ++ more, last, (List.append_assoc _ _ _).symm, ?_, hFinal⟩
  rwa [← List.append_assoc]

private theorem current {next : Token → Reading α}
    (hNext : ∀ token rest, tokens = token :: rest →
      Places (next token) front (token :: rest) post) :
    Places (Reading.current >>= next) front tokens post := by
  intro reader hStands hSame
  obtain ⟨rest, hTokens⟩ := hStands.here.exists_cons
  rw [hTokens] at hStands ⊢
  exact hNext _ rest hTokens reader hStands hSame

private theorem advance {next : Unit → Reading α} {token : Token} {rest : List Token}
    {kind : TokenKind} (hKind : token.kind = kind) (hMoves : kind ≠ .endOfInput)
    (hNext : Places (next ()) (front ++ [token]) rest fun found more =>
      post found (token :: more)) :
    Places (Reading.advance >>= next) front (token :: rest) post := by
  intro reader hStands hSame
  obtain ⟨hLater, hErrors⟩ := hStands.advance (hKind ▸ hMoves)
  obtain ⟨used, last, rfl, hEnd, hPost⟩ := hNext _ hLater (hSame.trans hErrors.symm)
  refine ⟨token :: used, last, rfl, ?_, hPost⟩
  rwa [List.append_assoc] at hEnd

private theorem spanFrom {first : Position} {next : Span → Reading α} {last : Token}
    (hLast : front.getLast? = some last)
    (hNext : Places (next ⟨first, last.stop⟩) front tokens post) :
    Places (Reading.spanFrom first >>= next) front tokens post := by
  intro reader hStands hSame
  have hPassed := hStands.passed last hLast
  have hRun : (Reading.spanFrom first >>= next).run reader =
      (next ⟨first, last.stop⟩).run reader := by
    rw [← hPassed]
    rfl
  rw [hRun] at hSame ⊢
  exact hNext reader hStands hSame

private theorem bound {next : Nat → Reading α}
    (hNext : ∀ fuel, Places (next fuel) front tokens post) :
    Places (Reading.bound >>= next) front tokens post :=
  fun reader => hNext _ reader

private theorem report (fault : TokenKind → SyntaxFault) {next : Unit → Reading α}
    (hSteady : ∀ value, Steady (next value)) :
    Places (Reading.report fault >>= next) front tokens post := by
  intro reader _ hSame
  obtain ⟨hEarly, -⟩ :=
    ((report_steady fault).leads reader).errors_eq ((hSteady ()).leads _) hSame
  exact absurd (List.self_eq_append_right.mp hEarly.symm) (List.cons_ne_nil _ _)

private theorem expect {wanted : TokenKind} (hWanted : wanted ≠ .endOfInput)
    {next : Bool → Reading α} (hSteady : ∀ value, Steady (next value))
    (hNext : ∀ token rest, tokens = token :: rest → token.kind = wanted →
      Places (next true) (front ++ [token]) rest fun found more => post found (token :: more)) :
    Places (Reading.expect wanted >>= next) front tokens post := by
  unfold Reading.expect
  rw [bind_assoc]
  refine .current fun token rest hTokens => ?_
  split
  · rename_i hKind
    rw [bind_assoc]
    exact .advance hKind hWanted (hNext token rest hTokens hKind)
  · rw [bind_assoc]
    exact .report _ fun _ => hSteady _

end Places

end Reading

theorem getLast?_append_eq (front : List Token) {back : List Token} {last : Token}
    (hLast : back.getLast? = some last) : (front ++ back).getLast? = some last := by
  rw [List.getLast?_append, hLast]
  rfl

private theorem head?_append_eq {token : Token} {rest first later : List Token}
    (hTokens : token :: rest = first ++ later) (hFirst : first ≠ []) (more : List Token) :
    (first ++ more).head? = some token := by
  cases first with
  | nil => exact absurd rfl hFirst
  | cons head tail =>
      obtain ⟨rfl, -⟩ := List.cons.inj hTokens
      rfl

namespace Attempt

variable {α β : Type}

def Places (attempt : Attempt α) (front tokens : List Token)
    (post : α → List Token → List Token → Prop) : Prop :=
  Reading.Places attempt.run front tokens fun found used rest =>
    ∃ value, found = some value ∧ post value used rest

namespace Places

variable {front tokens : List Token} {post : α → List Token → List Token → Prop}

private theorem pure {value : α} (hPost : post value [] tokens) :
    Places (pure value) front tokens post :=
  Reading.Places.pure ⟨value, rfl, hPost⟩

/-- The rule for sequences whose second part is known to be steady. -/
theorem then_steady {attempt : Attempt β} {next : β → Attempt α}
    {middle : β → List Token → List Token → Prop} [hAttempt : Steady attempt]
    (hSteady : ∀ value, Steady (next value)) (hFirst : Places attempt front tokens middle)
    (hNext : ∀ value used rest, tokens = used ++ rest → middle value used rest →
      Places (next value) (front ++ used) rest fun found more => post found (used ++ more)) :
    Places (attempt >>= next) front tokens post := by
  have hRest : ∀ found : Option β, Reading.Steady
      (found.elim (Pure.pure none) fun value => (next value).run) := by
    intro found
    cases found with
    | none => exact Reading.Steady.pure none
    | some value => exact (hSteady value).run
  have hAttempt := hAttempt.run
  rw [Places, OptionT.run_bind, Option.elimM]
  refine .bind hRest hFirst ?_
  rintro found used rest hTokens ⟨value, rfl, hMiddle⟩
  exact hNext value used rest hTokens hMiddle

private theorem bind {attempt : Attempt β} {next : β → Attempt α}
    {middle : β → List Token → List Token → Prop} [Steady attempt]
    [hSteady : ∀ value, Steady (next value)] (hFirst : Places attempt front tokens middle)
    (hNext : ∀ value used rest, tokens = used ++ rest → middle value used rest →
      Places (next value) (front ++ used) rest fun found more => post found (used ++ more)) :
    Places (attempt >>= next) front tokens post :=
  .then_steady hSteady hFirst hNext

private theorem lift {reading : Reading α} (hReading : Reading.Places reading front tokens post) :
    Places (liftM reading) front tokens post := by
  intro reader hStands hSame
  obtain ⟨used, rest, hTokens, hLater, hPost⟩ := hReading reader hStands hSame
  exact ⟨used, rest, hTokens, hLater, _, rfl, hPost⟩

private theorem current {next : Token → Attempt α}
    (hNext : ∀ token rest, tokens = token :: rest →
      Places (next token) front (token :: rest) post) :
    Places (liftM Reading.current >>= next) front tokens post :=
  Reading.Places.current hNext

private theorem advance {next : Unit → Attempt α} {token : Token} {rest : List Token}
    {kind : TokenKind} (hKind : token.kind = kind) (hMoves : kind ≠ .endOfInput)
    (hNext : Places (next ()) (front ++ [token]) rest fun found more =>
      post found (token :: more)) :
    Places (liftM Reading.advance >>= next) front (token :: rest) post :=
  Reading.Places.advance hKind hMoves hNext

private theorem spanFrom {first : Position} {next : Span → Attempt α} {last : Token}
    (hLast : front.getLast? = some last)
    (hNext : Places (next ⟨first, last.stop⟩) front tokens post) :
    Places (liftM (Reading.spanFrom first) >>= next) front tokens post :=
  Reading.Places.spanFrom hLast hNext

/-- Looking at the token after the current one. -/
theorem upcoming {next : Reader → Attempt α} {token : Token} {rest : List Token}
    (hKind : token.kind ≠ .endOfInput)
    (hNext : ∀ reader later, rest = reader.upcoming :: later →
      Places (next reader) front (token :: rest) post) :
    Places (MonadState.get >>= next) front (token :: rest) post := by
  intro reader hStands
  obtain ⟨later, hRest⟩ := hStands.here.exists_upcoming hKind
  exact hNext reader later hRest reader hStands

private theorem report (fault : TokenKind → SyntaxFault) {next : Unit → Attempt α}
    [hSteady : ∀ value, Steady (next value)] :
    Places (liftM (Reading.report fault) >>= next) front tokens post :=
  Reading.Places.report fault fun value => (hSteady value).run

private theorem refuse (fault : TokenKind → SyntaxFault) :
    Places (Attempt.refuse fault : Attempt α) front tokens post :=
  .report fault

private theorem require {wanted : TokenKind} (hWanted : wanted ≠ .endOfInput)
    {next : Unit → Attempt α} [hSteady : ∀ value, Steady (next value)]
    (hNext : ∀ token rest, tokens = token :: rest → token.kind = wanted →
      Places (next ()) (front ++ [token]) rest fun found more => post found (token :: more)) :
    Places (Attempt.require wanted >>= next) front tokens post := by
  have hRun : (Attempt.require wanted >>= next).run = Reading.expect wanted >>= fun passed =>
      if passed then (next ()).run else Pure.pure none := by
    unfold Attempt.require
    simp only [OptionT.run_bind, Option.elimM, OptionT.run_monadLift, bind_assoc, bind_map_left]
    refine congrArg (Reading.expect wanted >>= ·) (funext fun passed => ?_)
    cases passed <;> rfl
  rw [Places, hRun]
  refine .expect hWanted (fun passed => ?_) hNext
  split
  · exact (hSteady ()).run
  · exact Reading.Steady.pure none

/-- Attempts that are known to derive what they give. -/
theorem derived {attempt : Attempt α} {production : List Symbol → α → Prop}
    (hExplains : Explains attempt tokens (Derived production tokens))
    (hPlaces : Places attempt front tokens fun value used rest =>
      production (symbolsOf used) value → post value used rest) :
    Places attempt front tokens post := by
  intro reader hStands hSame
  obtain ⟨rest, hRest, value, hValue, used, hUsed, hProduction⟩ :=
    hExplains reader hStands.here hSame
  obtain ⟨taken, later, hTaken, hLater, other, hOther, hPost⟩ := hPlaces reader hStands hSame
  obtain rfl := hLater.here.unique hRest
  obtain rfl := List.append_cancel_right (hTaken.symm.trans hUsed)
  obtain rfl := Option.some.inj (hOther.symm.trans hValue)
  exact ⟨taken, later, hTaken, hLater, other, hOther, hPost hProduction⟩

end Places

variable (front tokens : List Token)

/-! #### Operands -/

theorem number_places : Places number front tokens fun value used _ =>
    ∃ token, used = [token] ∧ token.symbol = .number value := by
  refine .current fun token rest _ => ?_
  split
  · rename_i hKind
    exact .advance hKind TokenKind.noConfusion (.pure ⟨token, rfl, Token.symbol_of_number hKind⟩)
  · exact .refuse _

private theorem index_places :
    Places index front tokens fun found used rest => Node.Laid used rest (.index found) := by
  refine .derived (index_explains tokens) (.current fun token rest hTokens => ?_)
  split
  · refine .bind (number_places _ _) ?_
    rintro value _ later hUsed ⟨number, rfl, -⟩
    obtain ⟨rfl, rfl⟩ := List.cons.inj hUsed
    refine .spanFrom List.getLast?_concat ?_
    exact .pure fun hIndex => .mk hIndex.symbols_eq ⟨token, rfl, rfl⟩ ⟨token, rfl, rfl⟩ .nil
  · split
    · rename_i hName
      refine .upcoming (by rw [hName]; exact TokenKind.noConfusion) fun reader later hRest => ?_
      refine .advance hName TokenKind.noConfusion ?_
      exact .pure fun hIndex => .mk hIndex.symbols_eq ⟨token, rfl, rfl⟩
        ⟨token, rfl, reader.upcoming, by rw [hRest]; rfl, rfl⟩ .nil
    · exact .refuse _

private theorem reference_places :
    Places reference front tokens fun found used rest =>
      Node.Laid used rest (.reference found) := by
  refine .derived (reference_explains tokens) (.current fun name rest hTokens => ?_)
  split
  · refine .advance ‹_› TokenKind.noConfusion (.current fun opening later hLater => ?_)
    split
    · refine .advance ‹_› TokenKind.noConfusion (.bind (index_places _ _) ?_)
      rintro found inner behind - hIndex
      refine .require TokenKind.noConfusion fun closing final hFinal hClosing => ?_
      refine .spanFrom List.getLast?_concat (.pure fun hCell => ?_)
      subst hFinal
      refine .mk hCell.symbols_eq ⟨name, rfl, rfl⟩ ⟨closing, by simp [List.getLast?_cons], rfl⟩ ?_
      exact .skip name (.skip opening (.cons hIndex (fun _ => List.cons_ne_nil _ _) .nil))
    · refine .spanFrom List.getLast?_concat ?_
      exact .pure fun hCell => .mk hCell.symbols_eq ⟨name, rfl, rfl⟩ ⟨name, rfl, rfl⟩ .nil
  · exact .refuse _

private theorem atom_places :
    Places atom front tokens fun found used rest => Node.Laid used rest (.atom found) := by
  refine .derived (atom_explains tokens) (.current fun token rest hTokens => ?_)
  split
  · refine .bind (number_places _ _) ?_
    rintro value _ later hUsed ⟨number, rfl, -⟩
    obtain ⟨rfl, rfl⟩ := List.cons.inj hUsed
    refine .spanFrom List.getLast?_concat ?_
    exact .pure fun hValue => .mk hValue.symbols_eq ⟨token, rfl, rfl⟩ ⟨token, rfl, rfl⟩ .nil
  · split
    · refine .bind (reference_places _ _) ?_
      rintro cell used later - hCell
      refine .pure fun hValue => ?_
      rw [List.append_nil]
      cases hCell with
      | mk hSymbols hStart hStop hParts =>
          exact .mk hSymbols hStart hStop (Node.Laid.within (.mk hSymbols hStart hStop hParts) rfl)
    · exact .refuse _

private theorem expression_places :
    Places expression front tokens fun found used rest =>
      Node.Laid used rest (.expression found) := by
  refine .derived (expression_explains tokens) (.current fun token rest _ => ?_)
  refine .then_steady (fun _ => @Steady.bind _ _ _ _ _ fun _ => by split <;> infer_instance)
    (atom_places _ _) ?_
  rintro left first later hTokens hLeft
  have hHead := head?_append_eq hTokens hLeft.ne_nil
  refine .current fun sign behind hLater => ?_
  subst hLater
  split
  · rename_i operator hOperator
    have hKind := kind_of_operator? hOperator
    refine .advance hKind (by cases operator <;> exact TokenKind.noConfusion) ?_
    refine .bind (atom_places _ _) ?_
    rintro right second final rfl hRight
    obtain ⟨last, hLast⟩ := hRight.exists_last
    refine .spanFrom (getLast?_append_eq _ hLast) (.pure fun hValue => ?_)
    rw [List.append_nil] at hValue ⊢
    have hEnd := getLast?_append_eq first (getLast?_append_eq [sign] hLast)
    refine .mk hValue.symbols_eq ⟨token, hHead _, rfl⟩ ⟨last, hEnd, rfl⟩ ?_
    exact hLeft.before rfl (.skip sign (hRight.within rfl))
  · obtain ⟨last, hLast⟩ := hLeft.exists_last
    refine .spanFrom (getLast?_append_eq _ hLast) (.pure fun hValue => ?_)
    have hHead := hHead []
    rw [List.append_nil] at hValue hHead ⊢
    exact .mk hValue.symbols_eq ⟨token, hHead, rfl⟩ ⟨last, hLast, rfl⟩ (hLeft.within rfl)

private theorem condition_places :
    Places condition front tokens fun found used rest =>
      Node.Laid used rest (.condition found) := by
  refine .derived (condition_explains tokens) (.current fun token rest _ => ?_)
  refine .then_steady (fun _ => @Steady.bind _ _ _ _ _ fun _ => by split <;> infer_instance)
    (atom_places _ _) ?_
  rintro left first later hTokens hLeft
  have hHead := head?_append_eq hTokens hLeft.ne_nil
  refine .current fun sign behind hLater => ?_
  subst hLater
  split
  · rename_i relation hRelation
    have hKind := kind_of_relation? hRelation
    refine .advance hKind (by cases relation <;> exact TokenKind.noConfusion) ?_
    refine .bind (atom_places _ _) ?_
    rintro right second final rfl hRight
    obtain ⟨last, hLast⟩ := hRight.exists_last
    refine .spanFrom (getLast?_append_eq _ hLast) (.pure fun hTest => ?_)
    rw [List.append_nil] at hTest ⊢
    have hEnd := getLast?_append_eq first (getLast?_append_eq [sign] hLast)
    refine .mk hTest.symbols_eq ⟨token, hHead _, rfl⟩ ⟨last, hEnd, rfl⟩ ?_
    exact hLeft.before rfl (.skip sign (hRight.within rfl))
  · exact .refuse _

private theorem direction_places :
    Places direction front tokens fun _ used _ => ∃ token, used = [token] := by
  refine .current fun token rest _ => ?_
  split
  · exact .advance ‹_› TokenKind.noConfusion (.pure ⟨token, rfl⟩)
  · exact .advance ‹_› TokenKind.noConfusion (.pure ⟨token, rfl⟩)
  · exact .refuse _

/-! #### Commands -/

theorem assignment_places :
    Places assignment front tokens fun found used rest => Node.Laid used rest (.command found) := by
  refine .derived (assignment_explains tokens) (.current fun token rest _ => ?_)
  refine .bind (reference_places _ _) ?_
  rintro target first later hTokens hTarget
  have hHead := head?_append_eq hTokens hTarget.ne_nil
  refine .require TokenKind.noConfusion fun sign behind hLater _ => ?_
  subst hLater
  refine .bind (expression_places _ _) ?_
  rintro value second final rfl hValue
  refine .require TokenKind.noConfusion fun closing final hFinal _ => ?_
  subst hFinal
  refine .spanFrom List.getLast?_concat (.pure fun hCommand => ?_)
  refine .mk hCommand.symbols_eq ⟨token, hHead _, rfl⟩ ⟨closing, ?_, rfl⟩ ?_
  · simp [List.getLast?_append, List.getLast?_cons]
  · exact Node.Laid.before (by simpa using hTarget) rfl (.skip sign (hValue.before rfl .nil))

variable {token : Token} (rest : List Token)

private theorem readCommand_places (hKind : token.kind = .readWord) :
    Places readCommand front (token :: rest) fun found used rest =>
      Node.Laid used rest (.command found) := by
  refine .derived (readCommand_explains rest hKind) (.current fun _ _ hTokens => ?_)
  obtain ⟨rfl, rfl⟩ := List.cons.inj hTokens
  refine .advance hKind TokenKind.noConfusion (.bind (reference_places _ _) ?_)
  rintro target used later rfl hTarget
  refine .require TokenKind.noConfusion fun closing final hFinal _ => ?_
  subst hFinal
  refine .spanFrom List.getLast?_concat (.pure fun hCommand => ?_)
  refine .mk hCommand.symbols_eq ⟨token, rfl, rfl⟩ ⟨closing, ?_, rfl⟩ ?_
  · simp [List.getLast?_cons]
  · exact .skip token (hTarget.before rfl .nil)

private theorem writeCommand_places (hKind : token.kind = .writeWord) :
    Places writeCommand front (token :: rest) fun found used rest =>
      Node.Laid used rest (.command found) := by
  refine .derived (writeCommand_explains rest hKind) (.current fun _ _ hTokens => ?_)
  obtain ⟨rfl, rfl⟩ := List.cons.inj hTokens
  refine .advance hKind TokenKind.noConfusion (.bind (atom_places _ _) ?_)
  rintro value used later rfl hValue
  refine .require TokenKind.noConfusion fun closing final hFinal _ => ?_
  subst hFinal
  refine .spanFrom List.getLast?_concat (.pure fun hCommand => ?_)
  refine .mk hCommand.symbols_eq ⟨token, rfl, rfl⟩ ⟨closing, ?_, rfl⟩ ?_
  · simp [List.getLast?_cons]
  · exact .skip token (hValue.before rfl .nil)

private theorem skipCommand_places (hKind : token.kind = .skipWord) :
    Places skipCommand front (token :: rest) fun found used rest =>
      Node.Laid used rest (.command found) := by
  refine .derived (skipCommand_explains rest hKind) (.current fun _ _ hTokens => ?_)
  obtain ⟨rfl, rfl⟩ := List.cons.inj hTokens
  refine .advance hKind TokenKind.noConfusion ?_
  refine .require TokenKind.noConfusion fun closing final hFinal _ => ?_
  refine .spanFrom List.getLast?_concat (.pure fun hCommand => ?_)
  exact .mk hCommand.symbols_eq ⟨token, rfl, rfl⟩ ⟨closing, rfl, rfl⟩ .nil

section

variable {block : TokenKind → Reading (List Command)} [∀ wanted, Reading.Steady (block wanted)]
  (hBlock : ∀ tokens wanted, wanted ≠ .endOfInput →
    Reading.Explains (block wanted) tokens (Derived CommandsOf tokens))
  (hPlaces : ∀ front tokens wanted, Reading.Places (block wanted) front tokens
    fun found used rest => Node.Within used rest (found.map .command))

include hBlock hPlaces

private theorem conditional_places (hKind : token.kind = .ifWord) :
    Places (conditional block) front (token :: rest) fun found used rest =>
      Node.Laid used rest (.command found) := by
  refine .derived (conditional_explains rest hBlock hKind) (.current fun _ _ hTokens => ?_)
  obtain ⟨rfl, rfl⟩ := List.cons.inj hTokens
  refine .advance hKind TokenKind.noConfusion (.bind (condition_places _ _) ?_)
  rintro test used rest rfl hTest
  refine .require TokenKind.noConfusion fun thenSign rest hRest _ => ?_
  subst hRest
  refine .bind (.lift (hPlaces _ _ _)) ?_
  rintro body inner rest rfl hBody
  refine .current fun sign rest hRest => ?_
  subst hRest
  split
  · refine .advance ‹_› TokenKind.noConfusion (.bind (.lift (hPlaces _ _ _)) ?_)
    rintro orElse other rest rfl hOrElse
    refine .require TokenKind.noConfusion fun closing rest hRest _ => ?_
    subst hRest
    refine .spanFrom List.getLast?_concat (.pure fun hCommand => ?_)
    have hOthers : Node.Within (inner ++ sign :: (other ++ [closing])) rest
        (body.map .command ++ orElse.map .command) :=
      .append (by simpa using hBody) (.skip sign hOrElse.close)
    have hParts : Node.Within (used ++ thenSign :: (inner ++ sign :: (other ++ [closing]))) rest
        (.condition test :: (body.map .command ++ orElse.map .command)) :=
      Node.Laid.before (by simpa using hTest) rfl (.skip thenSign hOthers)
    cases orElse with
    | nil =>
        rw [List.map_nil, List.append_nil] at hParts
        refine .mk hCommand.symbols_eq ⟨token, rfl, rfl⟩ ⟨closing, ?_, rfl⟩ (.skip token hParts)
        simp [List.getLast?_append, List.getLast?_cons]
    | cons command others =>
        refine .mk hCommand.symbols_eq ⟨token, rfl, rfl⟩ ⟨closing, ?_, rfl⟩ (.skip token hParts)
        simp [List.getLast?_append, List.getLast?_cons]
  · refine .require TokenKind.noConfusion fun closing rest hRest _ => ?_
    obtain ⟨rfl, rfl⟩ := List.cons.inj hRest
    refine .spanFrom List.getLast?_concat (.pure fun hCommand => ?_)
    refine .mk hCommand.symbols_eq ⟨token, rfl, rfl⟩ ⟨sign, ?_, rfl⟩ ?_
    · simp [List.getLast?_cons]
    · exact .skip token (Node.Laid.before (by simpa using hTest) rfl (.skip thenSign hBody.close))

private theorem whileLoop_places (hKind : token.kind = .whileWord) :
    Places (whileLoop block) front (token :: rest) fun found used rest =>
      Node.Laid used rest (.command found) := by
  refine .derived (whileLoop_explains rest hBlock hKind) (.current fun _ _ hTokens => ?_)
  obtain ⟨rfl, rfl⟩ := List.cons.inj hTokens
  refine .advance hKind TokenKind.noConfusion (.bind (condition_places _ _) ?_)
  rintro test used rest rfl hTest
  refine .require TokenKind.noConfusion fun doSign rest hRest _ => ?_
  subst hRest
  refine .bind (.lift (hPlaces _ _ _)) ?_
  rintro body inner rest rfl hBody
  refine .require TokenKind.noConfusion fun closing rest hRest _ => ?_
  subst hRest
  refine .spanFrom List.getLast?_concat (.pure fun hCommand => ?_)
  refine .mk hCommand.symbols_eq ⟨token, rfl, rfl⟩ ⟨closing, ?_, rfl⟩ ?_
  · simp [List.getLast?_cons]
  · exact .skip token (Node.Laid.before (by simpa using hTest) rfl (.skip doSign hBody.close))

private theorem forLoop_places (hKind : token.kind = .forWord) :
    Places (forLoop block) front (token :: rest) fun found used rest =>
      Node.Laid used rest (.command found) := by
  refine .derived (forLoop_explains rest hBlock hKind) (.current fun _ _ hTokens => ?_)
  obtain ⟨rfl, rfl⟩ := List.cons.inj hTokens
  refine .advance hKind TokenKind.noConfusion (.current fun iterator rest hRest => ?_)
  subst hRest
  split
  · refine .advance ‹_› TokenKind.noConfusion ?_
    refine .require TokenKind.noConfusion fun fromSign rest hRest _ => ?_
    subst hRest
    refine .bind (atom_places _ _) ?_
    rintro first lower rest rfl hFirst
    refine .bind (direction_places _ _) ?_
    rintro way _ rest rfl ⟨waySign, rfl⟩
    refine .bind (atom_places _ _) ?_
    rintro last upper rest rfl hLast
    refine .require TokenKind.noConfusion fun doSign rest hRest _ => ?_
    subst hRest
    refine .bind (.lift (hPlaces _ _ _)) ?_
    rintro body inner rest rfl hBody
    refine .require TokenKind.noConfusion fun closing rest hRest _ => ?_
    subst hRest
    refine .spanFrom List.getLast?_concat (.pure fun hCommand => ?_)
    refine .mk hCommand.symbols_eq ⟨token, rfl, rfl⟩ ⟨closing, ?_, rfl⟩ ?_
    · simp [List.getLast?_append, List.getLast?_cons]
    · have hUpper : Node.Within (upper ++ doSign :: (inner ++ [closing])) rest
          (.atom last :: body.map .command) :=
        Node.Laid.before (by simpa using hLast) rfl (.skip doSign hBody.close)
      exact .skip token (.skip iterator (.skip fromSign (Node.Laid.before (by simpa using hFirst) rfl
        (.skip waySign hUpper))))
  · exact .refuse _

private theorem command_places :
    Places (command block) front tokens fun found used rest =>
      Node.Laid used rest (.command found) := by
  refine .current fun token rest hTokens => ?_
  subst hTokens
  split
  · exact assignment_places _ _
  · exact conditional_places _ rest hBlock hPlaces ‹_›
  · exact whileLoop_places _ rest hBlock hPlaces ‹_›
  · exact forLoop_places _ rest hBlock hPlaces ‹_›
  · exact readCommand_places _ rest ‹_›
  · exact writeCommand_places _ rest ‹_›
  · exact skipCommand_places _ rest ‹_›
  · exact .report _

end

end Attempt

namespace Reading

private theorem block_places {commands : Reading (List Command)} [Steady commands]
    {front tokens : List Token} (hCommands : Places commands front tokens fun found used rest =>
      Node.Within used rest (found.map .command)) (wanted : TokenKind) :
    Places (block commands wanted) front tokens fun found used rest =>
      Node.Within used rest (found.map .command) := by
  refine .bind inferInstance hCommands ?_
  rintro found used rest rfl hFound
  split
  · exact .report _ fun _ => inferInstance
  · refine .pure ?_
    rwa [List.append_nil]

private theorem commands_places (fuel : Nat) (front tokens : List Token) :
    Places (commands fuel) front tokens fun found used rest =>
      Node.Within used rest (found.map .command) := by
  induction fuel generalizing front tokens with
  | zero => exact .pure .nil
  | succ fuel inductionHypothesis =>
      intro reader hStands hSame
      by_cases hEnds : endsCommands reader.current.kind = true
      · rw [run_commands_succ, if_pos hEnds]
        exact ⟨[], tokens, rfl, by rwa [List.append_nil], .nil⟩
      · obtain ⟨first, hCommand, hEarly, hLate, hRun⟩ := run_commands_quiet hEnds hSame
        obtain ⟨used, rest, rfl, hRest, command, hFound, hLaid⟩ :=
          Attempt.command_places front tokens
            (fun _ _ hWanted => block_explains (commands_explains fuel _) hWanted)
            (fun _ _ _ => block_places (inductionHypothesis _ _) _) reader hStands
            (by rw [hCommand]; exact hEarly)
        rw [hCommand] at hRest hFound
        obtain ⟨more, last, rfl, hLast, hMore⟩ := inductionHypothesis _ rest first.2 hRest hLate
        rw [hRun, hFound]
        refine ⟨used ++ more, last, (List.append_assoc _ _ _).symm, ?_, hLaid.before rfl hMore⟩
        rwa [← List.append_assoc]

private theorem declarations_places (fuel : Nat) (front tokens : List Token) :
    Places (declarations fuel) front tokens fun found used rest =>
      Node.Within used rest (found.map .declaration) := by
  induction fuel generalizing front tokens with
  | zero => exact .pure .nil
  | succ fuel inductionHypothesis =>
      refine .current fun name rest hTokens => ?_
      subst hTokens
      split
      · rename_i hName
        refine .advance hName TokenKind.noConfusion (.current fun opening later hLater => ?_)
        subst hLater
        dsimp only
        split
        · rename_i hOpen
          refine .advance hOpen TokenKind.noConfusion ?_
          refine .bind inferInstance (Attempt.number_places _ _) ?_
          rintro _ _ rest rfl ⟨length, rfl, number, rfl, hNumber⟩
          refine .expect TokenKind.noConfusion (fun _ => inferInstance)
            fun closing rest hRest hClose => ?_
          subst hRest
          refine .spanFrom List.getLast?_concat ?_
          refine .bind inferInstance (inductionHypothesis _ _) ?_
          rintro others used rest rfl hOthers
          refine .pure ?_
          rw [List.append_nil]
          change Node.Within ([name, opening, number, closing] ++ used) rest _
          refine Node.Laid.before (.mk ?_ ⟨name, rfl, rfl⟩ ⟨closing, rfl, rfl⟩ .nil) rfl hOthers
          simp [Node.symbols, Declaration.symbols, Token.symbol_of_identifier hName,
            Token.symbol_of_sign hOpen, hNumber, Token.symbol_of_sign hClose]
        · refine .spanFrom List.getLast?_concat ?_
          refine .bind inferInstance (inductionHypothesis _ _) ?_
          rintro others used rest hUsed hOthers
          refine .pure ?_
          rw [List.append_nil]
          change Node.Within ([name] ++ used) rest _
          refine Node.Laid.before (.mk ?_ ⟨name, rfl, rfl⟩ ⟨name, rfl, rfl⟩ .nil) rfl hOthers
          simp [Node.symbols, Declaration.symbols, Token.symbol_of_identifier hName]
      · exact .pure .nil

private theorem program_parts {tokens : List Token} (hClean : Reader.Clean tokens) :
    Places program [] tokens fun found used rest => ∃ tree last, found = some tree ∧
      rest = [last] ∧ (tree.symbols = symbolsOf used → Node.Laid used rest (.program tree)) := by
  refine .current fun opening rest hTokens => ?_
  subst hTokens
  refine .expect TokenKind.noConfusion (fun _ => inferInstance) fun token rest hRest _ => ?_
  obtain ⟨rfl, rfl⟩ := List.cons.inj hRest
  rw [if_pos rfl]
  refine .bound fun fuel => .bind (fun _ => inferInstance) (declarations_places fuel _ _) ?_
  rintro declared used rest rfl hDeclared
  refine .expect TokenKind.noConfusion (fun _ => inferInstance) fun begins rest hRest _ => ?_
  subst hRest
  refine .bound fun fuel => .bind (fun _ => inferInstance)
    (block_places (commands_places fuel _ _) _) ?_
  rintro body inner rest rfl hBody
  refine .expect TokenKind.noConfusion (fun _ => inferInstance) fun ends rest hRest _ => ?_
  subst hRest
  refine .current fun last rest hRest => ?_
  subst hRest
  dsimp only
  split
  · exact .report _ fun _ => inferInstance
  · rename_i hLast
    have hEnded : Reader.Clean
        ((opening :: (used ++ begins :: (inner ++ [ends]))) ++ last :: rest) := by
      simpa using hClean
    obtain rfl := hEnded.eq_nil_of_append (not_not.mp hLast)
    refine .spanFrom List.getLast?_concat (.pure ⟨_, last, rfl, rfl, fun hSymbols => ?_⟩)
    refine .mk hSymbols ⟨opening, rfl, rfl⟩ ⟨ends, ?_, rfl⟩ (.skip opening ?_)
    · simp [List.getLast?_append, List.getLast?_cons]
    · exact .append (by simpa using hDeclared) (.skip begins hBody.close)

theorem program_places {tokens : List Token} (hClean : Reader.Clean tokens) :
    Places program [] tokens fun found used rest => ∃ tree last, found = some tree ∧
      rest = [last] ∧ Node.Laid used rest (.program tree) := by
  intro reader hStands hSame
  obtain ⟨-, -, other, taken, final, hOther, hTaken, hProgram⟩ :=
    program_explains hClean reader hStands.here hSame
  obtain ⟨used, _, hTokens, hLater, tree, last, hTree, rfl, hLaid⟩ :=
    program_parts hClean reader hStands hSame
  obtain rfl := Option.some.inj (hOther.symm.trans hTree)
  obtain ⟨rfl, -⟩ := List.append_inj' (hTaken.symm.trans hTokens) rfl
  exact ⟨taken, [last], hTokens, hLater, other, last, hTree, rfl, hLaid hProgram.symbols_eq⟩

end Reading

end RegisterCompiler
