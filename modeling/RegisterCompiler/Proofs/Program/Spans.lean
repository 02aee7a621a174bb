/-
The places of the parts of a program.

A part of a program that was read starts at its first token and ends behind its last one, so
that parts lie inside one another and side by side as in the text, and the stretch of text
of a part has the tokens of that part.  An index that is a name ends where the next token
starts, which is further on when something stands between the two.
-/

import RegisterCompiler.Proofs.Generator.Closure
import RegisterCompiler.Proofs.Program.Places
import RegisterCompiler.Proofs.Program.Recognition
import RegisterCompiler.Proofs.Token.Rows

set_option autoImplicit false

namespace RegisterCompiler

open Source (Position Span placeAt)
open Text (Bytes Glyph glyphs)

def Source.Span.slice (span : Span) (text : Bytes) : Bytes :=
  (text.drop span.first.offset).take (span.last.offset - span.first.offset)

/-! ### The row of a text that was read -/

theorem Token.exists_row_body (text : Bytes) : ∃ consumed rest,
    glyphs text = consumed ++ rest ∧ Token.Row .start consumed rest (Token.body text) ∧
      Token.scan text = Token.body text ++ [⟨.endOfInput, "", Position.start.pass consumed⟩] := by
  obtain ⟨consumed, rest, tokens, hGlyphs, hRow, hStops⟩ := Token.exists_row (glyphs text) .start
  have hScan := Token.scan_of_row hGlyphs hRow hStops
  obtain ⟨last, hBody, -⟩ := Token.scan_eq text
  obtain ⟨rfl, -⟩ := List.append_inj' (hScan.symm.trans hBody) rfl
  exact ⟨consumed, rest, hGlyphs, hRow, hScan⟩

def Token.Spaced (tokens : List Token) : Prop :=
  tokens.Pairwise fun left right => left.stop.offset ≤ right.position.offset

variable {text : Bytes} {program : Program}

private theorem Token.spaced_scan (hErrors : ∀ token ∈ Token.body text, token.kind ≠ .error) :
    Token.Spaced (Token.scan text) := by
  obtain ⟨consumed, rest, hGlyphs, hRow, hScan⟩ := Token.exists_row_body text
  obtain ⟨hInside, hPairs⟩ := hRow.stop_le (Token.isRead_of_glyphs hGlyphs) hErrors
  rw [hScan, Token.Spaced, List.pairwise_append]
  refine ⟨hPairs, List.pairwise_singleton _ _, fun token hToken last hLast => ?_⟩
  rw [List.mem_singleton.mp hLast]
  exact hInside token hToken

theorem laid_of_parse (hParse : parse text = .ok program) :
    ∃ last, Token.scan text = Token.body text ++ [last] ∧
      Node.Laid (Token.body text) [last] (.program program) := by
  obtain ⟨hFound, hErrors⟩ := parse_eq_ok_iff.mp hParse
  have hBody := kind_ne_error_of_parse hParse
  obtain ⟨hAt, hNone⟩ := at_scan hBody
  obtain ⟨consumed, behind, -, hRow, hScan⟩ := Token.exists_row_body text
  have hStands : (Reader.ofTokens (Token.scan text)).Stands [] (Token.scan text) := by
    refine ⟨hAt, fun token hToken hKind => ?_, nofun⟩
    rw [hScan, List.mem_append] at hToken
    rcases hToken with hToken | hLast
    · obtain ⟨_, _, _, -, -, hCovers⟩ := hRow.exists_covered hToken
      cases hCovers with
      | text _ _ _ hText =>
          rintro hEmpty
          exact hText.plain.1 (by rw [hEmpty]; rfl)
      | fault _ hError => exact absurd hError (hBody token hToken)
    · rw [List.mem_singleton.mp hLast] at hKind
      exact absurd rfl hKind
  obtain ⟨used, _, hTokens, -, tree, last, hTree, rfl, hLaid⟩ :=
    Reading.program_places hAt.clean _ hStands (hErrors.trans hNone.symm)
  obtain rfl := Option.some.inj (hFound.symm.trans hTree)
  obtain ⟨rfl, -⟩ := List.append_inj' (hTokens.symm.trans hScan) rfl
  exact ⟨last, hTokens, hLaid⟩

/-! ### Order -/

namespace Token

private theorem Spaced.position_le {tokens : List Token} (hSpaced : Spaced tokens)
    {first token : Token} (hFirst : tokens.head? = some first) (hToken : token ∈ tokens) :
    first.position.offset ≤ token.position.offset := by
  cases tokens with
  | nil => cases hFirst
  | cons head tail =>
      obtain rfl := Option.some.inj hFirst
      rcases List.mem_cons.mp hToken with rfl | hLater
      · exact Nat.le_refl _
      · exact Nat.le_trans (Nat.le_add_right _ _) ((List.pairwise_cons.mp hSpaced).1 _ hLater)

end Token

namespace Node

variable {used later : List Token} {node : Node}

private theorem Laid.last_le (hNode : Laid used later node) (hSpaced : Token.Spaced (used ++ later))
    {next : Token} (hNext : next ∈ later) : node.span.last.offset ≤ next.position.offset := by
  obtain ⟨-, -, ⟨last, hLast, hStop⟩, -⟩ := hNode
  obtain ⟨-, hLater, hPairs⟩ := List.pairwise_append.mp hSpaced
  unfold StopsAt at hStop
  split at hStop
  · obtain ⟨first, hFirst, hSame⟩ := hStop
    rw [hSame]
    exact Token.Spaced.position_le hLater hFirst hNext
  · rw [hStop]
    exact hPairs last (List.mem_of_getLast? hLast) next hNext

private theorem Within.ordered {used later : List Token} {nodes : List Node} :
    Within used later nodes → Token.Spaced (used ++ later) →
      nodes.Pairwise fun left right => left.span.last.offset ≤ right.span.first.offset
  | .nil, _ => .nil
  | .skip _ hParts, hSpaced => hParts.ordered (List.pairwise_cons.mp hSpaced).2
  | .cons hNode _ hParts, hSpaced => by
      rw [List.append_assoc] at hSpaced
      refine .cons (fun other hOther => ?_) (hParts.ordered (List.pairwise_append.mp hSpaced).2.1)
      obtain ⟨front, part, back, rfl, ⟨-, ⟨first, hFirst, hStart⟩, -, -⟩, -⟩ :=
        hParts.exists_of_mem hOther
      rw [hStart]
      refine hNode.last_le hSpaced (List.mem_append_left _ ?_)
      exact List.mem_append_right _ (List.mem_append_left _ (List.mem_of_head? hFirst))

private theorem isNameIndex_of_child {child : Node} (hChild : child ∈ node.children) :
    node.isNameIndex = false := by
  cases node with
  | index => cases hChild
  | _ => rfl

private theorem Laid.inside (hNode : Laid used later node) (hSpaced : Token.Spaced (used ++ later))
    {child : Node} (hChild : child ∈ node.children) :
    node.span.first.offset ≤ child.span.first.offset ∧
      child.span.last.offset ≤ node.span.last.offset := by
  obtain ⟨-, ⟨first, hFirst, hStart⟩, ⟨last, hLast, hStop⟩, hParts⟩ := hNode
  have hStop : node.span.last = last.stop := by
    simpa only [StopsAt, isNameIndex_of_child hChild] using hStop
  obtain ⟨front, part, back, rfl, hPart, hBehind⟩ := hParts.exists_of_mem hChild
  have ⟨_, ⟨head, hHead, hPartStart⟩, ⟨tail, hTail, hPartStop⟩, _⟩ := hPart
  constructor
  · rw [hStart, hPartStart]
    refine Token.Spaced.position_le (List.pairwise_append.mp hSpaced).1 hFirst ?_
    exact List.mem_append_right _ (List.mem_append_left _ (List.mem_of_head? hHead))
  · rw [hStop]
    by_cases hBack : back = []
    · subst hBack
      have hName : child.isNameIndex = false := Bool.eq_false_iff.mpr fun hName => hBehind hName rfl
      have hSame : (front ++ (part ++ [])).getLast? = some tail := by
        rw [List.append_nil]
        exact getLast?_append_eq front hTail
      obtain rfl := Option.some.inj (hSame.symm.trans hLast)
      simp only [StopsAt, hName] at hPartStop
      rw [hPartStop]
    · obtain ⟨final, hEnd⟩ := Option.isSome_iff_exists.mp (List.getLast?_isSome.mpr hBack)
      have hSame := getLast?_append_eq front (getLast?_append_eq part hEnd)
      obtain rfl := Option.some.inj (hSame.symm.trans hLast)
      rw [List.append_assoc, List.append_assoc] at hSpaced
      refine Nat.le_trans (hPart.last_le (List.pairwise_append.mp hSpaced).2.1 ?_)
        (Nat.le_add_right _ _)
      exact List.mem_append_left _ (List.mem_of_getLast? hEnd)

/-- The text of a part, from its first token on up to its recorded end. -/
theorem Laid.exists_stretch {start : Position} {consumed rest : List Glyph}
    {front back : List Token} {last : Token} (hNode : Laid used (back ++ [last]) node)
    (hName : node.isNameIndex = true → back ≠ [])
    (hRow : Token.Row start consumed rest (front ++ (used ++ back)))
    (hRead : ∀ glyph ∈ consumed, glyph.IsRead) (hErrors : ∀ token ∈ used, token.kind ≠ .error) :
    ∃ before stretch after, consumed = before ++ (stretch ++ after) ∧
      node.span.first = start.pass before ∧ node.span.last = node.span.first.pass stretch ∧
      Token.Row node.span.first stretch (after ++ rest) used := by
  obtain ⟨-, ⟨first, hFirst, hStart⟩, ⟨final, hFinal, hStop⟩, -⟩ := hNode
  unfold StopsAt at hStop
  split at hStop
  · rename_i hReaches
    obtain ⟨next, hNext, hEnd⟩ := hStop
    cases back with
    | nil => exact absurd rfl (hName hReaches)
    | cons head back =>
        obtain rfl := Option.some.inj hNext
        rw [hStart, hEnd]
        exact hRow.exists_reach hFirst
  · rw [hStart, hStop]
    exact hRow.exists_stretch hRead hFirst hFinal (hErrors final (List.mem_of_getLast? hFinal))

end Node

/-! ### Spans -/

/-- The stretch of a text between two places. -/
theorem slice_eq {before stretch after : List Glyph} {span : Span}
    (hGlyphs : glyphs text = before ++ (stretch ++ after))
    (hFirst : span.first = Position.start.pass before)
    (hLast : span.last = span.first.pass stretch) :
    span.slice text = stretch.flatMap Glyph.bytes := by
  rw [Source.Span.slice, hLast, Position.offset_pass, Nat.add_sub_cancel_left, hFirst,
    (Position.split_at_pass hGlyphs).2, List.flatMap_append, List.take_left' rfl]

/-- A token that is no error ends behind the bytes of its text. -/
theorem Token.Row.stop_eq_placeAt {consumed rest : List Glyph} {tokens : List Token}
    (hGlyphs : glyphs text = consumed ++ rest) (hRow : Token.Row .start consumed rest tokens)
    {token : Token} (hToken : token ∈ tokens) (hError : token.kind ≠ .error) :
    token.stop = placeAt text (token.position.offset + (Text.encode token.literal).length) := by
  obtain ⟨front, covered, later, rfl, hPosition, hCovers⟩ := hRow.exists_covered hToken
  have hRead : ∀ glyph ∈ covered, glyph.IsRead := fun glyph hGlyph =>
    Token.isRead_of_glyphs hGlyphs glyph (List.mem_append_right _ (List.mem_append_left _ hGlyph))
  have hSplit : glyphs text = (front ++ covered) ++ (later ++ rest) := by
    rw [hGlyphs]
    simp only [List.append_assoc]
  rw [hCovers.stop_eq hError hRead, hPosition, ← Position.pass_append,
    Position.start_pass_eq_placeAt hSplit, ← hCovers.bytes_eq hError hRead, Position.offset_pass,
    List.flatMap_append, List.length_append]
  simp [Position.start]

/-- The place of a part is the one of its tokens in a text.  It starts where the first token
starts and ends just behind the last one, but for an index that is a name, which ends where
the next token starts.  The text of the part alone has the same tokens, and what is inside
the part lies inside its text, in order. -/
def Node.PlacedIn (node : Node) (text : Bytes) : Prop :=
  ∃ front used back first last next,
    Token.scan text = front ++ (used ++ next :: back) ∧ node.symbols = symbolsOf used ∧
    (used.head? = some first ∧ node.span.first = first.position) ∧
    (used.getLast? = some last ∧ node.span.last =
      if node.isNameIndex then next.position
      else placeAt text (last.position.offset + (Text.encode last.literal).length)) ∧
    (node.span.first = placeAt text node.span.first.offset ∧
      node.span.last = placeAt text node.span.last.offset) ∧
    (∃ alone final, Token.scan (node.span.slice text) = alone ++ [final] ∧
      final.kind = .endOfInput ∧ alone.map Token.spelling = used.map Token.spelling) ∧
    (∀ child ∈ node.children, node.span.first.offset ≤ child.span.first.offset ∧
      child.span.last.offset ≤ node.span.last.offset) ∧
    node.children.Pairwise fun left right => left.span.last.offset ≤ right.span.first.offset

/-- Every part of a program that was read has the place of its tokens. -/
theorem placed_of_parse (hParse : parse text = .ok program) {node : Node}
    (hNode : Node.Occurs (.program program) node) : node.PlacedIn text := by
  have hErrors := kind_ne_error_of_parse hParse
  obtain ⟨consumed, rest, hGlyphs, hRow, -⟩ := Token.exists_row_body text
  obtain ⟨ending, hScan, hProgram⟩ := laid_of_parse hParse
  obtain ⟨front, used, back, hBody, hLaid, hName⟩ := hProgram.exists_of_occurs rfl hNode
  rw [hBody] at hErrors hRow hScan
  have hSpaced := Token.spaced_scan (kind_ne_error_of_parse hParse)
  rw [hScan, List.append_assoc, List.append_assoc] at hSpaced
  have hHere : Token.Spaced (used ++ (back ++ [ending])) := (List.pairwise_append.mp hSpaced).2.1
  have hUsed : ∀ token ∈ used, token.kind ≠ .error := fun token hToken =>
    hErrors token (List.mem_append_right _ (List.mem_append_left _ hToken))
  obtain ⟨before, stretch, after, rfl, hFirst, hLast, hStretch⟩ :=
    hLaid.exists_stretch hName hRow (Token.isRead_of_glyphs hGlyphs) hUsed
  have hSplit : glyphs text = before ++ (stretch ++ (after ++ rest)) := by
    rw [hGlyphs]
    simp only [List.append_assoc]
  obtain ⟨next, behind, hBehind⟩ := List.exists_cons_of_ne_nil
    (List.append_ne_nil_of_right_ne_nil back (List.cons_ne_nil ending []))
  have ⟨hSymbols, ⟨first, hHead, hStart⟩, ⟨last, hTail, hStop⟩, hParts⟩ := hLaid
  refine ⟨front, used, behind, first, last, next, ?_, hSymbols, ⟨hHead, hStart⟩, ⟨hTail, ?_⟩,
    ⟨?_, ?_⟩, ?_, fun child hChild => hLaid.inside hHere hChild, hParts.ordered hHere⟩
  · rw [hScan, List.append_assoc, List.append_assoc, hBehind]
  · unfold Node.StopsAt at hStop
    split at hStop
    · rename_i hReaches
      obtain ⟨other, hOther, hEnd⟩ := hStop
      rw [hBehind] at hOther
      obtain rfl := Option.some.inj hOther
      rw [if_pos hReaches, hEnd]
    · rename_i hEnds
      have hLastMem := List.mem_of_getLast? hTail
      rw [hEnds, if_neg Bool.false_ne_true, hStop]
      exact hRow.stop_eq_placeAt hGlyphs
        (List.mem_append_right _ (List.mem_append_left _ hLastMem)) (hUsed last hLastMem)
  · rw [hFirst, Position.start_pass_eq_placeAt hSplit]
    rfl
  · rw [← List.append_assoc] at hSplit
    rw [hLast, hFirst, ← Position.pass_append, Position.start_pass_eq_placeAt hSplit]
    rfl
  · rw [slice_eq hSplit hFirst hLast]
    exact Token.scan_stretch hSplit hStretch

def paddedIndex : Bytes :=
  Text.encode "VAR t[3] i BEGIN t[i ] := 1; END"

/-- Whether a program assigns to the element of an array that a name with a given place gives. -/
def assignsAt (span : Span) (program : Program) : Bool :=
  match program.body with
  | [.assign _ ⟨_, _, some (.name found "i")⟩ _] => found == span
  | _ => false

private theorem occurs_of_assignsAt {span : Span} (hAssigns : assignsAt span program = true) :
    Node.Occurs (.program program) (.index (.name span "i")) := by
  unfold assignsAt at hAssigns
  split at hAssigns
  · rename_i place cellPlace name found value hBody
    obtain rfl := beq_iff_eq.mp hAssigns
    have hCommand : Node.Occurs (.program program)
        (.command (.assign place ⟨cellPlace, name, some (.name found "i")⟩ value)) := by
      refine .child .self (List.mem_append_right _ ?_)
      rw [hBody]
      exact List.mem_cons_self
    have hCell : Node.Occurs (.program program)
        (.reference ⟨cellPlace, name, some (.name found "i")⟩) := .child hCommand List.mem_cons_self
    exact .child hCell List.mem_cons_self
  · cases hAssigns

def paddedSpan : Span := ⟨⟨19, 1, 20⟩, ⟨21, 1, 22⟩⟩

private theorem exists_paddedIndex :
    ∃ program, parse paddedIndex = .ok program ∧
      Node.Occurs (.program program) (.index (.name paddedSpan "i")) := by
  obtain ⟨program, hParse, hAssigns⟩ : ∃ program, parse paddedIndex = .ok program ∧
      assignsAt paddedSpan program = true := exists_of_any_toOption (by decide +kernel)
  exact ⟨program, hParse, occurs_of_assignsAt hAssigns⟩

theorem padded_index_placed :
    ∃ program, parse paddedIndex = .ok program ∧
      Node.Occurs (.program program) (.index (.name paddedSpan "i")) ∧
      Node.PlacedIn (.index (.name paddedSpan "i")) paddedIndex := by
  obtain ⟨program, hParse, hOccurs⟩ := exists_paddedIndex
  exact ⟨program, hParse, hOccurs, placed_of_parse hParse hOccurs⟩

/-- An index that ends behind the blank after its only token, where no token ends. -/
theorem padded_index_ends_behind_blank :
    ∃ program, parse paddedIndex = .ok program ∧
      Node.Occurs (.program program) (.index (.name paddedSpan "i")) ∧
      ⟨.identifier, "i", paddedSpan.first⟩ ∈ Token.scan paddedIndex ∧
      ∀ token ∈ Token.scan paddedIndex, token.stop ≠ paddedSpan.last := by
  obtain ⟨program, hParse, hOccurs⟩ := exists_paddedIndex
  exact ⟨program, hParse, hOccurs, by decide +kernel, by decide +kernel⟩

end RegisterCompiler
