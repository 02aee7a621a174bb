/-
Programs that use their names as declared.

Every name in scope plays a role: it is a scalar, an array of some length or the variable of
an enclosing counting loop.  A program is legal when each name is used as its role allows
and no name gets a second role.  The check of a program complains exactly about the
programs that are not legal.
-/

import RegisterCompiler.Program.Analysis

set_option autoImplicit false

namespace RegisterCompiler

/-! ### Roles -/

inductive Role where
  | scalar
  | array (length : Nat)
  | iterator
deriving Repr, DecidableEq

def Declaration.role (declaration : Declaration) : Role :=
  match declaration.length with
  | none => .scalar
  | some length => .array length

/-- The names in scope: those declared and the variables of the enclosing loops. -/
structure Names where
  declarations : List Declaration
  iterators : List String

namespace Names

def role? (names : Names) (name : String) : Option Role :=
  if name ∈ names.iterators then some .iterator
  else (names.declarations.find? fun declaration => declaration.name == name).map Declaration.role

def enter (names : Names) (iterator : String) : Names :=
  { names with iterators := iterator :: names.iterators }

def IsPlain (names : Names) (name : String) : Prop :=
  names.role? name = some .scalar ∨ names.role? name = some .iterator

theorem role?_enter (names : Names) (iterator name : String) :
    (names.enter iterator).role? name =
      if name = iterator then some .iterator else names.role? name := by
  unfold role? enter
  by_cases hSame : name = iterator
  · rw [if_pos hSame, if_pos (hSame ▸ List.mem_cons_self)]
  · rw [if_neg hSame]
    by_cases hInside : name ∈ names.iterators
    · rw [if_pos hInside, if_pos (List.mem_cons_of_mem _ hInside)]
    · rw [if_neg hInside, if_neg]
      intro hMem
      cases List.mem_cons.mp hMem with
      | inl hHead => exact hSame hHead
      | inr hRest => exact hInside hRest

end Names

/-! ### Legal programs -/

def Index.Legal (names : Names) (length : Nat) : Index → Prop
  | .number _ value => value < length
  | .name _ other => names.IsPlain other

namespace Reference

def Legal (names : Names) (cell : Reference) : Prop :=
  match cell.index with
  | none => names.IsPlain cell.name
  | some index => ∃ length, names.role? cell.name = some (.array length) ∧ index.Legal names length

def LegalTarget (names : Names) (cell : Reference) : Prop :=
  cell.Legal names ∧ names.role? cell.name ≠ some .iterator

theorem legal_plain {names : Names} {cell : Reference} (hIndex : cell.index = none) :
    cell.Legal names ↔ names.IsPlain cell.name := by
  rw [Legal, hIndex]

theorem legal_element {names : Names} {cell : Reference} {index : Index}
    (hIndex : cell.index = some index) : cell.Legal names ↔
      ∃ length, names.role? cell.name = some (.array length) ∧ index.Legal names length := by
  rw [Legal, hIndex]

private theorem legalTarget_element {names : Names} {cell : Reference} {index : Index}
    (hIndex : cell.index = some index) : cell.LegalTarget names ↔ cell.Legal names := by
  constructor
  · exact And.left
  · intro hLegal
    obtain ⟨length, hRole, -⟩ := (legal_element hIndex).mp hLegal
    refine ⟨hLegal, ?_⟩
    rw [hRole]
    intro hIterator
    cases hIterator

end Reference

def Atom.Legal (names : Names) : Atom → Prop
  | .number _ _ => True
  | .reference cell => cell.Legal names

def Expression.Legal (names : Names) : Expression → Prop
  | .atom _ value => value.Legal names
  | .operation _ left _ right => left.Legal names ∧ right.Legal names

def Condition.Legal (names : Names) (condition : Condition) : Prop :=
  condition.left.Legal names ∧ condition.right.Legal names

namespace Command

mutual

def Legal (names : Names) : Command → Prop
  | .assign _ target value => target.LegalTarget names ∧ value.Legal names
  | .read _ target => target.LegalTarget names
  | .write _ value => value.Legal names
  | .skip _ => True
  | .ifThen _ condition body | .whileLoop _ condition body =>
      condition.Legal names ∧ AllLegal names body
  | .ifElse _ condition body orElse =>
      condition.Legal names ∧ AllLegal names body ∧ AllLegal names orElse
  | .forLoop _ iterator first last _ body =>
      names.role? iterator = none ∧ (first.Legal names ∧ last.Legal names) ∧
        AllLegal (names.enter iterator) body

def AllLegal (names : Names) : List Command → Prop
  | [] => True
  | command :: rest => Legal names command ∧ AllLegal names rest

end

end Command

/-- Declarations of different names, none of them of an empty array. -/
structure Declaration.AllLegal (declarations : List Declaration) : Prop where
  distinct : (declarations.map Declaration.name).Nodup
  nonempty : ∀ declaration ∈ declarations, declaration.length ≠ some 0

/-- Declarations in a row are legal behind some names when the first is and the rest are
behind its name too. -/
theorem Declaration.allLegal_cons_iff {declaration : Declaration} {rest : List Declaration}
    {done : List String} :
    (declaration.name ∉ done ∧ declaration.length ≠ some 0) ∧
        (∀ other ∈ rest, other.name ∉ done ++ [declaration.name]) ∧ AllLegal rest ↔
      (∀ other ∈ declaration :: rest, other.name ∉ done) ∧ AllLegal (declaration :: rest) := by
  constructor
  · rintro ⟨⟨hNew, hLength⟩, hOthers, hDistinct, hNonempty⟩
    refine ⟨?_, List.nodup_cons.mpr ⟨?_, hDistinct⟩, ?_⟩
    · intro other hOther
      cases List.mem_cons.mp hOther with
      | inl hHead => exact hHead ▸ hNew
      | inr hTail => exact fun hOld => hOthers other hTail (List.mem_append_left _ hOld)
    · intro hAgain
      obtain ⟨other, hOther, hName⟩ := List.mem_map.mp hAgain
      refine hOthers other hOther (List.mem_append_right _ ?_)
      rw [hName]
      exact List.mem_singleton.mpr rfl
    · intro other hOther
      cases List.mem_cons.mp hOther with
      | inl hHead => exact hHead ▸ hLength
      | inr hTail => exact hNonempty other hTail
  · rintro ⟨hAll, hDistinct, hNonempty⟩
    obtain ⟨hHead, hTail⟩ := List.nodup_cons.mp hDistinct
    refine ⟨⟨hAll declaration List.mem_cons_self, hNonempty declaration List.mem_cons_self⟩, ?_,
      hTail, ?_⟩
    · intro other hOther hMem
      cases List.mem_append.mp hMem with
      | inl hOld => exact hAll other (List.mem_cons_of_mem _ hOther) hOld
      | inr hSelf =>
          refine hHead (List.mem_map.mpr ⟨other, hOther, ?_⟩)
          exact List.mem_singleton.mp hSelf
    · exact fun other hOther => hNonempty other (List.mem_cons_of_mem _ hOther)

structure Program.Legal (program : Program) : Prop where
  declarations : Declaration.AllLegal program.declarations
  body : Command.AllLegal ⟨program.declarations, []⟩ program.body

/-! ### What the check finds -/

namespace Analysis

def names (analysis : Analysis) : Names :=
  ⟨analysis.declared, analysis.iterators⟩

/-- A part of the check: it keeps the names and complains unless a condition holds. -/
structure Audits (before after : Analysis) (legal : Prop) : Prop where
  names : after.names = before.names
  complaints : after.complaints = [] ↔ before.complaints = [] ∧ legal

namespace Audits

variable {before middle after : Analysis} {first second : Prop}

private theorem trans (hFirst : Audits before middle first) (hSecond : Audits middle after second) :
    Audits before after (first ∧ second) where
  names := hSecond.names.trans hFirst.names
  complaints := by rw [hSecond.complaints, hFirst.complaints, and_assoc]

private theorem congr (hAudits : Audits before after first) (hSame : first ↔ second) :
    Audits before after second where
  names := hAudits.names
  complaints := by rw [hAudits.complaints, hSame]

private theorem accept (analysis : Analysis) (hLegal : first) : Audits analysis analysis first where
  names := rfl
  complaints := ⟨fun hNone => ⟨hNone, hLegal⟩, And.left⟩

private theorem complain (analysis : Analysis) (span : Source.Span) (misuse : Misuse)
    (hIllegal : ¬first) : Audits analysis (analysis.complain span misuse) first where
  names := rfl
  complaints := by
    constructor
    · intro hNone
      exact absurd hNone (List.append_ne_nil_of_right_ne_nil _ (List.cons_ne_nil _ _))
    · exact fun hBoth => absurd hBoth.2 hIllegal

private theorem noteRead (hAudits : Audits before after first) (name : String)
    (span : Source.Span) :
    Audits before (after.noteRead name span) first := by
  unfold Analysis.noteRead
  split
  · exact hAudits
  · exact ⟨hAudits.names, hAudits.complaints⟩

private theorem noteAssigned (hAudits : Audits before after first) (name : String) :
    Audits before (after.noteAssigned name) first :=
  ⟨hAudits.names, hAudits.complaints⟩

end Audits

private theorem isIterator_eq_true_iff {analysis : Analysis} {name : String} :
    analysis.isIterator name = true ↔ analysis.names.role? name = some .iterator := by
  unfold isIterator names Names.role?
  rw [List.contains_iff_mem]
  split
  · rename_i hInside
    exact ⟨fun _ => rfl, fun _ => hInside⟩
  · rename_i hOutside
    refine ⟨fun hInside => absurd hInside hOutside, fun hRole => ?_⟩
    obtain ⟨declaration, -, hRole⟩ := Option.map_eq_some_iff.mp hRole
    unfold Declaration.role at hRole
    split at hRole
    · cases hRole
    · cases hRole

private theorem role?_of_not_isIterator {analysis : Analysis} {name : String}
    (hIterator : ¬analysis.isIterator name = true) :
    analysis.names.role? name = (analysis.declaration? name).map Declaration.role := by
  have hOutside : name ∉ analysis.iterators := by
    rw [isIterator, List.contains_iff_mem] at hIterator
    exact hIterator
  exact if_neg hOutside

private theorem plainMisuse?_eq_none_iff {analysis : Analysis} {name : String} :
    analysis.plainMisuse? name = none ↔ analysis.names.IsPlain name := by
  unfold plainMisuse? Names.IsPlain
  by_cases hIterator : analysis.isIterator name = true
  · rw [if_pos hIterator, isIterator_eq_true_iff.mp hIterator]
    exact ⟨fun _ => .inr rfl, fun _ => rfl⟩
  · rw [if_neg hIterator, role?_of_not_isIterator hIterator]
    cases hFound : analysis.declaration? name with
    | none => simp
    | some declaration =>
        cases hLength : declaration.length with
        | none => simp [Declaration.isArray, Declaration.role, hLength]
        | some length => simp [Declaration.isArray, Declaration.role, hLength]

private theorem checkReference_audits (analysis : Analysis) (cell : Reference) :
    Audits analysis (analysis.checkReference cell).2 (cell.Legal analysis.names) := by
  unfold checkReference
  cases hIndex : cell.index with
  | none =>
      simp only
      cases hMisuse : analysis.plainMisuse? cell.name with
      | none =>
          exact .accept _ ((Reference.legal_plain hIndex).mpr (plainMisuse?_eq_none_iff.mp hMisuse))
      | some misuse =>
          refine .complain _ _ _ ?_
          rw [Reference.legal_plain hIndex, ← plainMisuse?_eq_none_iff, hMisuse]
          exact Option.some_ne_none misuse
  | some index =>
      simp only
      by_cases hIterator : analysis.isIterator cell.name = true
      · rw [if_pos hIterator]
        refine .complain _ _ _ ?_
        rw [Reference.legal_element hIndex, isIterator_eq_true_iff.mp hIterator]
        rintro ⟨length, hRole, -⟩
        cases hRole
      rw [if_neg hIterator]
      have hRole := role?_of_not_isIterator hIterator
      cases hFound : analysis.declaration? cell.name with
      | none =>
          refine .complain _ _ _ ?_
          rw [Reference.legal_element hIndex, hRole, hFound]
          rintro ⟨length, hNone, -⟩
          cases hNone
      | some declaration =>
          rw [hFound, Option.map_some, Declaration.role] at hRole
          simp only
          cases hLength : declaration.length with
          | none =>
              refine .complain _ _ _ ?_
              rw [Reference.legal_element hIndex, hRole, hLength]
              rintro ⟨length, hScalar, -⟩
              cases hScalar
          | some length =>
              simp only [hLength] at hRole
              -- The array is in order, so only the index decides.
              have hLegal : cell.Legal analysis.names ↔ index.Legal analysis.names length := by
                rw [Reference.legal_element hIndex, hRole]
                constructor
                · rintro ⟨other, hSame, hIndexLegal⟩
                  cases hSame
                  exact hIndexLegal
                · exact fun hIndexLegal => ⟨length, rfl, hIndexLegal⟩
              cases index with
              | number span value =>
                  simp only
                  by_cases hOutside : length ≤ value
                  · rw [if_pos hOutside]
                    exact .complain _ _ _ fun hInside => Nat.not_lt.mpr hOutside (hLegal.mp hInside)
                  · rw [if_neg hOutside]
                    exact .accept _ (hLegal.mpr (Nat.lt_of_not_le hOutside))
              | name span other =>
                  simp only
                  cases hMisuse : analysis.plainMisuse? other with
                  | none =>
                      have hPlain := plainMisuse?_eq_none_iff.mp hMisuse
                      exact (Audits.accept _ (hLegal.mpr hPlain)).noteRead other span
                  | some misuse =>
                      refine .complain _ _ _ fun hInside => ?_
                      have hPlain := plainMisuse?_eq_none_iff.mpr (hLegal.mp hInside)
                      rw [hMisuse] at hPlain
                      exact Option.some_ne_none misuse hPlain

private theorem checkTarget_audits (analysis : Analysis) (cell : Reference) :
    Audits analysis (analysis.checkTarget cell) (cell.LegalTarget analysis.names) := by
  unfold checkTarget
  by_cases hIterator : (!cell.isElement && analysis.isIterator cell.name) = true
  · rw [if_pos hIterator]
    rw [Bool.and_eq_true] at hIterator
    exact .complain _ _ _ fun hLegal => hLegal.2 (isIterator_eq_true_iff.mp hIterator.2)
  · rw [if_neg hIterator]
    have hAudits : Audits analysis (analysis.checkReference cell).2
        (cell.LegalTarget analysis.names) := by
      refine (checkReference_audits analysis cell).congr ?_
      cases hIndex : cell.index with
      | some index => exact (Reference.legalTarget_element hIndex).symm
      | none =>
          have hOther : analysis.names.role? cell.name ≠ some .iterator := by
            intro hRole
            refine hIterator ?_
            rw [Reference.isElement, hIndex, isIterator_eq_true_iff.mpr hRole]
            rfl
          exact ⟨fun hLegal => ⟨hLegal, hOther⟩, And.left⟩
    simp only
    split
    · exact hAudits.noteAssigned cell.name
    · exact hAudits

private theorem checkAtom_audits (analysis : Analysis) (atom : Atom) :
    Audits analysis (analysis.checkAtom atom) (atom.Legal analysis.names) := by
  cases atom with
  | number span value => exact .accept _ trivial
  | reference cell =>
      unfold checkAtom
      simp only
      split
      · exact checkReference_audits analysis cell
      · exact (checkReference_audits analysis cell).noteRead cell.name cell.span

private theorem checkBoth_audits (analysis : Analysis) (left right : Atom) :
    Audits analysis ((analysis.checkAtom left).checkAtom right)
      (left.Legal analysis.names ∧ right.Legal analysis.names) := by
  have hLeft := checkAtom_audits analysis left
  have hRight := checkAtom_audits (analysis.checkAtom left) right
  rw [hLeft.names] at hRight
  exact hLeft.trans hRight

private theorem checkExpression_audits (analysis : Analysis) (expression : Expression) :
    Audits analysis (analysis.checkExpression expression) (expression.Legal analysis.names) := by
  cases expression with
  | atom span value => exact checkAtom_audits analysis value
  | operation span left operator right => exact checkBoth_audits analysis left right

private theorem checkCondition_audits (analysis : Analysis) (condition : Condition) :
    Audits analysis (analysis.checkCondition condition) (condition.Legal analysis.names) :=
  checkBoth_audits analysis condition.left condition.right

/-- A loop variable must be a new name; either way it is known inside the loop. -/
theorem enterLoop_spec (analysis : Analysis) (span : Source.Span) (iterator : String) :
    (analysis.enterLoop span iterator).names = analysis.names.enter iterator ∧
      ((analysis.enterLoop span iterator).complaints = [] ↔
        analysis.complaints = [] ∧ analysis.names.role? iterator = none) := by
  have hTaken : ((analysis.declaration? iterator).isSome || analysis.isIterator iterator) = true ↔
      analysis.names.role? iterator ≠ none := by
    rw [Bool.or_eq_true]
    by_cases hIterator : analysis.isIterator iterator = true
    · rw [isIterator_eq_true_iff.mp hIterator]
      exact ⟨fun _ => Option.some_ne_none _, fun _ => .inr hIterator⟩
    · rw [role?_of_not_isIterator hIterator, Option.isSome_iff_ne_none, ne_eq, ne_eq,
        Option.map_eq_none_iff]
      exact ⟨fun hEither => hEither.resolve_right hIterator, .inl⟩
  unfold enterLoop
  by_cases hRole : analysis.names.role? iterator = none
  · rw [if_neg fun hBad => hTaken.mp hBad hRole]
    exact ⟨rfl, fun hNone => ⟨hNone, hRole⟩, And.left⟩
  · rw [if_pos (hTaken.mpr hRole)]
    exact ⟨rfl, (Audits.complain analysis span _ hRole).complaints⟩

mutual

theorem checkCommand_audits (command : Command) (analysis : Analysis) :
    Audits analysis (checkCommand analysis command) (command.Legal analysis.names) := by
  cases command with
  | assign span target value =>
      have hValue := checkExpression_audits analysis value
      have hTarget := checkTarget_audits (analysis.checkExpression value) target
      rw [hValue.names] at hTarget
      rw [checkCommand, Command.Legal]
      exact (hValue.trans hTarget).congr and_comm
  | read span target =>
      rw [checkCommand, Command.Legal]
      exact checkTarget_audits analysis target
  | write span value =>
      rw [checkCommand, Command.Legal]
      exact checkAtom_audits analysis value
  | skip span =>
      rw [checkCommand, Command.Legal]
      exact .accept _ trivial
  | ifThen span condition body =>
      have hCondition := checkCondition_audits analysis condition
      have hBody := checkCommands_audits body (analysis.checkCondition condition)
      rw [hCondition.names] at hBody
      rw [checkCommand, Command.Legal]
      exact hCondition.trans hBody
  | whileLoop span condition body =>
      have hCondition := checkCondition_audits analysis condition
      have hBody := checkCommands_audits body (analysis.checkCondition condition)
      rw [hCondition.names] at hBody
      rw [checkCommand, Command.Legal]
      exact hCondition.trans hBody
  | ifElse span condition body orElse =>
      have hCondition := checkCondition_audits analysis condition
      have hBody := checkCommands_audits body (analysis.checkCondition condition)
      have hOrElse := checkCommands_audits orElse
        (checkCommands (analysis.checkCondition condition) body)
      rw [hBody.names, hCondition.names] at hOrElse
      rw [hCondition.names] at hBody
      rw [checkCommand, Command.Legal]
      exact hCondition.trans (hBody.trans hOrElse)
  | forLoop span iterator first last direction body =>
      have hBounds := checkBoth_audits analysis first last
      obtain ⟨hInside, hNew⟩ :=
        enterLoop_spec ((analysis.checkAtom first).checkAtom last) span iterator
      have hBody := checkCommands_audits body
        (((analysis.checkAtom first).checkAtom last).enterLoop span iterator)
      rw [checkCommand, Command.Legal]
      rw [hBounds.names] at hInside hNew
      rw [hInside] at hBody
      constructor
      · have hAfter := hBody.names.trans hInside
        have hDeclared := congrArg Names.declarations hAfter
        have hIterators := congrArg Names.iterators hAfter
        simp only [names, Names.enter] at hDeclared hIterators
        simp only [names, leaveLoop, hDeclared, hIterators, List.tail_cons]
      · change (checkCommands _ body).complaints = [] ↔ _
        rw [hBody.complaints, hNew, hBounds.complaints]
        constructor
        · rintro ⟨⟨⟨hBefore, hBoth⟩, hFree⟩, hCommands⟩
          exact ⟨hBefore, hFree, hBoth, hCommands⟩
        · rintro ⟨hBefore, hFree, hBoth, hCommands⟩
          exact ⟨⟨⟨hBefore, hBoth⟩, hFree⟩, hCommands⟩

theorem checkCommands_audits (commands : List Command) (analysis : Analysis) :
    Audits analysis (checkCommands analysis commands)
      (Command.AllLegal analysis.names commands) := by
  cases commands with
  | nil =>
      rw [checkCommands, Command.AllLegal]
      exact .accept _ trivial
  | cons command rest =>
      have hCommand := checkCommand_audits command analysis
      have hRest := checkCommands_audits rest (checkCommand analysis command)
      rw [hCommand.names] at hRest
      rw [checkCommands, Command.AllLegal]
      exact hCommand.trans hRest

end

/-! ### Declarations -/

theorem declaration?_eq_none_iff {analysis : Analysis} {name : String} :
    analysis.declaration? name = none ↔ name ∉ analysis.declared.map Declaration.name := by
  rw [declaration?, List.find?_eq_none, List.mem_map]
  constructor
  · rintro hNone ⟨declaration, hDeclaration, hName⟩
    exact hNone declaration hDeclaration (beq_iff_eq.mpr hName)
  · intro hNone declaration hDeclaration hName
    exact hNone ⟨declaration, hDeclaration, beq_iff_eq.mp hName⟩

/-- A declaration of a new name, of an array that is not empty. -/
theorem declare_spec (analysis : Analysis) (declaration : Declaration) :
    (analysis.declare declaration).iterators = analysis.iterators ∧
      ((analysis.declare declaration).complaints = [] ↔ analysis.complaints = [] ∧
        declaration.name ∉ analysis.declared.map Declaration.name ∧
          declaration.length ≠ some 0) ∧
      (declaration.name ∉ analysis.declared.map Declaration.name →
        (analysis.declare declaration).declared = analysis.declared ++ [declaration]) := by
  unfold declare
  by_cases hNew : declaration.name ∉ analysis.declared.map Declaration.name
  · have hNone := declaration?_eq_none_iff.mpr hNew
    rw [hNone, Option.isSome_none, if_neg Bool.false_ne_true]
    by_cases hEmpty : declaration.length = some 0
    · rw [if_pos hEmpty]
      refine ⟨rfl, ?_, fun _ => rfl⟩
      exact (Audits.complain analysis declaration.span (.emptyArray declaration.name)
        fun hLegal => hLegal.2 hEmpty).complaints
    · rw [if_neg hEmpty]
      exact ⟨rfl, ⟨fun hBefore => ⟨hBefore, hNew, hEmpty⟩, And.left⟩, fun _ => rfl⟩
  · have hSome : (analysis.declaration? declaration.name).isSome = true := by
      rw [Option.isSome_iff_ne_none]
      exact fun hNone => hNew (declaration?_eq_none_iff.mp hNone)
    rw [if_pos hSome]
    refine ⟨rfl, ?_, fun hAbsent => absurd hAbsent hNew⟩
    exact (Audits.complain analysis declaration.span (.declaredTwice declaration.name)
      fun hLegal => hNew hLegal.1).complaints

/-- Declarations in a row are accepted when their names are new and differ; then all of them
are known. -/
theorem foldl_declare_spec (declarations : List Declaration) (analysis : Analysis) :
    (declarations.foldl declare analysis).iterators = analysis.iterators ∧
      ((declarations.foldl declare analysis).complaints = [] ↔ analysis.complaints = [] ∧
        (∀ declaration ∈ declarations,
          declaration.name ∉ analysis.declared.map Declaration.name) ∧
        Declaration.AllLegal declarations) ∧
      ((declarations.foldl declare analysis).complaints = [] →
        (declarations.foldl declare analysis).declared = analysis.declared ++ declarations) := by
  induction declarations generalizing analysis with
  | nil =>
      refine ⟨rfl, ⟨fun hNone => ⟨hNone, by simp, ⟨List.nodup_nil, by simp⟩⟩, And.left⟩, fun _ => ?_⟩
      exact (List.append_nil _).symm
  | cons declaration rest inductionHypothesis =>
      obtain ⟨hSame, hFirst, hKnown⟩ := declare_spec analysis declaration
      obtain ⟨hIterators, hRest, hDeclared⟩ := inductionHypothesis (analysis.declare declaration)
      rw [List.foldl_cons]
      refine ⟨hIterators.trans hSame, ?_, ?_⟩
      · rw [hRest, hFirst, ← Declaration.allLegal_cons_iff, and_assoc]
        apply and_congr_right
        intro _
        apply and_congr_right
        intro hLegal
        rw [hKnown hLegal.1, List.map_append]
        rfl
      · intro hNone
        have hNew := (hFirst.mp (hRest.mp hNone).1).2.1
        rw [hDeclared hNone, hKnown hNew, List.append_assoc]
        rfl

end Analysis

/-- The check has no complaint exactly about legal programs. -/
theorem complaints_analyze_eq_nil_iff (program : Program) :
    (analyze program).complaints = [] ↔ program.Legal := by
  obtain ⟨hIterators, hDeclarations, hDeclared⟩ :=
    Analysis.foldl_declare_spec program.declarations .empty
  have hBody := Analysis.checkCommands_audits program.body
    (program.declarations.foldl Analysis.declare .empty)
  have hKnown : (program.declarations.foldl Analysis.declare .empty).complaints = [] →
      (program.declarations.foldl Analysis.declare .empty).names = ⟨program.declarations, []⟩ := by
    intro hNone
    rw [Analysis.names, hDeclared hNone, hIterators]
    rfl
  change (Analysis.checkCommands _ program.body).complaints = [] ↔ _
  rw [hBody.complaints]
  constructor
  · rintro ⟨hNone, hLegal⟩
    rw [hKnown hNone] at hLegal
    exact ⟨(hDeclarations.mp hNone).2.2, hLegal⟩
  · rintro ⟨hLegal, hCommands⟩
    have hNone := hDeclarations.mpr ⟨rfl, fun _ _ => List.not_mem_nil, hLegal⟩
    rw [hKnown hNone]
    exact ⟨hNone, hCommands⟩

end RegisterCompiler
