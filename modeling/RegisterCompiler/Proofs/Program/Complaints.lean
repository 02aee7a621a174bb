/-
What complaints are about.

The check complains about a part of the program: the complaint is placed where the part
starts, and the name that is misused is one of its symbols.  The check goes through the
program part by part, and so does the proof.
-/

import RegisterCompiler.Program.Analysis
import RegisterCompiler.Proofs.Program.Places

set_option autoImplicit false

namespace RegisterCompiler

open Node (Occurs)

def Misuse.name : Misuse → String
  | declaredTwice name | emptyArray name | undeclared name | notArray name | missingIndex name
  | indexOutOfRange _ name _ | iteratorRedeclares name | iteratorTaken name
  | iteratorAssigned name | iteratorIndexed name | noCell name => name

/-- A complaint about a part of a tree: it is where the part starts, and the misused name
stands in the part. -/
def Complaint.About (root : Node) (complaint : Complaint) : Prop :=
  ∃ node, Occurs root node ∧ complaint.position = node.span.first ∧
    Symbol.name complaint.misuse.name ∈ node.symbols

namespace Analysis

def About (root : Node) (analysis : Analysis) : Prop :=
  ∀ complaint ∈ analysis.complaints, complaint.About root

variable {root : Node} {analysis : Analysis}

private theorem About.complain (hAbout : analysis.About root) {node : Node}
    (hNode : Occurs root node) {span : Source.Span} (hSpan : span.first = node.span.first)
    {misuse : Misuse} (hName : Symbol.name misuse.name ∈ node.symbols) :
    (analysis.complain span misuse).About root :=
  List.forall_mem_append.mpr
    ⟨hAbout, List.forall_mem_singleton.mpr ⟨node, hNode, hSpan, hName⟩⟩

private theorem About.noteRead (hAbout : analysis.About root) (name : String) (span : Source.Span) :
    (analysis.noteRead name span).About root := by
  unfold Analysis.noteRead
  split
  · exact hAbout
  · exact hAbout

private theorem name_of_plainMisuse? {name : String} {misuse : Misuse}
    (hMisuse : analysis.plainMisuse? name = some misuse) : misuse.name = name := by
  unfold plainMisuse? at hMisuse
  split at hMisuse
  · cases hMisuse
  · split at hMisuse
    · cases hMisuse
      rfl
    · split at hMisuse
      · cases hMisuse
        rfl
      · cases hMisuse

/-! ### References -/

theorem name_mem_symbols (cell : Reference) : Symbol.name cell.name ∈ (Node.reference cell).symbols := by
  change Symbol.name cell.name ∈ cell.symbols
  unfold Reference.symbols
  split <;> exact List.mem_cons_self

private theorem About.checkReference (hAbout : analysis.About root) {cell : Reference}
    (hCell : Occurs root (.reference cell)) : (analysis.checkReference cell).2.About root := by
  have hHere : ∀ misuse : Misuse, misuse.name = cell.name →
      (analysis.complain cell.span misuse).About root := by
    intro misuse hName
    exact hAbout.complain hCell rfl (hName ▸ name_mem_symbols cell)
  unfold Analysis.checkReference
  cases hIndex : cell.index with
  | none =>
      simp only
      cases hMisuse : analysis.plainMisuse? cell.name with
      | some misuse => exact hHere misuse (name_of_plainMisuse? hMisuse)
      | none => exact hAbout
  | some index =>
      have hChild : Node.index index ∈ (Node.reference cell).children := by
        simp [Node.children, hIndex]
      simp only
      split
      · exact hHere _ rfl
      split
      · exact hHere _ rfl
      split
      · exact hHere _ rfl
      cases index with
      | number span value =>
          simp only
          split
          · exact hHere _ rfl
          · exact hAbout
      | name span name =>
          simp only
          cases hMisuse : analysis.plainMisuse? name with
          | some misuse =>
              refine hAbout.complain (.child hCell hChild) rfl ?_
              rw [name_of_plainMisuse? hMisuse]
              exact List.mem_singleton_self _
          | none => exact hAbout.noteRead name span

private theorem About.checkTarget (hAbout : analysis.About root) {target : Reference}
    (hTarget : Occurs root (.reference target)) : (analysis.checkTarget target).About root := by
  unfold Analysis.checkTarget
  split
  · exact hAbout.complain hTarget rfl (name_mem_symbols target)
  · have hChecked := hAbout.checkReference hTarget
    simp only
    split
    · exact hChecked
    · exact hChecked

private theorem About.checkAtom (hAbout : analysis.About root) {value : Atom}
    (hValue : Occurs root (.atom value)) : (analysis.checkAtom value).About root := by
  cases value with
  | number span value => exact hAbout
  | reference cell =>
      have hChecked := hAbout.checkReference (.child hValue List.mem_cons_self)
      unfold Analysis.checkAtom
      simp only
      split
      · exact hChecked
      · exact hChecked.noteRead cell.name cell.span

private theorem About.checkExpression (hAbout : analysis.About root) {value : Expression}
    (hValue : Occurs root (.expression value)) : (analysis.checkExpression value).About root := by
  cases value with
  | atom span value => exact hAbout.checkAtom (.child hValue List.mem_cons_self)
  | operation span left operator right =>
      exact (hAbout.checkAtom (.child hValue List.mem_cons_self)).checkAtom
        (.child hValue (List.mem_cons_of_mem _ List.mem_cons_self))

private theorem About.checkCondition (hAbout : analysis.About root) {condition : Condition}
    (hCondition : Occurs root (.condition condition)) :
    (analysis.checkCondition condition).About root :=
  (hAbout.checkAtom (.child hCondition List.mem_cons_self)).checkAtom
    (.child hCondition (List.mem_cons_of_mem _ List.mem_cons_self))

/-! ### Commands -/

mutual

theorem About.checkCommand {analysis : Analysis} (hAbout : analysis.About root) (command : Command)
    (hCommand : Occurs root (.command command)) : (analysis.checkCommand command).About root := by
  have hHere : ∀ {node : Node}, node ∈ (Node.command command).children → Occurs root node :=
    fun hChild => .child hCommand hChild
  cases command with
  | assign span target value =>
      rw [Analysis.checkCommand]
      exact (hAbout.checkExpression (hHere (List.mem_cons_of_mem _ List.mem_cons_self))).checkTarget
        (hHere List.mem_cons_self)
  | read span target =>
      rw [Analysis.checkCommand]
      exact hAbout.checkTarget (hHere List.mem_cons_self)
  | write span value =>
      rw [Analysis.checkCommand]
      exact hAbout.checkAtom (hHere List.mem_cons_self)
  | skip span =>
      rw [Analysis.checkCommand]
      exact hAbout
  | ifThen span condition body =>
      rw [Analysis.checkCommand]
      exact (hAbout.checkCondition (hHere List.mem_cons_self)).checkCommands body fun inner hInner =>
        hHere (List.mem_cons_of_mem _ (List.mem_map_of_mem hInner))
  | ifElse span condition body orElse =>
      rw [Analysis.checkCommand]
      refine ((hAbout.checkCondition (hHere List.mem_cons_self)).checkCommands body
        fun inner hInner => hHere (List.mem_cons_of_mem _ (List.mem_append_left _
          (List.mem_map_of_mem hInner)))).checkCommands orElse fun inner hInner => ?_
      exact hHere (List.mem_cons_of_mem _ (List.mem_append_right _ (List.mem_map_of_mem hInner)))
  | whileLoop span condition body =>
      rw [Analysis.checkCommand]
      exact (hAbout.checkCondition (hHere List.mem_cons_self)).checkCommands body fun inner hInner =>
        hHere (List.mem_cons_of_mem _ (List.mem_map_of_mem hInner))
  | forLoop span iterator first last direction body =>
      rw [Analysis.checkCommand]
      have hBounds := (hAbout.checkAtom (hHere List.mem_cons_self)).checkAtom
        (hHere (List.mem_cons_of_mem _ List.mem_cons_self))
      have hEntered : (((analysis.checkAtom first).checkAtom last).enterLoop span iterator).About
          root := by
        have hIterator : Symbol.name iterator ∈
            (Node.command (.forLoop span iterator first last direction body)).symbols := by
          change Symbol.name iterator ∈ Command.symbols _
          rw [Command.symbols]
          exact List.mem_cons_of_mem _ List.mem_cons_self
        unfold Analysis.enterLoop
        simp only
        split
        · exact hBounds.complain hCommand rfl hIterator
        · exact hBounds
      exact hEntered.checkCommands body fun inner hInner =>
        hHere (List.mem_cons_of_mem _ (List.mem_cons_of_mem _ (List.mem_map_of_mem hInner)))

theorem About.checkCommands {analysis : Analysis} (hAbout : analysis.About root)
    (commands : List Command)
    (hCommands : ∀ command ∈ commands, Occurs root (.command command)) :
    (analysis.checkCommands commands).About root := by
  cases commands with
  | nil =>
      rw [Analysis.checkCommands]
      exact hAbout
  | cons command rest =>
      obtain ⟨hFirst, hRest⟩ := List.forall_mem_cons.mp hCommands
      rw [Analysis.checkCommands]
      exact (hAbout.checkCommand command hFirst).checkCommands rest hRest

end

/-! ### Programs -/

theorem declaration_name_mem_symbols (declaration : Declaration) :
    Symbol.name declaration.name ∈ (Node.declaration declaration).symbols := by
  change Symbol.name declaration.name ∈ declaration.symbols
  unfold Declaration.symbols
  split <;> exact List.mem_cons_self

private theorem About.declare (hAbout : analysis.About root) {declaration : Declaration}
    (hDeclaration : Occurs root (.declaration declaration)) :
    (analysis.declare declaration).About root := by
  have hName := declaration_name_mem_symbols declaration
  unfold Analysis.declare
  split
  · exact hAbout.complain hDeclaration rfl hName
  · simp only
    split
    · exact hAbout.complain hDeclaration rfl hName
    · exact hAbout

private theorem About.declareAll (hAbout : analysis.About root) {declarations : List Declaration}
    (hDeclarations : ∀ declaration ∈ declarations, Occurs root (.declaration declaration)) :
    (declarations.foldl Analysis.declare analysis).About root := by
  induction declarations generalizing analysis with
  | nil => exact hAbout
  | cons declaration rest inductionHypothesis =>
      obtain ⟨hFirst, hRest⟩ := List.forall_mem_cons.mp hDeclarations
      exact inductionHypothesis (hAbout.declare hFirst) hRest

end Analysis

theorem about_of_mem_complaints {program : Program} {complaint : Complaint}
    (hComplaint : complaint ∈ (analyze program).complaints) : complaint.About (.program program) := by
  have hParts : ∀ node ∈ (Node.program program).children, Occurs (.program program) node :=
    fun _ hNode => .child .self hNode
  have hNone : Analysis.empty.About (.program program) := List.forall_mem_nil _
  have hDeclared := hNone.declareAll fun declaration hDeclaration =>
    hParts _ (List.mem_append_left _ (List.mem_map_of_mem hDeclaration))
  exact hDeclared.checkCommands program.body (fun command hCommand =>
    hParts _ (List.mem_append_right _ (List.mem_map_of_mem hCommand))) complaint hComplaint

end RegisterCompiler
