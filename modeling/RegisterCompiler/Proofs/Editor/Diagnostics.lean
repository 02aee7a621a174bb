/-
Where an editor shows what the compiler has to say.

Errors start with the place they are about, so an editor shows each of them there and leaves
the place out of the text.  A warning starts with a word that says so: its place is not found,
and an editor shows all of its text at the start of the document.
-/

import Mathlib.Data.List.Forall2
import RegisterCompiler.Editor.Insight
import RegisterCompiler.Proofs.Editor.Wording
import RegisterCompiler.Proofs.Generator.Agreement
import RegisterCompiler.Proofs.Generator.ArrayNames
import RegisterCompiler.Proofs.Program.Legality

set_option autoImplicit false

namespace RegisterCompiler

open Node (Occurs)
open Text (Bytes)

/-! ### Refusals of code generation -/

section Visits

variable {root : Node} {context start : Context}

private theorem Atom.occurs_of_mem_references {value : Atom} (hValue : Occurs root (.atom value))
    {cell : Reference} (hCell : cell ∈ value.references) : Occurs root (.reference cell) := by
  cases value with
  | number span value => cases hCell
  | reference found =>
      obtain rfl := List.mem_singleton.mp hCell
      exact .child hValue List.mem_cons_self

private theorem Command.occurs_of_mem_references {command : Command}
    (hCommand : Occurs root (.command command)) {cell : Reference}
    (hCell : cell ∈ command.references) : Occurs root (.reference cell) := by
  have hBoth : ∀ {left right : Atom}, Occurs root (.atom left) → Occurs root (.atom right) →
      cell ∈ left.references ++ right.references → Occurs root (.reference cell) :=
    fun hLeft hRight hMem => (List.mem_append.mp hMem).elim (Atom.occurs_of_mem_references hLeft)
      (Atom.occurs_of_mem_references hRight)
  cases command with
  | assign span target value =>
      rcases List.mem_cons.mp hCell with rfl | hValue
      · exact .child hCommand List.mem_cons_self
      have hExpression : Occurs root (.expression value) :=
        .child hCommand (List.mem_cons_of_mem _ List.mem_cons_self)
      cases value with
      | atom span value =>
          exact Atom.occurs_of_mem_references (.child hExpression List.mem_cons_self) hValue
      | operation span left operator right =>
          exact hBoth (.child hExpression List.mem_cons_self)
            (.child hExpression (List.mem_cons_of_mem _ List.mem_cons_self)) hValue
  | read span target =>
      obtain rfl := List.mem_singleton.mp hCell
      exact .child hCommand List.mem_cons_self
  | write span value =>
      exact Atom.occurs_of_mem_references (.child hCommand List.mem_cons_self) hCell
  | skip span => cases hCell
  | ifThen span condition | ifElse span condition | whileLoop span condition =>
      have hCondition : Occurs root (.condition condition) := .child hCommand List.mem_cons_self
      exact hBoth (.child hCondition List.mem_cons_self)
        (.child hCondition (List.mem_cons_of_mem _ List.mem_cons_self)) hCell
  | forLoop =>
      exact hBoth (.child hCommand List.mem_cons_self)
        (.child hCommand (List.mem_cons_of_mem _ List.mem_cons_self)) hCell

private theorem Body.mem_children {command : Command} {body : Body} (hBody : body ∈ command.bodies)
    {inner : Command} (hInner : inner ∈ body.commands) :
    Node.command inner ∈ (Node.command command).children := by
  have hMap : ∀ {commands : List Command}, inner ∈ commands →
      Node.command inner ∈ commands.map Node.command := fun hMem => List.mem_map_of_mem hMem
  cases command with
  | assign | read | write | skip => cases hBody
  | ifThen | whileLoop =>
      obtain rfl := List.mem_singleton.mp hBody
      exact List.mem_cons_of_mem _ (hMap hInner)
  | forLoop =>
      obtain rfl := List.mem_singleton.mp hBody
      exact List.mem_cons_of_mem _ (List.mem_cons_of_mem _ (hMap hInner))
  | ifElse =>
      rcases List.mem_cons.mp hBody with rfl | hSecond
      · exact List.mem_cons_of_mem _ (List.mem_append_left _ (hMap hInner))
      · obtain rfl := List.mem_singleton.mp hSecond
        exact List.mem_cons_of_mem _ (List.mem_append_right _ (hMap hInner))

/-- What is visited is a part of the program. -/
theorem Generating.Visits.occurs {commands : List Command} {names : List String} {command : Command}
    (hVisits : Visits commands context names command start)
    (hCommands : ∀ command ∈ commands, Occurs root (.command command)) :
    Occurs root (.command command) := by
  induction hVisits with
  | here => exact hCommands _ List.mem_cons_self
  | later _ _ _ inductionHypothesis =>
      exact inductionHypothesis fun command hCommand =>
        hCommands command (List.mem_cons_of_mem _ hCommand)
  | inside hBody _ _ inductionHypothesis =>
      exact inductionHypothesis fun inner hInner =>
        .child (hCommands _ List.mem_cons_self) (Body.mem_children hBody hInner)

end Visits

/-- What code generation refuses behind a clean check is refused at a place of the text. -/
theorem legible_of_generateCode {text : Bytes} {program : Program}
    (hParse : parse text = .ok program) (hClean : (analyze program).complaints = [])
    {options : GeneratorOptions} {complaint : Complaint}
    (hFault : generateCode options program = .error (.stuck (.misuse complaint))) :
    complaint.Legible := by
  unfold generateCode at hFault
  cases hCreate : Context.create options with
  | error refusal => rw [hCreate] at hFault; cases hFault
  | ok context =>
      obtain ⟨hRegisters, hLayout, rfl⟩ := Context.eq_empty_of_create hCreate
      rcases hRun : (Context.empty options).generate program with ⟨result, after⟩
      simp only [hCreate, hRun] at hFault
      cases result with
      | ok value => cases hFault
      | error fault =>
          cases hFault
          have hJudges := Generating.compileProgram_judges hRegisters hLayout program
          obtain ⟨names, command, start, ⟨opened, hDeclare, hVisits⟩, cell, hCell, hOverruns⟩ :=
            hJudges.refuses complaint after hRun ((complaints_analyze_eq_nil_iff program).mp hClean)
          have hParts : ∀ node ∈ (Node.program program).children, Occurs (.program program) node :=
            fun _ hNode => .child .self hNode
          have hCommand := hVisits.occurs fun command hCommand =>
            hParts _ (List.mem_append_right _ (List.mem_map_of_mem hCommand))
          have hCounted := counted_of_occurs hParse (Command.occurs_of_mem_references hCommand hCell)
          cases hOverruns with
          | @beyond _ _ label _ _ _ _ _ _ _ =>
              refine ⟨hCounted, Misuse.oneLine ?_⟩
              have hLabel := Context.label_of_generate hDeclare (congrArg Prod.fst hRun)
              rcases hLabel with hDeclared | hNone
              · obtain ⟨declaration, hDeclaration, hName⟩ := List.mem_map.mp hDeclared
                have hNode := hParts _ (List.mem_append_left _ (List.mem_map_of_mem hDeclaration))
                exact hName ▸ oneLine_of_mem_symbols hParse hNode
                  (Analysis.declaration_name_mem_symbols declaration)
              · exact hNone ▸ of_decide_eq_true (by rfl)

/-! ### What is shown -/

namespace Editor

inductive Remark where
  | unreadable (error : SyntaxError)
  | unassigned (warning : UnassignedRead)
  | misused (complaint : Complaint)
  | failed (fault : BuildFault)

namespace Remark

def diagnostic : Remark → Diagnostic
  | unreadable error => .ofMessage .error error.message
  | unassigned warning => .ofMessage .warning warning.message
  | misused complaint => .ofMessage .error complaint.message
  | failed fault => .ofMessage .error fault.message

def ofResult : Except BuildFault GeneratedCode → List Remark
  | .ok _ => []
  | .error (.stuck (.misuse complaint)) => [misused complaint]
  | .error fault => [failed fault]

/-- A remark is shown as a diagnostic.  An error about a place is shown there, without the place;
a warning is shown at the start of the document, with all of its text. -/
def ShownAs : Remark → Diagnostic → Prop
  | unreadable error, diagnostic => 0 < error.line ∧
      diagnostic.place = ⟨.ofNat (error.line - 1), 0⟩ ∧ diagnostic.severity = .error ∧
      diagnostic.message = error.fault.message
  | unassigned warning, diagnostic => diagnostic = ⟨⟨0, 0⟩, .warning, warning.message⟩
  | misused complaint, diagnostic => 0 < complaint.position.line ∧
      0 < complaint.position.column ∧
      diagnostic.place =
        ⟨.ofNat (complaint.position.line - 1), .ofNat (complaint.position.column - 1)⟩ ∧
      diagnostic.severity = .error ∧ diagnostic.message = complaint.misuse.message
  | failed fault, diagnostic => diagnostic = .ofMessage .error fault.message

end Remark

/-- All there is to say about a text: if it cannot be read its errors, otherwise its warnings, then
what is misused, and if nothing is, why it cannot be compiled. -/
def remarks (options : GeneratorOptions) (text : Bytes) : List Remark :=
  match parse text with
  | .error _ => (readProgram text).errors.map .unreadable
  | .ok program =>
      let findings := analyze program
      let refusals :=
        if findings.complaints.isEmpty then Remark.ofResult (generateCode options program) else []
      findings.warnings.map .unassigned ++ findings.complaints.map .misused ++ refusals

section

variable {options : GeneratorOptions} {text : Bytes} {program : Program} {remark : Remark}

private theorem messages_of_parse {failure : ParseFailure} (hParse : parse text = .error failure) :
    failure.messages = (readProgram text).errors.map SyntaxError.message := by
  unfold parse at hParse
  simp only at hParse
  split at hParse
  · cases hParse
  · cases hParse
    rfl

private theorem diagnostics_ofText (options : GeneratorOptions) (text : Bytes) :
    (Insight.ofText options text).diagnostics = (remarks options text).map Remark.diagnostic := by
  unfold Insight.ofText remarks
  cases hParse : parse text with
  | error failure =>
      simp only [Insight.ofDiagnostics, messages_of_parse hParse, List.map_map, Function.comp_def]
      rfl
  | ok program =>
      have hRefusals : ∀ result, (Remark.ofResult result).map Remark.diagnostic =
          match result with
          | .ok _ => []
          | .error fault => [.ofMessage .error fault.message] := by
        intro result
        unfold Remark.ofResult
        split <;> rfl
      have hWarnings : (analyze program).warnings.map (fun warning =>
          Diagnostic.ofMessage .warning warning.message) =
            ((analyze program).warnings.map Remark.unassigned).map Remark.diagnostic := by
        rw [List.map_map, Function.comp_def]
        rfl
      have hComplaints : (analyze program).complaints.map (fun complaint =>
          Diagnostic.ofMessage .error complaint.message) =
            ((analyze program).complaints.map Remark.misused).map Remark.diagnostic := by
        rw [List.map_map, Function.comp_def]
        rfl
      simp only [Insight.ofProgram, List.map_append, ← hWarnings, ← hComplaints]
      split
      · rw [hRefusals]
        cases generateCode options program with
        | ok code => simp only [List.append_nil]
        | error fault => rfl
      · simp only [List.map_nil, List.append_nil]

/-! ### Places -/

theorem shownAs_unreadable {error : SyntaxError} (hLine : 0 < error.line)
    (hMessage : OneLine error.fault.message) :
    (Remark.unreadable error).ShownAs (.ofMessage .error error.message) := by
  have hLocate : locate? error.message = some (error.line, none, error.fault.message) :=
    locate?_line error.line hMessage
  rw [Diagnostic.ofMessage, hLocate]
  exact ⟨hLine, rfl, rfl, rfl⟩

private theorem shownAs_misused {complaint : Complaint} (hLegible : complaint.Legible) :
    (Remark.misused complaint).ShownAs (.ofMessage .error complaint.message) := by
  have hLocate : locate? complaint.message = some (complaint.position.line,
      some complaint.position.column, complaint.misuse.message) :=
    locate?_place _ _ hLegible.oneLine
  rw [Diagnostic.ofMessage, hLocate]
  exact ⟨hLegible.counted.line, hLegible.counted.column, rfl, rfl, rfl⟩

private theorem shownAs_unassigned (warning : UnassignedRead) :
    (Remark.unassigned warning).ShownAs (.ofMessage .warning warning.message) := by
  obtain ⟨rest, hMessage⟩ : ∃ rest, warning.message.toList = 'w' :: rest := by
    unfold UnassignedRead.message
    simp only [String.toList_append]
    exact ⟨_, rfl⟩
  have hOther : 'w' ≠ 'l' := by decide
  rw [Diagnostic.ofMessage, locate?_eq_none hMessage hOther]
  exact rfl

private theorem shownAs_of_mem_ofResult (hParse : parse text = .ok program)
    (hClean : (analyze program).complaints = [])
    (hRemark : remark ∈ Remark.ofResult (generateCode options program)) :
    remark.ShownAs remark.diagnostic := by
  unfold Remark.ofResult at hRemark
  split at hRemark
  · cases hRemark
  · rename_i complaint hFault
    obtain rfl := List.mem_singleton.mp hRemark
    exact shownAs_misused (legible_of_generateCode hParse hClean hFault)
  · obtain rfl := List.mem_singleton.mp hRemark
    exact rfl

private theorem shownAs_of_mem_remarks (hRemark : remark ∈ remarks options text) :
    remark.ShownAs remark.diagnostic := by
  unfold remarks at hRemark
  split at hRemark
  · obtain ⟨error, hError, rfl⟩ := List.mem_map.mp hRemark
    obtain ⟨hLine, hMessage⟩ := legible_of_mem_errors hError
    exact shownAs_unreadable hLine hMessage
  · rename_i program hParse
    simp only [List.mem_append] at hRemark
    rcases hRemark with (hWarning | hComplaint) | hRefusal
    · obtain ⟨warning, -, rfl⟩ := List.mem_map.mp hWarning
      exact shownAs_unassigned warning
    · obtain ⟨complaint, hFound, rfl⟩ := List.mem_map.mp hComplaint
      exact shownAs_misused (legible_of_mem_complaints hParse hFound)
    · split at hRefusal
      · rename_i hClean
        exact shownAs_of_mem_ofResult hParse (List.isEmpty_iff.mp hClean) hRefusal
      · cases hRefusal

end

/-- For every text and all options, an editor shows one diagnostic for each remark of the
compiler, in the same order: the errors at their places and without them, and the warnings at
the start of the document with all of their text. -/
theorem remarks_shown (options : GeneratorOptions) (text : Bytes) :
    List.Forall₂ Remark.ShownAs (remarks options text)
      (Insight.ofText options text).diagnostics := by
  rw [diagnostics_ofText, List.forall₂_map_right_iff, List.forall₂_same]
  exact fun remark hRemark => shownAs_of_mem_remarks hRemark

def unassignedRead : Bytes :=
  Text.encode "VAR a BEGIN\n\tWRITE a;\nEND"

/-- A warning for a place in the second line is shown at the start of the document. -/
theorem unassignedRead_shown_at_start :
    (check unassignedRead).toOption.map CheckedProgram.warnings = some [⟨⟨19, 2, 8⟩, "a"⟩] ∧
      (Insight.ofText .standard unassignedRead).diagnostics =
        [⟨⟨0, 0⟩, .warning, "warning: line 2, column 8: 'a' is read but never assigned"⟩] := by
  decide +kernel

end Editor
end RegisterCompiler
