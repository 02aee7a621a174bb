/-
What is known about a document.

A document is read and checked, and if nothing is wrong with it, code is
generated to learn where its names live.
-/

import RegisterCompiler.Build
import RegisterCompiler.Editor.Word

set_option autoImplicit false

namespace RegisterCompiler
namespace Editor

open Text (Bytes)

/-- What is known about one version of a document.  The code has no instructions
as long as none could be generated. -/
structure Insight where
  diagnostics : List Diagnostic
  declarations : List Declaration
  iterators : List String
  placements : List Placement
  instructions : Nat
  cost : UInt64
deriving Repr, Inhabited

def iterator? : Command → Option String
  | .forLoop _ iterator _ _ _ _ => some iterator
  | _ => none

def iteratorsOf (body : List Command) : List String :=
  (Command.visitAll (fun _ => true) body).filterMap iterator?

namespace Insight

def ofDiagnostics (diagnostics : List Diagnostic) : Insight :=
  ⟨diagnostics, [], [], [], 0, 0⟩

def ofProgram (options : GeneratorOptions) (program : Program) : Insight :=
  let findings := analyze program
  let diagnostics :=
    findings.warnings.map (fun warning => Diagnostic.ofMessage .warning warning.message) ++
      findings.complaints.map fun complaint => Diagnostic.ofMessage .error complaint.message
  let names : Insight :=
    ⟨diagnostics, program.declarations, iteratorsOf program.body, [], 0, 0⟩
  if findings.complaints.isEmpty then
    match generateCode options program with
    | .error fault =>
        { names with diagnostics := diagnostics ++ [.ofMessage .error fault.message] }
    | .ok code =>
        { names with
          placements := code.placements
          instructions := code.listing.size
          cost := code.listing.staticCost }
  else names

def ofText (options : GeneratorOptions) (text : Bytes) : Insight :=
  match parse text with
  | .error failure => .ofDiagnostics (failure.messages.map (.ofMessage .error))
  | .ok program => .ofProgram options program

def declaration? (insight : Insight) (name : String) : Option Declaration :=
  insight.declarations.reverse.find? fun declaration => declaration.name == name

def placement? (insight : Insight) (name : String) : Option Placement :=
  insight.placements.reverse.find? fun placement => placement.name == name

def names (insight : Insight) : List String :=
  let declared := insight.declarations.map Declaration.name
  (declared ++ insight.iterators).eraseDups.mergeSort fun left right => left ≤ right

/-! ### Hovering -/

def role? (insight : Insight) (name : String) : Option String :=
  match insight.declaration? name with
  | some declaration =>
      match declaration.length with
      | some length => some s!"array of {length}"
      | none => some "scalar"
  | none =>
      if insight.iterators.contains name then
        some "loop variable, read-only, lives in loop scratch"
      else none

def placeText (placement : Placement) : String :=
  let last := (placement.length.map fun length => s!" to {placement.address + length - 1}").getD ""
  s!"\n\n{placement.segment.name} segment, address {placement.address}" ++ last

def sizeText (insight : Insight) : String :=
  if insight.instructions = 0 then ""
  else
    s!"\n\n---\n\nprogram: {insight.instructions} instructions, static cost {insight.cost.toNat}"

def describe? (insight : Insight) (name : String) : Option String :=
  (insight.role? name).map fun role =>
    s!"**{name}** {role}" ++ ((insight.placement? name).map placeText).getD "" ++
      insight.sizeText

def hover? (insight : Insight) (word : Bytes) : Option String :=
  (insight.names.find? fun name => Text.encode name == word).bind insight.describe?

end Insight

/-! ### Completing -/

inductive CompletionKind where
  | keyword
  | name (detail : String)
deriving Repr, DecidableEq, Inhabited

structure Completion where
  label : String
  kind : CompletionKind
deriving Repr, DecidableEq, Inhabited

namespace Insight

def detail (insight : Insight) (name : String) : String :=
  match insight.declaration? name with
  | none => "loop variable"
  | some declaration =>
      (declaration.length.map fun length => s!"array[{length}]").getD "scalar"

def startingWith (fragment : Bytes) (words : List String) : List String :=
  words.filter fun word => fragment.isPrefixOf (Text.encode word)

def complete (insight : Insight) : Bytes → List Completion
  | [] => []
  | first :: rest =>
      if isUpperByte first then
        (startingWith (first :: rest) reservedWords).map fun word => ⟨word, .keyword⟩
      else
        (startingWith (first :: rest) insight.names).map fun name =>
          ⟨name, .name (insight.detail name)⟩

end Insight

end Editor
end RegisterCompiler
