/-
What is sent to an editor: values of texts, numbers, lists and records.
-/

import RegisterCompiler.Editor.Session

set_option autoImplicit false

namespace RegisterCompiler

inductive Json where
  | null
  | boolean (value : Bool)
  | number (value : Int)
  | text (value : String)
  | list (items : List Json)
  | record (fields : List (String × Json))
deriving Repr, Inhabited

namespace Editor

def serviceName : String := "regc-lsp"

def serviceVersion : String := "0.1.0"

def introduction : Json :=
  .record [
    ("capabilities", .record [
      ("textDocumentSync", .record [("openClose", .boolean true), ("change", .number 1)]),
      ("completionProvider", .record []),
      ("hoverProvider", .boolean true)]),
    ("serverInfo", .record [("name", .text serviceName), ("version", .text serviceVersion)])]

def Cursor.toJson (cursor : Cursor) : Json :=
  .record [("line", .number cursor.line.toNat), ("character", .number cursor.character.toNat)]

def Diagnostic.toJson (diagnostic : Diagnostic) : Json :=
  let place := diagnostic.place.toJson
  .record [("range", .record [("start", place), ("end", place)]),
    ("severity", .number diagnostic.severity.number), ("source", .text serviceName),
    ("message", .text diagnostic.message)]

def Notice.toJson (notice : Notice) : Json :=
  .record [("method", .text "textDocument/publishDiagnostics"),
    ("params", .record [("uri", .text notice.address),
      ("diagnostics", .list (notice.diagnostics.map Diagnostic.toJson))])]

def hoverJson : Option String → Json
  | none => .null
  | some shown =>
      .record [("contents", .record [("kind", .text "markdown"), ("value", .text shown)])]

def Completion.toJson (completion : Completion) : Json :=
  let fields : List (String × Json) :=
    match completion.kind with
    | .keyword => [("kind", .number 14)]
    | .name detail => [("kind", .number 6), ("detail", .text detail)]
  .record (("label", .text completion.label) :: ("insertText", .text completion.label) :: fields)

def completionsJson (completions : List Completion) : Json :=
  if completions.isEmpty then .null else .list (completions.map Completion.toJson)

end Editor
end RegisterCompiler
