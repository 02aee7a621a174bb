/-
The documents that are open in an editor.

Every new version of a document is looked at as a whole, and the editor is told
what was found.  A closed document is forgotten and its diagnostics are taken
back.
-/

import RegisterCompiler.Editor.Insight
import RegisterCompiler.OrderedMap

set_option autoImplicit false

namespace RegisterCompiler
namespace Editor

open Text (Bytes)

structure Document where
  text : Bytes
  insight : Insight
deriving Repr, Inhabited

structure Session where
  options : GeneratorOptions
  documents : OrderedMap String Document
deriving Repr, Inhabited

inductive Change where
  | whole (text : Bytes)
  | part
deriving Repr, DecidableEq, Inhabited

/-- The diagnostics that hold for a document from now on. -/
structure Notice where
  address : String
  diagnostics : List Diagnostic
deriving Repr, DecidableEq, Inhabited

namespace Session

def start (options : GeneratorOptions) : Session :=
  ⟨options, .empty⟩

def update (session : Session) (address : String) (text : Bytes) : Notice × Session :=
  let insight := Insight.ofText session.options text
  (⟨address, insight.diagnostics⟩,
    { session with documents := session.documents.set address ⟨text, insight⟩ })

/-- Takes the changes of a document.  Only the last one counts, and only if it
gives the whole text. -/
def change (session : Session) (address : String) (changes : List Change) :
    Option Notice × Session :=
  match changes.getLast? with
  | some (.whole text) =>
      let (notice, after) := session.update address text
      (some notice, after)
  | _ => (none, session)

def close (session : Session) (address : String) : Notice × Session :=
  (⟨address, []⟩, { session with documents := session.documents.erase address })

def hover? (session : Session) (address : String) (cursor : Cursor) : Option String :=
  (session.documents.get? address).bind fun document =>
    document.insight.hover? (wordAt document.text cursor)

def complete (session : Session) (address : String) (cursor : Cursor) : List Completion :=
  (session.documents.get? address).elim [] fun document =>
    document.insight.complete (fragmentAt document.text cursor)

end Session

end Editor
end RegisterCompiler
