/-
The messages between an editor and a session.

The editor's requests about documents are handled one after another.  The notice
a request leads to is sent on its own: the request is over before the notice has
arrived, and notices that are on their way arrive in any order.
-/

import RegisterCompiler.Editor.Session

set_option autoImplicit false

namespace RegisterCompiler
namespace Editor

open Text (Bytes)

inductive DocumentRequest where
  | opened (address : String) (text : Bytes)
  | changed (address : String) (changes : List Change)
  | closed (address : String)
deriving Repr, DecidableEq, Inhabited

namespace Session

def handle (session : Session) : DocumentRequest → Option Notice × Session
  | .opened address text => (session.update address text).map some id
  | .changed address changes => session.change address changes
  | .closed address => (session.close address).map some id

/-- Handles requests one after another: the notices in the order in which they are
sent, and the session in the end. -/
def handleAll (session : Session) : List DocumentRequest → List Notice × Session
  | [] => ([], session)
  | request :: requests =>
      let (notice, after) := session.handle request
      let (notices, later) := after.handleAll requests
      (notice.toList ++ notices, later)

end Session

/-- A session with the notices on their way, in the order in which they were sent, and
those delivered, in the order in which they arrived. -/
structure Traffic where
  session : Session
  flying : List Notice
  delivered : List Notice
deriving Repr, Inhabited

inductive TrafficEvent where
  | handle (request : DocumentRequest)
  | deliver (index : Nat)
deriving Repr, DecidableEq, Inhabited

namespace TrafficEvent

def request? : TrafficEvent → Option DocumentRequest
  | handle request => some request
  | deliver _ => none

def requests (events : List TrafficEvent) : List DocumentRequest :=
  events.filterMap request?

end TrafficEvent

namespace Traffic

def start (options : GeneratorOptions) : Traffic :=
  ⟨.start options, [], []⟩

def step? (traffic : Traffic) : TrafficEvent → Option Traffic
  | .handle request =>
      let (notice, after) := traffic.session.handle request
      some { traffic with session := after, flying := traffic.flying ++ notice.toList }
  | .deliver index =>
      traffic.flying[index]?.map fun notice =>
        { traffic with
          flying := traffic.flying.eraseIdx index
          delivered := traffic.delivered ++ [notice] }

def run? (traffic : Traffic) (events : List TrafficEvent) : Option Traffic :=
  events.foldlM step? traffic

end Traffic

/-- What an editor shows for a document after some notices: the diagnostics of the last
one for its address. -/
def shown (notices : List Notice) (address : String) : List Diagnostic :=
  (notices.filter fun notice => notice.address = address).getLast?.elim []
    Notice.diagnostics

/-- The diagnostics of the text that is open at an address, and none if no text is. -/
def Session.owed (session : Session) (address : String) : List Diagnostic :=
  (session.documents.get? address).elim [] fun document =>
    (Insight.ofText session.options document.text).diagnostics

end Editor
end RegisterCompiler
