/-
Documents under construction.

A draft holds the tables built so far and two sets of paths.  A path is implied
as long as its table came up on the way to a longer path only.  A path is listed
as long as the value written last for it is an array.  Both sets speak of paths
and not of tables: the tables of an array of tables share them.

A path that is implied may be defined once more.  What is there stays then,
except that the new value of a listed path takes its place.  Any other path is
defined only once.
-/

import RegisterCompiler.Toml

set_option autoImplicit false

namespace RegisterCompiler
namespace Toml

/-- What a key of a table under construction stands for.  An array of tables is
built table by table; every other value is finished. -/
inductive Entry where
  | value (value : Value)
  | table (entries : List (String × Entry))
  | tables (items : List (List (String × Entry)))
deriving Repr, Inhabited

/-- Keys and what they stand for, in the order of their first use. -/
abbrev Entries := List (String × Entry)

namespace Entries

def changeLast (change : Entries → Option Entries) : List Entries → Option (List Entries)
  | [] => none
  | [last] => (change last).map fun changed => [changed]
  | first :: second :: rest => (changeLast change (second :: rest)).map (first :: ·)

/-- What stands at a path.  The way through an array of tables is the way through
its last table. -/
def find? : KeyPath → Entries → Option Entry
  | [], _ => none
  | [key], entries => entries.lookup key
  | key :: next :: rest, entries =>
      match entries.lookup key with
      | some (.table inner) => find? (next :: rest) inner
      | some (.tables items) => items.getLast?.bind (find? (next :: rest))
      | _ => none

def store (entry : Entry) : KeyPath → Entries → Option Entries
  | [], _ => none
  | [key], entries => some (put key entry entries)
  | key :: next :: rest, entries =>
      match entries.lookup key with
      | some (.table inner) =>
          (store entry (next :: rest) inner).map fun changed => put key (.table changed) entries
      | some (.tables items) =>
          (changeLast (store entry (next :: rest)) items).map fun changed =>
            put key (.tables changed) entries
      | _ => none

end Entries

/-! ### From entries to values and back -/

mutual

def Entry.ofValue : Value → Entry
  | .table entries => .table (Entry.ofPairs entries)
  | other => .value other

def Entry.ofPairs : List (String × Value) → Entries
  | [] => []
  | (key, content) :: rest => (key, Entry.ofValue content) :: Entry.ofPairs rest

end

mutual

def Entry.finish : Entry → Value
  | .value content => content
  | .table entries => .table (Entry.finishPairs entries)
  | .tables items => .array (Entry.finishAll items)

def Entry.finishPairs : Entries → List (String × Value)
  | [] => []
  | (key, entry) :: rest => (key, Entry.finish entry) :: Entry.finishPairs rest

def Entry.finishAll : List Entries → List Value
  | [] => []
  | entries :: rest => .table (Entry.finishPairs entries) :: Entry.finishAll rest

end

/-! ### Drafts -/

structure Draft where
  entries : Entries
  implied : List KeyPath
  listed : List KeyPath
deriving Repr, Inhabited

namespace Draft

def empty : Draft := ⟨[], [], []⟩

def imply (draft : Draft) (path : KeyPath) : Draft :=
  if draft.implied.contains path then draft
  else { draft with implied := path :: draft.implied }

/-- Makes a path no longer implied. -/
def settle (draft : Draft) (path : KeyPath) : Draft :=
  { draft with implied := draft.implied.filter (· != path) }

/-- Says whether the value written last for a path is an array. -/
def notePath (draft : Draft) (path : KeyPath) (isArray : Bool) : Draft :=
  let others := draft.listed.filter (· != path)
  { draft with listed := if isArray then path :: others else others }

/-- Says whether the value written last for a key is an array.  A key without
characters speaks for the table it is in, except in the outermost table. -/
def note (draft : Draft) (context : KeyPath) (key : String) (isArray : Bool) : Draft :=
  draft.notePath (if key = "" && !context.isEmpty then context else context ++ [key]) isArray

def store (draft : Draft) (path : KeyPath) (entry : Entry) : Option Draft :=
  (Entries.store entry path draft.entries).map fun changed => { draft with entries := changed }

def define (draft : Draft) (path : KeyPath) (entry : Entry) : Option Draft :=
  match Entries.find? path draft.entries with
  | none => draft.store path entry
  | some _ =>
      if draft.implied.contains path then
        if draft.listed.contains path then (draft.settle path).store path entry
        else some (draft.settle path)
      else none

/-- The paths on the way from a table to a place below it, without the place. -/
def waypoints (context : KeyPath) : KeyPath → List KeyPath
  | [] => []
  | [_] => []
  | key :: next :: rest => (context ++ [key]) :: waypoints (context ++ [key]) (next :: rest)

/-- Makes sure that there is a table at a path, an implied one if need be. -/
def reach (draft : Draft) (path : KeyPath) : Option Draft :=
  match Entries.find? path draft.entries with
  | none => (draft.imply path).store path (.table [])
  | some (.value _) => none
  | some _ => some draft

def openTable (draft : Draft) (path : KeyPath) : Option Draft := do
  let reached ← (waypoints [] path).foldlM reach draft
  reached.define path (.table [])

def openNext (draft : Draft) (path : KeyPath) : Option Draft := do
  let reached ← (waypoints [] path).foldlM reach draft
  match Entries.find? path reached.entries with
  | none => reached.store path (.tables [[]])
  | some (.tables items) => reached.store path (.tables (items ++ [[]]))
  | some _ => none

/-- Goes from a table to a place below it.  Every table on the way is defined and
implied. -/
def pass (draft : Draft) (context path : KeyPath) : Option Draft :=
  (waypoints context path).foldlM (fun passed point => (passed.imply point).openTable point) draft

mutual

/-- Enters what a written value says of the tables of the document, and gives the
value.  A table between braces is open while its keys are entered; inside an
array it is the next table of an array of tables. -/
def enter (draft : Draft) (context : KeyPath) (key : String) (inArray : Bool) :
    Term → Option (Draft × Value)
  | .scalar content => some (draft, .scalar content)
  | .array items => do
      let (entered, values) ← (draft.note context key true).enterItems context key items
      return (entered, .array values)
  | .table pairs => do
      let path := context ++ [key]
      let implied := draft.imply path
      let opened ← if inArray then implied.openNext path else implied.openTable path
      let (entered, entries) ← opened.enterPairs path [] pairs
      return (entered, .table entries)

def enterItems (draft : Draft) (context : KeyPath) (key : String) :
    List Term → Option (Draft × List Value)
  | [] => some (draft, [])
  | term :: rest => do
      let (entered, value) ← draft.enter context key true term
      let (last, values) ← entered.enterItems context key rest
      return (last, value :: values)

def enterPairs (draft : Draft) (context : KeyPath) (found : List (String × Value)) :
    List (KeyPath × Term) → Option (Draft × List (String × Value))
  | [] => some (draft, found)
  | (path, term) :: rest => do
      let inner := context ++ path.dropLast
      let key := path.getLastD ""
      let passed ← draft.pass context path
      let (entered, value) ← passed.enter inner key false term
      let defined ← entered.define (inner ++ [key]) (.ofValue value)
      let collected ← value.insertAt path found
      (defined.note inner key value.isArray).enterPairs context collected rest

end

/-- Enters the lines of a document: a key belongs to the table named last. -/
def enterAll : KeyPath → Draft → List Statement → Option Draft
  | _, draft, [] => some draft
  | _, draft, .table path :: rest => do
      let opened ← draft.openTable path
      enterAll path (opened.notePath path false) rest
  | _, draft, .tables path :: rest => do
      let opened ← draft.openNext path
      enterAll path (opened.notePath path false) rest
  | context, draft, .assignment path term :: rest => do
      let (entered, _) ← draft.enterPairs context [] [(path, term)]
      enterAll context entered rest

end Draft

def tableOf (statements : List Statement) : Option (List (String × Value)) :=
  (Draft.enterAll [] Draft.empty statements).map fun draft => Entry.finishPairs draft.entries

end Toml
end RegisterCompiler
