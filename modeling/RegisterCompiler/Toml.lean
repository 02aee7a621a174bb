/-
Documents of keys and values in the TOML format.

A document is a table.  Numbers with a fraction and points in time are kept as
they are written, because only their form matters here.
-/

set_option autoImplicit false

namespace RegisterCompiler
namespace Toml

inductive Scalar where
  | text (content : String)
  | integer (number : Int)
  | fraction (written : String)
  | boolean (flag : Bool)
  | moment (written : String)
deriving Repr, DecidableEq, Inhabited

inductive Value where
  | scalar (content : Scalar)
  | array (items : List Value)
  | table (entries : List (String × Value))
deriving Repr, Inhabited

abbrev KeyPath := List String

inductive Term where
  | scalar (content : Scalar)
  | array (items : List Term)
  | table (pairs : List (KeyPath × Term))
deriving Repr, Inhabited

inductive Statement where
  | table (path : KeyPath)
  | tables (path : KeyPath)
  | assignment (path : KeyPath) (term : Term)
deriving Repr, Inhabited

def put {α : Type} (key : String) (item : α) : List (String × α) → List (String × α)
  | [] => [(key, item)]
  | (other, old) :: rest =>
      if other = key then (key, item) :: rest else (other, old) :: put key item rest

namespace Value

def isArray : Value → Bool
  | array _ => true
  | _ => false

/-- Puts a value at a path below a table.  Tables that are missing on the way are
made; there is no way through other values. -/
def insertAt (value : Value) : KeyPath → List (String × Value) → Option (List (String × Value))
  | [], _ => none
  | [key], entries => some (put key value entries)
  | key :: next :: rest, entries =>
      match entries.lookup key with
      | none =>
          (insertAt value (next :: rest) []).map fun inner => put key (.table inner) entries
      | some (.table inner) =>
          (insertAt value (next :: rest) inner).map fun changed => put key (.table changed) entries
      | some _ => none

end Value

end Toml
end RegisterCompiler
