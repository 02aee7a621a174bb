/-
The names of a compilation.

A name stands for a value or an array.  A value or an array finds its way back to
the name that was declared for it last; removing any of its names loses the way.
-/

import RegisterCompiler.Store

set_option autoImplicit false

namespace RegisterCompiler

namespace SymbolTable

def lookup? (table : SymbolTable) (name : String) : Option SymbolEntry :=
  table.byName.get? name

def without {κ : Type} [BEq κ] (key : κ) (entries : List (κ × String)) : List (κ × String) :=
  entries.filter fun entry => entry.1 != key

/-- Declares a name, which starts fresh.  A name is not empty and is declared
once at a time. -/
def declare (table : SymbolTable) (name : String) (kind : SymbolKind) (binding : Binding) :
    Except StoreFault SymbolTable :=
  if name = "" then .error .emptyName
  else
    match table.byName.insert? name ⟨name, kind, binding, true⟩ with
    | none => .error (.duplicateName name)
    | some byName =>
        match binding with
        | .value handle =>
            .ok { table with
              byName := byName
              byValue := (handle, name) :: without handle table.byValue }
        | .array ref =>
            .ok { table with
              byName := byName
              byArray := (ref, name) :: without ref table.byArray }
        | .nothing => .ok { table with byName := byName }

def remove? (table : SymbolTable) (name : String) : Option (SymbolEntry × SymbolTable) :=
  (table.lookup? name).map fun entry =>
    let rest := { table with byName := table.byName.erase name }
    match entry.binding with
    | .value handle => (entry, { rest with byValue := without handle table.byValue })
    | .array ref => (entry, { rest with byArray := without ref table.byArray })
    | .nothing => (entry, rest)

def lookupValue? (table : SymbolTable) (arena : Arena) (handle : Handle) : Option SymbolEntry :=
  match table.byValue.lookup handle with
  | some name => table.lookup? name
  | none => do
      let value ← arena.get? handle
      let element ← value.element?
      let ref ← element.array
      let name ← table.byArray.lookup ref
      table.lookup? name

/-- Whether the memory cell of a name holds its value. -/
def isFresh (table : SymbolTable) (name : String) : Bool :=
  ((table.lookup? name).map SymbolEntry.fresh).getD false

def setFresh (table : SymbolTable) (name : String) (fresh : Bool) : SymbolTable :=
  match table.lookup? name with
  | none => table
  | some entry => { table with byName := table.byName.set name { entry with fresh := fresh } }

def entries (table : SymbolTable) : List SymbolEntry :=
  table.byName.entries.map Prod.snd

end SymbolTable

namespace StoreAction

def modifySymbols (change : SymbolTable → SymbolTable) : StoreAction Unit :=
  modify fun store => { store with symbols := change store.symbols }

def declare (name : String) (kind : SymbolKind) (binding : Binding) : StoreAction Unit := do
  match (← get).symbols.declare name kind binding with
  | .ok symbols => modifySymbols fun _ => symbols
  | .error fault => throw fault

def undeclare (name : String) : StoreAction Unit :=
  modifySymbols fun symbols => ((symbols.remove? name).map Prod.snd).getD symbols

def setFresh (name : String) (fresh : Bool) : StoreAction Unit :=
  modifySymbols fun symbols => symbols.setFresh name fresh

end StoreAction

end RegisterCompiler
