/-
Names after any calls.

Names are declared, removed, and marked as having their value in memory or not, in any order.
Which names are declared, and as what, can be read off the calls: the call that declared a name
found it undeclared, and no later call removed it.
-/

import Mathlib.Data.List.Infix
import Mathlib.Data.List.Induction
import RegisterCompiler.Proofs.Store.Symbols

set_option autoImplicit false

namespace RegisterCompiler

namespace StoreAction

private theorem declare_refuses {store : Store} {name : String} {kind : SymbolKind}
    {binding : Binding} {fault : StoreFault}
    (hDeclare : store.symbols.declare name kind binding = .error fault) :
    (declare name kind binding).Refuses store fault := by
  refine Gives.refuses (.get store) ?_
  rw [hDeclare]
  exact .throw fault store

end StoreAction

/-! ### Calls on names -/

/-- A call on the names of a store.  A name is marked as having its value in its memory cell or
not. -/
inductive SymbolCall where
  | declare (name : String) (kind : SymbolKind) (binding : Binding)
  | remove (name : String)
  | mark (name : String) (fresh : Bool)
deriving Repr, DecidableEq

namespace SymbolCall

def action : SymbolCall → StoreAction Unit
  | declare name kind binding => StoreAction.declare name kind binding
  | remove name => StoreAction.undeclare name
  | mark name fresh => StoreAction.setFresh name fresh

def perform (store : Store) (call : SymbolCall) : Store :=
  (call.action.run.run store).2

def revise (table : SymbolTable) : SymbolCall → SymbolTable
  | declare name kind binding =>
      match table.declare name kind binding with
      | .ok after => after
      | .error _ => table
  | remove name => ((table.remove? name).map Prod.snd).getD table
  | mark name fresh => table.setFresh name fresh

private theorem perform_eq (store : Store) (call : SymbolCall) :
    perform store call = { store with symbols := revise store.symbols call } := by
  cases call with
  | declare name kind binding =>
      cases hDeclare : store.symbols.declare name kind binding with
      | ok after =>
          simp only [revise, hDeclare]
          exact congrArg Prod.snd (StoreAction.declare_gives hDeclare)
      | error fault =>
          simp only [revise, hDeclare]
          exact congrArg Prod.snd (StoreAction.declare_refuses hDeclare)
  | remove name => rfl
  | mark name fresh => rfl

private theorem symbols_foldl (start : Store) (calls : List SymbolCall) :
    (calls.foldl perform start).symbols = calls.foldl revise start.symbols := by
  induction calls generalizing start with
  | nil => rfl
  | cons call rest inductionHypothesis =>
      rw [List.foldl_cons, List.foldl_cons, inductionHypothesis, perform_eq]

/-! ### What calls say -/

/-- A name is declared after some calls: one of them declared it, and none behind that removed
it. -/
def Declared (calls : List SymbolCall) (name : String) : Prop :=
  name ≠ "" ∧ ∃ earlier kind binding since,
    calls = earlier ++ declare name kind binding :: since ∧ remove name ∉ since

/-- A name owes its declaration to a call that found it undeclared, and no call since removed
it. -/
structure Declares (calls : List SymbolCall) (name : String) (kind : SymbolKind)
    (binding : Binding) (since : List SymbolCall) : Prop where
  legal : name ≠ ""
  found : ∃ earlier, calls = earlier ++ declare name kind binding :: since ∧
    ¬Declared earlier name
  kept : remove name ∉ since

/-- Behind every call that marks a name as out of date there is one that marks it as up to
date. -/
def Fresh (since : List SymbolCall) (name : String) : Prop :=
  ∀ earlier later, since = earlier ++ mark name false :: later → mark name true ∈ later

def Stands (calls : List SymbolCall) (entry : SymbolEntry) : Prop :=
  ∃ since, Declares calls entry.name entry.kind entry.binding since ∧
    (entry.fresh = true ↔ Fresh since entry.name)

/-- No value and no array is bound to two declared names. -/
def Exclusive (calls : List SymbolCall) : Prop :=
  ∀ first second, Stands calls first → Stands calls second → first.binding = second.binding →
    first.binding ≠ .nothing → first.name = second.name

variable {calls since : List SymbolCall} {call : SymbolCall} {name : String} {kind : SymbolKind}
  {binding : Binding} {entry : SymbolEntry}

private theorem concat_eq_append_cons_iff {earlier : List SymbolCall} {found : SymbolCall} :
    calls ++ [call] = earlier ++ found :: since ↔
      (since = [] ∧ calls = earlier ∧ call = found) ∨
        ∃ rest, since = rest ++ [call] ∧ calls = earlier ++ found :: rest := by
  constructor
  · intro hCalls
    rcases List.eq_nil_or_concat since with rfl | ⟨rest, last, rfl⟩
    · exact .inl ⟨rfl, List.append_singleton_inj.mp hCalls⟩
    · rw [List.concat_eq_append, ← List.cons_append, ← List.append_assoc] at hCalls
      rcases List.append_singleton_inj.mp hCalls with ⟨rfl, rfl⟩
      exact .inr ⟨rest, List.concat_eq_append, rfl⟩
  · intro hCases
    rcases hCases with ⟨rfl, rfl, rfl⟩ | ⟨rest, rfl, rfl⟩
    · rfl
    · rw [List.append_assoc, List.cons_append]

private theorem not_declared_nil : ¬Declared [] name := by
  intro hDeclared
  rcases hDeclared with ⟨-, earlier, kind, binding, since, hCalls, -⟩
  simp at hCalls

private theorem declared_concat :
    Declared (calls ++ [call]) name ↔ call ≠ remove name ∧
      (Declared calls name ∨ name ≠ "" ∧ ∃ kind binding, call = declare name kind binding) := by
  constructor
  · intro hDeclared
    rcases hDeclared with ⟨hLegal, earlier, kind, binding, since, hCalls, hKept⟩
    rcases concat_eq_append_cons_iff.mp hCalls with ⟨rfl, rfl, rfl⟩ | ⟨rest, rfl, hRest⟩
    · exact ⟨nofun, .inr ⟨hLegal, kind, binding, rfl⟩⟩
    · rw [List.mem_append, not_or, List.mem_singleton] at hKept
      exact ⟨Ne.symm hKept.2, .inl ⟨hLegal, earlier, kind, binding, rest, hRest, hKept.1⟩⟩
  · intro hCases
    rcases hCases with ⟨hOther, hBefore | ⟨hLegal, kind, binding, rfl⟩⟩
    · rcases hBefore with ⟨hLegal, earlier, kind, binding, rest, hRest, hKept⟩
      refine ⟨hLegal, earlier, kind, binding, rest ++ [call], ?_, ?_⟩
      · exact concat_eq_append_cons_iff.mpr (.inr ⟨rest, rfl, hRest⟩)
      · rw [List.mem_append, not_or, List.mem_singleton]
        exact ⟨hKept, Ne.symm hOther⟩
    · exact ⟨hLegal, calls, kind, binding, [], rfl, List.not_mem_nil⟩

private theorem declares_concat :
    Declares (calls ++ [call]) name kind binding since ↔
      (since = [] ∧ call = declare name kind binding ∧ name ≠ "" ∧ ¬Declared calls name) ∨
        ∃ rest, since = rest ++ [call] ∧ call ≠ remove name ∧
          Declares calls name kind binding rest := by
  constructor
  · intro hDeclares
    rcases hDeclares with ⟨hLegal, ⟨earlier, hCalls, hNew⟩, hKept⟩
    rcases concat_eq_append_cons_iff.mp hCalls with ⟨rfl, rfl, rfl⟩ | ⟨rest, rfl, hRest⟩
    · exact .inl ⟨rfl, rfl, hLegal, hNew⟩
    · rw [List.mem_append, not_or, List.mem_singleton] at hKept
      exact .inr ⟨rest, rfl, Ne.symm hKept.2, hLegal, ⟨earlier, hRest, hNew⟩, hKept.1⟩
  · intro hCases
    rcases hCases with ⟨rfl, rfl, hLegal, hNew⟩ | ⟨rest, rfl, hOther, hRest⟩
    · exact ⟨hLegal, ⟨calls, rfl, hNew⟩, List.not_mem_nil⟩
    · rcases hRest with ⟨hLegal, ⟨earlier, hCalls, hNew⟩, hKept⟩
      refine ⟨hLegal, ⟨earlier, ?_, hNew⟩, ?_⟩
      · exact concat_eq_append_cons_iff.mpr (.inr ⟨rest, rfl, hCalls⟩)
      · rw [List.mem_append, not_or, List.mem_singleton]
        exact ⟨hKept, Ne.symm hOther⟩

private theorem fresh_nil : Fresh [] name := by
  intro earlier later hSince
  simp at hSince

private theorem fresh_concat :
    Fresh (since ++ [call]) name ↔
      call = mark name true ∨ call ≠ mark name false ∧ Fresh since name := by
  constructor
  · intro hFresh
    by_cases hMarks : call = mark name true
    · exact .inl hMarks
    · refine .inr ⟨?_, ?_⟩
      · intro hStale
        have hLater := hFresh since [] (by rw [hStale])
        exact absurd hLater List.not_mem_nil
      · intro earlier later hSince
        have hLater := hFresh earlier (later ++ [call])
          (concat_eq_append_cons_iff.mpr (.inr ⟨later, rfl, hSince⟩))
        rw [List.mem_append, List.mem_singleton] at hLater
        exact hLater.resolve_right (Ne.symm hMarks)
  · intro hCases earlier later hSince
    rcases concat_eq_append_cons_iff.mp hSince with ⟨rfl, rfl, rfl⟩ | ⟨rest, rfl, hRest⟩
    · rcases hCases with hMarks | ⟨hOther, -⟩
      · cases hMarks
      · exact absurd rfl hOther
    · rw [List.mem_append, List.mem_singleton]
      rcases hCases with hMarks | ⟨-, hFresh⟩
      · exact .inr hMarks.symm
      · exact .inl (hFresh earlier rest hRest)

def leavesFresh (call : SymbolCall) (entry : SymbolEntry) : Bool :=
  match call with
  | mark name fresh => if entry.name = name then fresh else entry.fresh
  | _ => entry.fresh

private theorem leavesFresh_iff (hFresh : entry.fresh = true ↔ Fresh since entry.name) :
    call.leavesFresh entry = true ↔ Fresh (since ++ [call]) entry.name := by
  rw [fresh_concat]
  cases call with
  | declare name kind binding => simp [leavesFresh, hFresh]
  | remove name => simp [leavesFresh, hFresh]
  | mark name fresh =>
      by_cases hName : entry.name = name
      · cases fresh <;> simp [leavesFresh, hName]
      · simp [leavesFresh, hFresh, hName, Ne.symm hName]

/-- What a call leaves: a name that it declares, and the old names that it does not remove. -/
theorem stands_concat :
    Stands (calls ++ [call]) entry ↔
      (call = declare entry.name entry.kind entry.binding ∧ entry.fresh = true ∧
        entry.name ≠ "" ∧ ¬Declared calls entry.name) ∨
      ∃ old, Stands calls old ∧ call ≠ remove old.name ∧
        entry = { old with fresh := call.leavesFresh old } := by
  constructor
  · intro hStands
    rcases hStands with ⟨since, hDeclares, hFresh⟩
    rcases declares_concat.mp hDeclares with ⟨rfl, hCall, hLegal, hNew⟩ | ⟨rest, rfl, hOther, hRest⟩
    · exact .inl ⟨hCall, hFresh.mpr fresh_nil, hLegal, hNew⟩
    · classical
      let old : SymbolEntry := { entry with fresh := decide (Fresh rest entry.name) }
      have hOld : old.fresh = true ↔ Fresh rest old.name := decide_eq_true_iff
      have hSame : entry.fresh = call.leavesFresh old :=
        Bool.eq_iff_iff.mpr (hFresh.trans (leavesFresh_iff hOld).symm)
      refine .inr ⟨old, ⟨rest, hRest, hOld⟩, hOther, ?_⟩
      rw [← hSame]
  · intro hCases
    rcases hCases with ⟨hCall, hFresh, hLegal, hNew⟩ | ⟨old, ⟨rest, hRest, hOld⟩, hOther, rfl⟩
    · exact ⟨[], declares_concat.mpr (.inl ⟨rfl, hCall, hLegal, hNew⟩),
        iff_of_true hFresh fresh_nil⟩
    · exact ⟨rest ++ [call], declares_concat.mpr (.inr ⟨rest, rfl, hOther, hRest⟩),
        leavesFresh_iff hOld⟩

private theorem stands_declare :
    Stands (calls ++ [declare name kind binding]) entry ↔
      Stands calls entry ∨
        name ≠ "" ∧ ¬Declared calls name ∧ entry = ⟨name, kind, binding, true⟩ := by
  rw [stands_concat]
  constructor
  · intro hCases
    rcases hCases with ⟨hCall, hFresh, hLegal, hNew⟩ | ⟨old, hOld, -, rfl⟩
    · cases hCall
      exact .inr ⟨hLegal, hNew, by rw [← hFresh]⟩
    · exact .inl hOld
  · intro hCases
    rcases hCases with hOld | ⟨hLegal, hNew, rfl⟩
    · exact .inr ⟨entry, hOld, nofun, rfl⟩
    · exact .inl ⟨rfl, rfl, hLegal, hNew⟩

private theorem stands_remove :
    Stands (calls ++ [remove name]) entry ↔ Stands calls entry ∧ entry.name ≠ name := by
  rw [stands_concat]
  constructor
  · intro hCases
    rcases hCases with ⟨hCall, -⟩ | ⟨old, hOld, hOther, rfl⟩
    · cases hCall
    · exact ⟨hOld, fun hSame => hOther (congrArg remove hSame.symm)⟩
  · intro hStands
    exact .inr ⟨entry, hStands.1, fun hSame => hStands.2 (remove.inj hSame).symm, rfl⟩

private theorem stands_mark {fresh : Bool} :
    Stands (calls ++ [mark name fresh]) entry ↔
      ∃ old, Stands calls old ∧
        entry = { old with fresh := if old.name = name then fresh else old.fresh } := by
  rw [stands_concat]
  constructor
  · intro hCases
    rcases hCases with ⟨hCall, -⟩ | ⟨old, hOld, -, hEntry⟩
    · cases hCall
    · exact ⟨old, hOld, hEntry⟩
  · intro hMarked
    rcases hMarked with ⟨old, hOld, hEntry⟩
    exact .inr ⟨old, hOld, nofun, hEntry⟩

private theorem not_stands_nil : ¬Stands [] entry := by
  intro hStands
  rcases hStands with ⟨since, ⟨-, ⟨earlier, hCalls, -⟩, -⟩, -⟩
  simp at hCalls

private theorem declared_iff_stands :
    Declared calls name ↔ ∃ entry, Stands calls entry ∧ entry.name = name := by
  constructor
  · intro hDeclared
    induction calls using List.reverseRecOn with
    | nil => exact absurd hDeclared not_declared_nil
    | append_singleton calls call inductionHypothesis =>
        rcases declared_concat.mp hDeclared with ⟨hOther, hCases⟩
        by_cases hBefore : Declared calls name
        · rcases inductionHypothesis hBefore with ⟨old, hOld, rfl⟩
          exact ⟨_, stands_concat.mpr (.inr ⟨old, hOld, hOther, rfl⟩), rfl⟩
        · rcases hCases.resolve_left hBefore with ⟨hLegal, kind, binding, rfl⟩
          exact ⟨⟨name, kind, binding, true⟩,
            stands_concat.mpr (.inl ⟨rfl, rfl, hLegal, hBefore⟩), rfl⟩
  · intro hStands
    rcases hStands with ⟨entry, ⟨since, ⟨hLegal, ⟨earlier, hCalls, -⟩, hKept⟩, -⟩, rfl⟩
    exact ⟨hLegal, earlier, _, _, since, hCalls, hKept⟩

/-! ### What the names find -/

def table (calls : List SymbolCall) : SymbolTable :=
  calls.foldl revise ⟨.empty, [], []⟩

private theorem table_concat (calls : List SymbolCall) (call : SymbolCall) :
    table (calls ++ [call]) = revise (table calls) call := by
  rw [table, List.foldl_append]
  rfl

private theorem lookup?_revise_declare (names : SymbolTable) (name : String) (kind : SymbolKind)
    (binding : Binding) (other : String) :
    (revise names (declare name kind binding)).lookup? other =
      if name ≠ "" ∧ names.lookup? name = none ∧ other = name then
        some ⟨name, kind, binding, true⟩
      else names.lookup? other := by
  rw [revise, SymbolTable.declare_eq]
  by_cases hEmpty : name = ""
  · simp [hEmpty]
  · cases hEntry : names.lookup? name with
    | some entry => simp [hEmpty]
    | none => simp [hEmpty, SymbolTable.lookup?_enter]

private theorem lookup?_revise_remove (names : SymbolTable) (name other : String) :
    (revise names (remove name)).lookup? other =
      if other = name then none else names.lookup? other := by
  rw [revise, SymbolTable.remove?_eq]
  cases hEntry : names.lookup? name with
  | none =>
      by_cases hSame : other = name
      · rw [if_pos hSame, hSame]
        exact hEntry
      · rw [if_neg hSame]
        rfl
  | some entry => exact SymbolTable.lookup?_leave names name entry.binding other

def Finds (names : SymbolTable) (calls : List SymbolCall) : Prop :=
  ∀ name entry, names.lookup? name = some entry ↔ entry.name = name ∧ Stands calls entry

namespace Finds

variable {names : SymbolTable}

private theorem eq_none_iff (hFinds : Finds names calls) :
    names.lookup? name = none ↔ ¬Declared calls name := by
  rw [Option.eq_none_iff_forall_ne_some, declared_iff_stands, not_exists]
  simp only [ne_eq, hFinds name, and_comm]

private theorem declare (hFinds : Finds names calls) (name : String) (kind : SymbolKind)
    (binding : Binding) :
    Finds (revise names (.declare name kind binding)) (calls ++ [.declare name kind binding]) := by
  intro other entry
  rw [lookup?_revise_declare, stands_declare]
  by_cases hEnters : name ≠ "" ∧ names.lookup? name = none ∧ other = name
  · rcases hEnters with ⟨hLegal, hNone, rfl⟩
    rw [if_pos ⟨hLegal, hNone, rfl⟩, Option.some.injEq]
    have hNew := hFinds.eq_none_iff.mp hNone
    constructor
    · intro hEntry
      exact ⟨by rw [← hEntry], .inr ⟨hLegal, hNew, hEntry.symm⟩⟩
    · intro hStands
      rcases hStands with ⟨hName, hOld | ⟨-, -, hEntry⟩⟩
      · exact absurd (declared_iff_stands.mpr ⟨entry, hOld, hName⟩) hNew
      · exact hEntry.symm
  · rw [if_neg hEnters, hFinds other]
    constructor
    · intro hStands
      exact ⟨hStands.1, .inl hStands.2⟩
    · intro hStands
      rcases hStands with ⟨hName, hOld | ⟨hLegal, hNew, rfl⟩⟩
      · exact ⟨hName, hOld⟩
      · exact absurd ⟨hLegal, hFinds.eq_none_iff.mpr hNew, hName.symm⟩ hEnters

private theorem remove (hFinds : Finds names calls) (name : String) :
    Finds (revise names (.remove name)) (calls ++ [.remove name]) := by
  intro other entry
  rw [lookup?_revise_remove, stands_remove]
  by_cases hSame : other = name
  · rw [if_pos hSame]
    constructor
    · intro hFound
      cases hFound
    · intro hStands
      exact absurd (hStands.1.trans hSame) hStands.2.2
  · rw [if_neg hSame, hFinds other]
    constructor
    · intro hStands
      exact ⟨hStands.1, hStands.2, fun hName => hSame (hStands.1.symm.trans hName)⟩
    · intro hStands
      exact ⟨hStands.1, hStands.2.1⟩

private theorem mark (hFinds : Finds names calls) (name : String) (fresh : Bool) :
    Finds (revise names (.mark name fresh)) (calls ++ [.mark name fresh]) := by
  intro other entry
  rw [revise, SymbolTable.lookup?_setFresh, stands_mark, Option.map_eq_some_iff]
  constructor
  · intro hMarked
    rcases hMarked with ⟨old, hOld, rfl⟩
    rcases (hFinds other old).mp hOld with ⟨rfl, hStands⟩
    constructor
    · split <;> rfl
    · refine ⟨old, hStands, ?_⟩
      split <;> rfl
  · intro hMarked
    rcases hMarked with ⟨rfl, old, hStands, rfl⟩
    refine ⟨old, (hFinds _ old).mpr ⟨rfl, hStands⟩, ?_⟩
    split <;> rfl

end Finds

private theorem finds_table (calls : List SymbolCall) : Finds (table calls) calls := by
  induction calls using List.reverseRecOn with
  | nil =>
      intro name entry
      constructor
      · intro hFound
        cases hFound
      · intro hStands
        exact absurd hStands.2 not_stands_nil
  | append_singleton calls call inductionHypothesis =>
      rw [table_concat]
      cases call with
      | declare name kind binding => exact inductionHypothesis.declare name kind binding
      | remove name => exact inductionHypothesis.remove name
      | mark name fresh => exact inductionHypothesis.mark name fresh

private theorem lookup?_table (calls : List SymbolCall) (name : String) (entry : SymbolEntry) :
    (table calls).lookup? name = some entry ↔ entry.name = name ∧ Stands calls entry :=
  finds_table calls name entry

private theorem lookup?_eq_none_iff : (table calls).lookup? name = none ↔ ¬Declared calls name :=
  (finds_table calls).eq_none_iff

private theorem binding?_table :
    (table calls).binding? name = some binding ↔
      ∃ entry, entry.name = name ∧ Stands calls entry ∧ entry.binding = binding := by
  rw [SymbolTable.binding?, Option.map_eq_some_iff]
  simp only [lookup?_table, and_assoc]

private theorem Exclusive.table (hExclusive : Exclusive calls) : (table calls).Exclusive := by
  intro first second binding hBinding hFirst hSecond
  rcases binding?_table.mp hFirst with ⟨one, rfl, hOne, rfl⟩
  rcases binding?_table.mp hSecond with ⟨other, rfl, hOther, hSame⟩
  exact hExclusive one other hOne hOther hSame.symm hBinding

private theorem mem_entries_of_stands (hStands : Stands calls entry) :
    entry ∈ (table calls).entries :=
  List.mem_map_of_mem (OrderedMap.mem_of_get? ((lookup?_table calls _ entry).mpr ⟨rfl, hStands⟩))

private theorem exclusive_of_entries
    (hEntries : ∀ first ∈ (table calls).entries, ∀ second ∈ (table calls).entries,
      first.binding = second.binding → first.binding ≠ .nothing → first.name = second.name) :
    Exclusive calls :=
  fun first second hFirst hSecond =>
    hEntries first (mem_entries_of_stands hFirst) second (mem_entries_of_stands hSecond)

private theorem indexed_revise {names : SymbolTable} (hIndexed : names.Indexed)
    (hBefore : names.Exclusive) (hAfter : (revise names call).Exclusive) :
    (revise names call).Indexed := by
  cases call with
  | declare name kind binding =>
      rw [revise, SymbolTable.declare_eq] at hAfter ⊢
      by_cases hEmpty : name = ""
      · rw [if_pos hEmpty]
        exact hIndexed
      · rw [if_neg hEmpty] at hAfter ⊢
        by_cases hTaken : (names.lookup? name).isSome = true
        · rw [if_pos hTaken]
          exact hIndexed
        · rw [if_neg hTaken] at hAfter ⊢
          exact hIndexed.enter (Option.not_isSome_iff_eq_none.mp hTaken) hAfter
  | remove name =>
      rw [revise, SymbolTable.remove?_eq]
      cases hEntry : names.lookup? name with
      | none => exact hIndexed
      | some entry =>
          have hBound : names.binding? name = some entry.binding := by
            rw [SymbolTable.binding?, hEntry]
            rfl
          exact hIndexed.leave hBound hBefore
  | mark name fresh => exact hIndexed.setFresh name fresh

private theorem indexed_table (hExclusive : ∀ earlier, earlier <+: calls → Exclusive earlier) :
    (table calls).Indexed := by
  induction calls using List.reverseRecOn with
  | nil =>
      constructor
      · intro name entry hEntry
        cases hEntry
      · intro handle name
        exact iff_of_false nofun nofun
      · intro ref name
        exact iff_of_false nofun nofun
  | append_singleton calls call inductionHypothesis =>
      have hLast := (hExclusive (calls ++ [call]) List.prefix_rfl).table
      rw [table_concat] at hLast ⊢
      refine indexed_revise (inductionHypothesis ?_)
        (hExclusive calls (List.prefix_append _ _)).table hLast
      intro earlier hEarlier
      exact hExclusive earlier (hEarlier.trans (List.prefix_append _ _))

private theorem size_keys {κ ν : Type} [Ord κ] (map : OrderedMap κ ν) :
    map.size = map.keys.length := by
  rw [OrderedMap.size, OrderedMap.keys, List.length_map]

private theorem mem_keys_table :
    name ∈ (table calls).byName.keys ↔ Declared calls name := by
  rw [OrderedMap.keys, List.mem_map, declared_iff_stands]
  constructor
  · intro hMem
    rcases hMem with ⟨⟨key, entry⟩, hMem, rfl⟩
    have hEntry := OrderedMap.mem_entries_iff.mp hMem
    rcases (lookup?_table calls key entry).mp hEntry with ⟨hName, hStands⟩
    exact ⟨entry, hStands, hName⟩
  · intro hStands
    rcases hStands with ⟨entry, hStands, hName⟩
    have hEntry := (lookup?_table calls name entry).mpr ⟨hName, hStands⟩
    exact ⟨(name, entry), OrderedMap.mem_entries_iff.mpr hEntry, rfl⟩

private theorem keys_ascend (map : OrderedMap String SymbolEntry) :
    map.keys.Pairwise (· < ·) := by
  rw [OrderedMap.keys, List.pairwise_map]
  exact map.ascending.imp fun hOrder => compareOfLessAndEq_eq_lt.mp hOrder

/-- A name is fresh if it is declared, and was marked as up to date whenever it had been marked as
out of date since. -/
theorem isFresh_table :
    (table calls).isFresh name = true ↔
      ∃ kind binding since, Declares calls name kind binding since ∧ Fresh since name := by
  have hFresh : (table calls).isFresh name = true ↔
      ∃ entry, (table calls).lookup? name = some entry ∧ entry.fresh = true := by
    unfold SymbolTable.isFresh
    cases (table calls).lookup? name <;> simp
  rw [hFresh]
  simp only [lookup?_table]
  constructor
  · intro hFound
    rcases hFound with ⟨entry, ⟨rfl, since, hDeclares, hMarks⟩, hTrue⟩
    exact ⟨_, _, since, hDeclares, hMarks.mp hTrue⟩
  · intro hFound
    rcases hFound with ⟨kind, binding, since, hDeclares, hMarks⟩
    exact ⟨⟨name, kind, binding, true⟩, ⟨rfl, since, hDeclares, iff_of_true rfl hMarks⟩, rfl⟩

private theorem declare_table {store : Store} (hNames : store.symbols = table calls) (name : String)
    (kind : SymbolKind) (binding : Binding) :
    (name = "" → (StoreAction.declare name kind binding).Refuses store .emptyName) ∧
      (Declared calls name →
        (StoreAction.declare name kind binding).Refuses store (.duplicateName name)) ∧
      (name ≠ "" → ¬Declared calls name →
        ∃ after, (StoreAction.declare name kind binding).Gives store () after) := by
  have hDeclare := SymbolTable.declare_eq store.symbols name kind binding
  refine ⟨?_, ?_, ?_⟩
  · intro hEmpty
    rw [if_pos hEmpty] at hDeclare
    exact StoreAction.declare_refuses hDeclare
  · intro hDeclared
    have hTaken : (store.symbols.lookup? name).isSome = true := by
      rw [← Option.ne_none_iff_isSome, hNames, ne_eq, lookup?_eq_none_iff, not_not]
      exact hDeclared
    rw [if_neg hDeclared.1, if_pos hTaken] at hDeclare
    exact StoreAction.declare_refuses hDeclare
  · intro hLegal hNew
    have hFree : store.symbols.lookup? name = none := by
      rw [hNames, lookup?_eq_none_iff]
      exact hNew
    rw [if_neg hLegal, hFree] at hDeclare
    exact ⟨_, StoreAction.declare_gives hDeclare⟩

end SymbolCall

open SymbolCall (Declared Declares Exclusive Fresh Stands)

/-- The names of a store agree with each other after any calls that declare, remove and mark names,
as long as no value and no array has two names at once.  A name finds the entry that stands under
it.  A handle finds the name bound to it, or if there is none, the name of the array that it is a
living element of, in both cases with the entry that stands under that name.  The names are listed
once each in ascending order, and counted.  A declaration under an empty name or under one that is
declared is refused, and nothing changes; any other succeeds.  A name is fresh as long as it is
declared and every mark that its cell is out of date was taken back. -/
theorem symbol_indexes_agree {start store : Store} {calls : List SymbolCall}
    (hStart : start.symbols = ⟨.empty, [], []⟩)
    (hExclusive : ∀ earlier, earlier <+: calls → Exclusive earlier)
    (hCalls : calls.foldl SymbolCall.perform start = store) :
    (∀ name entry, store.symbols.lookup? name = some entry ↔
      entry.name = name ∧ Stands calls entry) ∧
    (∀ arena handle entry, store.symbols.lookupValue? arena handle = some entry ↔
      Stands calls entry ∧
        (entry.binding = .value handle ∨
          (∀ other, Stands calls other → other.binding ≠ .value handle) ∧
            ∃ ref, arena.IsElement handle ref ∧ entry.binding = .array ref)) ∧
    store.symbols.byName.keys.Pairwise (· < ·) ∧
    (∀ name, name ∈ store.symbols.byName.keys ↔ Declared calls name) ∧
    store.symbols.byName.size = store.symbols.byName.keys.length ∧
    (∀ name kind binding,
      (name = "" → (StoreAction.declare name kind binding).Refuses store .emptyName) ∧
      (Declared calls name →
        (StoreAction.declare name kind binding).Refuses store (.duplicateName name)) ∧
      (name ≠ "" → ¬Declared calls name →
        ∃ after, (StoreAction.declare name kind binding).Gives store () after)) ∧
    ∀ name, store.symbols.isFresh name = true ↔
      ∃ kind binding since, Declares calls name kind binding since ∧ Fresh since name := by
  have hIndexed := SymbolCall.indexed_table hExclusive
  have hNames : store.symbols = SymbolCall.table calls := by
    rw [← hCalls, SymbolCall.symbols_foldl, hStart]
    rfl
  refine ⟨?_, ?_, ?_, ?_, SymbolCall.size_keys _, SymbolCall.declare_table hNames, ?_⟩
  · rw [hNames]
    exact SymbolCall.lookup?_table calls
  · intro arena handle entry
    have hEntry : (SymbolCall.table calls).lookup? entry.name = some entry ↔ Stands calls entry :=
      (SymbolCall.lookup?_table calls entry.name entry).trans (and_iff_right rfl)
    have hNone : (∀ name, (SymbolCall.table calls).binding? name ≠ some (.value handle)) ↔
        ∀ other, Stands calls other → other.binding ≠ .value handle := by
      constructor
      · intro hFree other hOther hBinding
        exact hFree other.name (SymbolCall.binding?_table.mpr ⟨other, rfl, hOther, hBinding⟩)
      · intro hFree name hName
        rcases SymbolCall.binding?_table.mp hName with ⟨other, -, hOther, hBinding⟩
        exact hFree other hOther hBinding
    rw [hNames, hIndexed.lookupValue?_eq_some_iff, hEntry, hNone]
  · rw [hNames]
    exact SymbolCall.keys_ascend _
  · intro name
    rw [hNames]
    exact SymbolCall.mem_keys_table
  · intro name
    rw [hNames]
    exact SymbolCall.isFresh_table

/-- A value is declared beside an array and comes to be out of date in memory.  Its name is refused
for an element of the array and removed, and the value is declared under another name. -/
def SymbolCall.renaming : List SymbolCall :=
  [.declare "tab" .array (.array 0), .declare "n" .scalar (.value ⟨0, 1⟩), .mark "n" false,
    .declare "n" .iterator (.value ⟨1, 1⟩), .remove "n", .declare "m" .scalar (.value ⟨0, 1⟩),
    .mark "m" false, .mark "m" true]

def Arena.addressed : Arena :=
  let scalar := (empty.create (.plain (.unknown "n"))).2
  ((scalar.createArray "tab" 4).2.dynamicElement 0 "n").2

/-- A value that was renamed has its new name alone, and an element has the name of its array. -/
theorem renamed_value_indexes_agree :
    (∀ earlier, earlier <+: SymbolCall.renaming → Exclusive earlier) ∧
    ∃ store, SymbolCall.renaming.foldl SymbolCall.perform (.empty .standard 5) = store ∧
      store.symbols.lookupValue? .addressed ⟨0, 1⟩ =
        some ⟨"m", .scalar, .value ⟨0, 1⟩, true⟩ ∧
      store.symbols.lookupValue? .addressed ⟨1, 1⟩ = some ⟨"tab", .array, .array 0, true⟩ ∧
      Stands SymbolCall.renaming ⟨"m", .scalar, .value ⟨0, 1⟩, true⟩ ∧
      Stands SymbolCall.renaming ⟨"tab", .array, .array 0, true⟩ ∧
      ¬Declared SymbolCall.renaming "n" ∧
      (StoreAction.declare "m" .iterator (.value ⟨1, 1⟩)).Refuses store (.duplicateName "m") := by
  have hExclusive : ∀ earlier, earlier <+: SymbolCall.renaming → Exclusive earlier := by
    intro earlier hEarlier
    have hChecked : ∀ part ∈ SymbolCall.renaming.inits,
        ∀ first ∈ (SymbolCall.table part).entries, ∀ second ∈ (SymbolCall.table part).entries,
          first.binding = second.binding → first.binding ≠ .nothing →
            first.name = second.name := by
      decide +kernel
    exact SymbolCall.exclusive_of_entries
      (hChecked earlier ((List.mem_inits _ _).mpr hEarlier))
  have hStart : (Store.empty .standard 5).symbols = ⟨.empty, [], []⟩ := rfl
  rcases symbol_indexes_agree hStart hExclusive rfl with
    ⟨hNames, hHandles, -, hDeclared, -, hRefused, -⟩
  have hValue := ((hNames "m" ⟨"m", .scalar, .value ⟨0, 1⟩, true⟩).mp (by decide +kernel)).2
  have hArray := ((hNames "tab" ⟨"tab", .array, .array 0, true⟩).mp (by decide +kernel)).2
  have hUnbound : ∀ other ∈ (SymbolCall.table SymbolCall.renaming).entries,
      other.binding ≠ .value ⟨1, 1⟩ := by
    decide +kernel
  refine ⟨hExclusive, _, rfl, ?_, ?_, hValue, hArray, ?_, ?_⟩
  · exact (hHandles .addressed ⟨0, 1⟩ _).mpr ⟨hValue, .inl rfl⟩
  · exact (hHandles .addressed ⟨1, 1⟩ _).mpr
      ⟨hArray, .inr ⟨fun other hOther => hUnbound other (SymbolCall.mem_entries_of_stands hOther),
        0, ⟨_, _, rfl, rfl, rfl⟩, rfl⟩⟩
  · intro hOld
    exact absurd ((hDeclared "n").mpr hOld) (by decide +kernel)
  · exact (hRefused "m" .iterator (.value ⟨1, 1⟩)).2.1
      (SymbolCall.declared_iff_stands.mpr ⟨_, hValue, rfl⟩)

end RegisterCompiler
