/-
Where names are looked up.

A command looks up the cell it writes and then its operands, before it adds any code; the test
of a WHILE loop is looked up inside the loop.  Looking names up adds no code and changes no
value, so all look-ups of a command are made at one line, and what a machine shows when it comes
to that line is shown at each of them.
-/

import RegisterCompiler.Proofs.Generator.Entrances
import RegisterCompiler.Proofs.Generator.Visits

set_option autoImplicit false

namespace RegisterCompiler

open Generating (Ensures)

inductive Lookup where
  | target (cell : Reference)
  | source (atom : Atom)

namespace Lookup

def find : Lookup → Generating Operand
  | target cell => Generating.resolveTarget cell
  | source atom => Generating.resolve atom

end Lookup

def Expression.lookups : Expression → List Lookup
  | .atom _ value => [.source value]
  | .operation _ left _ right => [.source left, .source right]

namespace Command

/-- What a command looks up in front of its code, in this order. -/
def lookups : Command → List Lookup
  | .assign _ target value => .target target :: value.lookups
  | .read _ target => [.target target]
  | .write _ value => [.source value]
  | .skip _ => []
  | .ifThen _ condition _ | .ifElse _ condition _ _ | .whileLoop _ condition _ =>
      [.source condition.left, .source condition.right]
  | .forLoop _ _ first last _ _ => [.source first, .source last]

/-- What comes before the look-ups: a WHILE loop is entered. -/
def approach : Command → Generating Unit
  | .whileLoop .. => do
      Generating.clearCache
      Generating.forgetPointer
      Generating.descend
  | _ => return

end Command

namespace Generating

/-- From a context on, operands are found one after the other; the next one is looked up in
another context. -/
inductive Finding : List Lookup → Context → Context → Prop
  | here {lookup : Lookup} {rest : List Lookup} {context : Context} :
      Finding (lookup :: rest) context context
  | later {lookup : Lookup} {rest : List Lookup} {operand : Operand}
      {context found point : Context} (hFind : lookup.find.run.run context = (.ok operand, found))
      (hRest : Finding rest found point) : Finding (lookup :: rest) context point

/-- The contexts in which a command that is compiled from a context on looks names up. -/
def LooksUp (command : Command) (start point : Context) : Prop :=
  ∃ near, command.approach.run.run start = (.ok (), near) ∧ Finding command.lookups near point

/-! ### Looking up adds no code -/

class Silent {α : Type} (action : Generating α) : Prop where
  still : ∀ context : Context, (action.run.run context).2.listing = context.listing ∧
    (action.run.run context).2.depth = context.depth

namespace Silent

variable {α β : Type}

instance pure (value : α) : Silent (pure value : Generating α) :=
  ⟨fun _ => ⟨rfl, rfl⟩⟩

instance get : Silent (MonadState.get : Generating Context) :=
  ⟨fun _ => ⟨rfl, rfl⟩⟩

instance bind (action : Generating β) (next : β → Generating α) [hAction : Silent action]
    [hNext : ∀ value, Silent (next value)] : Silent (action >>= next) where
  still := by
    intro context
    have hFirst := hAction.still context
    simp only [ExceptT.run_bind, StateT.run_bind]
    cases hRun : action.run.run context with
    | mk result middle =>
        rw [hRun] at hFirst
        cases result with
        | ok value =>
            obtain ⟨hListing, hDepth⟩ := (hNext value).still middle
            exact ⟨hListing.trans hFirst.1, hDepth.trans hFirst.2⟩
        | error fault => exact hFirst

theorem andThen {action : Generating β} {next : β → Generating α} [Silent action]
    (hNext : ∀ value, Silent (next value)) : Silent (action >>= next) :=
  inferInstance

instance ite {condition : Prop} [Decidable condition] (first second : Generating α)
    [hFirst : Silent first] [hSecond : Silent second] :
    Silent (if condition then first else second) := by
  split
  · exact hFirst
  · exact hSecond

instance refuse (position : Source.Position) (misuse : Misuse) :
    Silent (Generating.refuse position misuse : Generating α) :=
  ⟨fun _ => ⟨rfl, rfl⟩⟩

instance onStore (action : StoreAction α) : Silent (onStore action) where
  still := by
    intro context
    rw [Ensures.run_onStore]
    exact ⟨rfl, rfl⟩

end Silent

instance (priority := low) silent_of_holds {α : Type} (action : Generating α)
    [hHolds : Holds @Silent action] : Silent action :=
  hHolds.holds

instance silent_chains : Chains @Silent where
  pure _ := ⟨inferInstance⟩
  get := ⟨inferInstance⟩
  bind _ _ := ⟨inferInstance⟩

instance onStore_silent {α : Type} (action : StoreAction α) : Holds @Silent (onStore action) :=
  ⟨inferInstance⟩

instance resolveElement_silent (position : Source.Position) (ref : ArrayRef) (offset : Nat) :
    Silent (resolveElement position ref offset) := by
  unfold resolveElement
  infer_instance

instance silent_finds : Finds @Silent where
  refuse _ _ := ⟨inferInstance⟩
  resolveElement _ _ _ := ⟨inferInstance⟩
  enter _ := ⟨⟨fun _ => ⟨rfl, rfl⟩⟩⟩

instance find_silent (lookup : Lookup) : Silent lookup.find := by
  cases lookup with
  | target cell => exact (resolveTarget_holds cell).holds
  | source atom => exact (resolve_holds atom).holds

private theorem Finding.still {lookups : List Lookup} {context point : Context}
    (hFinding : Finding lookups context point) :
    point.listing = context.listing ∧ point.depth = context.depth := by
  induction hFinding with
  | here => exact ⟨rfl, rfl⟩
  | @later lookup _ _ context _ _ hFind _ inductionHypothesis =>
      obtain ⟨hListing, hDepth⟩ := (find_silent lookup).still context
      rw [hFind] at hListing hDepth
      exact ⟨inductionHypothesis.1.trans hListing, inductionHypothesis.2.trans hDepth⟩

end Generating

/-! ### Looking up changes no value -/

namespace Context

open Generating (Finding LooksUp)

variable {context start point : Context} {bases : Bases} {command : Command}

private theorem find_ensures (hSound : context.Sound) (hBases : context.setting.HasBases bases)
    (lookup : Lookup) :
    Ensures lookup.find context fun _ after => Turns context after Eq := by
  cases lookup with
  | target cell =>
      exact (resolveTarget_ensures hSound hBases cell).mono fun _ _ hFound => hFound.1.toTurns
  | source atom =>
      exact (resolve_ensures hSound hBases atom).mono fun _ _ hFound => hFound.1.toTurns

private theorem turns_of_finding {lookups : List Lookup} (hFinding : Finding lookups context point)
    (hSound : context.Sound) (hBases : context.setting.HasBases bases) :
    Turns context point Eq := by
  induction hFinding with
  | here => exact .refl hSound
  | later hFind _ inductionHypothesis =>
      have hFound := (find_ensures hSound hBases _).of_run hFind
      apply hFound.before_still
      exact inductionHypothesis hFound.sound (by rw [hFound.setting]; exact hBases)

theorem turns_of_looksUp (hPrepared : start.Prepared bases) (hLooksUp : LooksUp command start point)
    (hOutside : point.depth = 0) :
    start.depth = 0 ∧ point.listing = start.listing ∧ Turns start point Eq := by
  obtain ⟨near, hApproach, hFinding⟩ := hLooksUp
  obtain ⟨hListing, hDepth⟩ := hFinding.still
  cases command with
  | whileLoop span condition body =>
      -- its names are looked up inside the loop
      obtain ⟨_, cleared, -, hApproach⟩ := Generating.exists_of_run_bind hApproach
      obtain ⟨_, forgotten, -, hDescend⟩ := Generating.exists_of_run_bind hApproach
      cases hDescend
      rw [hDepth] at hOutside
      contradiction
  | _ =>
      cases hApproach
      exact ⟨hDepth.symm.trans hOutside, hListing,
        turns_of_finding hFinding hPrepared.toSound hPrepared.bases⟩

end Context

end RegisterCompiler
