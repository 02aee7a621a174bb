/-
Which programs are refused.

Code generation looks names up in the symbols, which hold exactly the names in scope, each
in its role.  So it gets through a command only if the command is legal, and complains about
a legal command only when the index of an array is a scalar whose value is known there and
is not below the length of the array.
-/

import RegisterCompiler.Proofs.Generator.Entrances

set_option autoImplicit false

namespace RegisterCompiler

open Generating (Routine)
open Source (Position)

namespace Generating

/-! ### Judging steps -/

/-- A step that gets through only where something is legal, and complains where it is legal
only with an excuse. -/
structure Judges {α : Type} (action : Generating α) (context : Context) (legal : Prop)
    (excuse : Complaint → Prop) : Prop where
  accepts : ∀ value after, action.run.run context = (.ok value, after) → legal
  refuses : ∀ complaint after, action.run.run context = (.error (.misuse complaint), after) →
    legal → excuse complaint

/-- Two steps complain when the first does, or when it succeeds and the second does. -/
theorem misuse_of_run_bind {α β : Type} {action : Generating α} {next : α → Generating β}
    {context after : Context} {complaint : Complaint}
    (hRun : (action >>= next).run.run context = (.error (.misuse complaint), after)) :
    action.run.run context = (.error (.misuse complaint), after) ∨
      ∃ value middle, action.run.run context = (.ok value, middle) ∧
        (next value).run.run middle = (.error (.misuse complaint), after) := by
  simp only [ExceptT.run_bind, StateT.run_bind] at hRun
  cases hFirst : action.run.run context with
  | mk outcome middle =>
      rw [hFirst] at hRun
      cases outcome with
      | ok value => exact .inr ⟨value, middle, rfl, hRun⟩
      | error fault =>
          cases hRun
          exact .inl rfl

theorem run_bind_of_run {α β : Type} {action : Generating α} {next : α → Generating β}
    {context middle : Context} {value : α} (hRun : action.run.run context = (.ok value, middle)) :
    (action >>= next).run.run context = (next value).run.run middle := by
  simp only [ExceptT.run_bind, StateT.run_bind, hRun]
  rfl

namespace Judges

variable {α β : Type} {action : Generating α} {next : α → Generating β} {context : Context}
  {legal first second : Prop} {excuse weaker : Complaint → Prop}

theorem of_run {value : α} {after : Context} (hRun : action.run.run context = (.ok value, after))
    (hLegal : legal) : Judges action context legal excuse where
  accepts := fun _ _ _ => hLegal
  refuses := fun _ _ hMisuse => by rw [hRun] at hMisuse; cases hMisuse

theorem of_misuse {complaint : Complaint} {after : Context}
    (hRun : action.run.run context = (.error (.misuse complaint), after))
    (hExcuse : legal → excuse complaint) : Judges action context legal excuse where
  accepts := fun _ _ hOk => by rw [hRun] at hOk; cases hOk
  refuses := fun _ _ hMisuse => by
    rw [hRun] at hMisuse
    cases hMisuse
    exact hExcuse

private theorem refuse {position : Position} {misuse : Misuse} (hIllegal : ¬legal) :
    Judges (Generating.refuse position misuse : Generating α) context legal excuse where
  accepts := fun _ _ hRun => by cases hRun
  refuses := fun _ _ _ hLegal => absurd hLegal hIllegal

theorem routine [hRoutine : Routine false action] (hLegal : legal) :
    Judges action context legal excuse where
  accepts := fun _ _ _ => hLegal
  refuses := by
    intro complaint after hRun
    have hFalse := hRoutine.faults context complaint (by rw [hRun])
    cases hFalse

theorem of_get {next : Context → Generating α} (hNext : Judges (next context) context legal excuse) :
    Judges (MonadState.get >>= next) context legal excuse where
  accepts := hNext.accepts
  refuses := hNext.refuses

theorem bind (hAction : Judges action context first excuse)
    (hNext : ∀ value middle, action.run.run context = (.ok value, middle) →
      Judges (next value) middle second excuse) :
    Judges (action >>= next) context (first ∧ second) excuse where
  accepts := by
    intro value after hRun
    obtain ⟨found, middle, hFirst, hSecond⟩ := exists_of_run_bind hRun
    exact ⟨hAction.accepts found middle hFirst, (hNext found middle hFirst).accepts _ _ hSecond⟩
  refuses := by
    intro complaint after hRun hLegal
    cases misuse_of_run_bind hRun with
    | inl hFirst => exact hAction.refuses complaint after hFirst hLegal.1
    | inr hLater =>
        obtain ⟨value, middle, hFirst, hSecond⟩ := hLater
        exact (hNext value middle hFirst).refuses complaint after hSecond hLegal.2

theorem congr (hAction : Judges action context first excuse) (hSame : first ↔ second) :
    Judges action context second excuse where
  accepts := fun value after hRun => hSame.mp (hAction.accepts value after hRun)
  refuses := fun complaint after hRun hLegal =>
    hAction.refuses complaint after hRun (hSame.mpr hLegal)

theorem mono (hAction : Judges action context legal excuse)
    (hWeaker : ∀ complaint, excuse complaint → weaker complaint) :
    Judges action context legal weaker where
  accepts := hAction.accepts
  refuses := fun complaint after hRun hLegal =>
    hWeaker complaint (hAction.refuses complaint after hRun hLegal)

theorem before_routine (hAction : Judges action context legal excuse)
    (hNext : ∀ value, Routine false (next value)) : Judges (action >>= next) context legal excuse :=
  (hAction.bind fun value _ _ => have := hNext value; routine trivial).congr (iff_of_eq (and_true legal))

theorem after_routine [Routine false action]
    (hNext : ∀ value middle, action.run.run context = (.ok value, middle) →
      Judges (next value) middle legal excuse) : Judges (action >>= next) context legal excuse :=
  ((routine trivial).bind hNext).congr (iff_of_eq (true_and legal))

end Judges

end Generating

/-! ### What is known -/

namespace Context

variable {start context : Context} {names : Names}

/-- What is known about a name: where values are propagated, and outside all constructs, the
value of a scalar. -/
def knows? (context : Context) (name : String) : Option Nat :=
  if context.options.propagate = true ∧ context.depth = 0 then
    match context.setting.declared name with
    | some (.scalar, .value handle) => (context.setting.known handle).map Int.toNat
    | _ => none
  else none

theorem known?_run (entry : SymbolEntry) {name : String} {handle : Handle}
    (hDeclared : context.setting.declared name = some (entry.kind, .value handle))
    (hNamed : (context.setting.nameOf handle).isSome = true) :
    (Generating.known? entry handle).run.run context = (.ok (context.knows? name), context) := by
  have hFound : (context.store.symbols.byValue.lookup handle).isSome = true := hNamed
  have hKnown : context.setting.known handle =
      (context.store.arena.get? handle).bind Value.known? := by
    simp only [setting, Store.setting, hFound, if_true]
  have hGet : ∀ next : Context → Generating (Option Nat),
      (MonadState.get >>= next).run.run context = (next context).run.run context := fun _ => rfl
  unfold Generating.known? knows?
  rw [hGet, hDeclared]
  by_cases hAllowed : context.options.propagate = true ∧ context.depth = 0
  · rw [if_pos hAllowed, hAllowed.1, hAllowed.2]
    cases entry.kind with
    | scalar =>
        simp only [hKnown]
        cases context.store.arena.get? handle with
        | none => rfl
        | some value =>
            simp only [Option.bind_some, Value.known?]
            cases value.isSymbolic with
            | true => rfl
            | false => rfl
    | _ => rfl
  · have hNot : ¬(context.options.propagate && context.depth == 0 && entry.kind == .scalar) =
        true := by
      simp only [Bool.and_eq_true, beq_iff_eq]
      exact fun hAll => hAllowed hAll.1
    rw [if_neg hAllowed, if_neg hNot]
    rfl

theorem knows?_congr (hSetting : context.setting = start.setting)
    (hOptions : context.options = start.options) (hDepth : context.depth = start.depth)
    (name : String) : context.knows? name = start.knows? name := by
  unfold knows?
  rw [hSetting, hOptions, hDepth]

private theorem scalarCell_run (hSound : context.Sound) (position : Position) (label : String)
    {name : String} {kind : SymbolKind} {handle : Handle}
    (hDeclared : context.setting.declared name = some (kind, .value handle)) : ∃ cell,
      (Generating.scalarCell position label handle).run.run context = (.ok cell, context) := by
  obtain ⟨-, value, address, hValue, -, hChunk, -⟩ :=
    hSound.store.cells name kind handle hDeclared
  have hRun : (Generating.onStore (StoreAction.value handle)).run.run context =
      (.ok value, context) := by
    rw [Generating.Ensures.run_onStore, StoreAction.value_gives hValue]
    rfl
  refine ⟨⟨label, handle, address.toNat⟩, ?_⟩
  rw [Generating.scalarCell, Generating.run_bind_of_run hRun, hChunk]
  rfl

/-- Reading a scalar yields what is known about it, or else its cell. -/
theorem viewScalar_run (hSound : context.Sound) (position : Position) {name : String}
    {entry : SymbolEntry} {handle : Handle}
    (hEntry : context.store.symbols.lookup? name = some entry)
    (hBinding : entry.binding = .value handle) : ∃ cell,
      (Generating.viewScalar position entry handle).run.run context =
        (.ok (((context.knows? name).map ScalarView.known).getD (.cell cell)), context) := by
  have hDeclared := declared_of_lookup? hEntry
  rw [hBinding] at hDeclared
  have hName := (hSound.store.cells name entry.kind handle hDeclared).1
  obtain ⟨cell, hCell⟩ := scalarCell_run hSound position entry.name hDeclared
  refine ⟨cell, ?_⟩
  rw [Generating.viewScalar, Generating.run_bind_of_run
    (known?_run entry hDeclared (Option.isSome_of_eq_some hName))]
  cases context.knows? name with
  | some number => rfl
  | none => exact Generating.run_bind_of_run hCell

theorem declared_run {name : String} {entry : SymbolEntry} (position : Position)
    (hEntry : context.store.symbols.lookup? name = some entry) :
    (Generating.declared position name).run.run context = (.ok entry, context) := by
  have hGet : ∀ next : Context → Generating SymbolEntry,
      (MonadState.get >>= next).run.run context = (next context).run.run context := fun _ => rfl
  rw [Generating.declared, hGet, hEntry]
  rfl

theorem exists_lookup?_of_declared {name : String} {kind : SymbolKind} {binding : Binding}
    (hDeclared : context.setting.declared name = some (kind, binding)) : ∃ entry,
      context.store.symbols.lookup? name = some entry ∧ entry.kind = kind ∧
        entry.binding = binding := by
  obtain ⟨entry, hEntry, hSame⟩ := Option.map_eq_some_iff.mp hDeclared
  cases hSame
  exact ⟨entry, hEntry, rfl, rfl⟩

/-- The name of an index yields what is known about it, or else its cell. -/
theorem viewIndex_run (hSound : context.Sound) (position : Position) {name : String}
    {kind : SymbolKind} {handle : Handle}
    (hDeclared : context.setting.declared name = some (kind, .value handle)) : ∃ cell,
      (Generating.viewIndex position name).run.run context =
        (.ok (((context.knows? name).map ScalarView.known).getD (.cell cell)), context) := by
  obtain ⟨entry, hEntry, -, hBinding⟩ := exists_lookup?_of_declared hDeclared
  obtain ⟨cell, hView⟩ := viewScalar_run hSound position hEntry hBinding
  refine ⟨cell, ?_⟩
  rw [Generating.viewIndex, Generating.run_bind_of_run (declared_run position hEntry), hBinding]
  exact hView

theorem viewIndex_run_eq_known_iff (hSound : context.Sound) (position : Position) {name : String}
    {kind : SymbolKind} {handle : Handle}
    (hDeclared : context.setting.declared name = some (kind, .value handle)) {number : Nat} :
    (Generating.viewIndex position name).run.run context = (.ok (.known number), context) ↔
      context.knows? name = some number := by
  obtain ⟨cell, hRun⟩ := viewIndex_run hSound position hDeclared
  rw [hRun]
  cases context.knows? name with
  | none =>
      constructor
      · intro hSame
        cases hSame
      · intro hSame
        cases hSame
  | some found =>
      constructor
      · intro hSame
        cases hSame
        rfl
      · intro hSame
        cases hSame
        rfl

end Context

/-! ### References -/

/-- A complaint about an element whose index is a scalar that is known to be beyond the array. -/
inductive Reference.Overruns (cell : Reference) (names : Names) (context : Context) :
    Complaint → Prop
  | beyond {span : Source.Span} {other label : String} {offset length : Nat}
      (hIndex : cell.index = some (.name span other))
      (hScalar : names.role? other = some .scalar)
      (hKnown : (Generating.viewIndex span.first other).run.run context =
        (.ok (.known offset), context))
      (hArray : names.role? cell.name = some (.array length))
      (hBeyond : length ≤ offset) :
      Overruns cell names context ⟨cell.span.first, .indexOutOfRange offset label length⟩

def Atom.references : Atom → List Reference
  | .number _ _ => []
  | .reference cell => [cell]

def Expression.references : Expression → List Reference
  | .atom _ value => value.references
  | .operation _ left _ right => left.references ++ right.references

/-- The references of a command, without those of the commands inside it. -/
def Command.references : Command → List Reference
  | .assign _ target value => target :: value.references
  | .read _ target => [target]
  | .write _ value => value.references
  | .skip _ => []
  | .ifThen _ condition _ | .ifElse _ condition _ _ | .whileLoop _ condition _ =>
      condition.left.references ++ condition.right.references
  | .forLoop _ _ first last _ _ => first.references ++ last.references

namespace Context

/-- References are looked up in a context where nothing but elements of arrays was looked up
since the start. -/
structure Resolving (start context : Context) (names : Names) : Prop where
  origin : start.Sound
  sound : context.Sound
  scopes : start.setting.Scopes names
  setting : context.setting = start.setting
  options : context.options = start.options
  depth : context.depth = start.depth

namespace Resolving

variable {start context after : Context} {names : Names} (hResolving : Resolving start context names)

include hResolving

private theorem knows? (name : String) : context.knows? name = start.knows? name :=
  knows?_congr hResolving.setting hResolving.options hResolving.depth name

private theorem scopesHere : context.setting.Scopes names := by
  rw [hResolving.setting]
  exact hResolving.scopes

private theorem exists_declared {name : String} (hPlain : names.IsPlain name) :
    ∃ kind handle, context.setting.declared name = some (kind, .value handle) := by
  have hCasts := hResolving.scopesHere name
  cases hPlain with
  | inl hScalar =>
      rw [hScalar] at hCasts
      obtain ⟨handle, hDeclared⟩ := hCasts
      exact ⟨_, handle, hDeclared⟩
  | inr hIterator =>
      rw [hIterator] at hCasts
      obtain ⟨handle, hDeclared⟩ := hCasts
      exact ⟨_, handle, hDeclared⟩

private theorem known_start {name : String} {number : Nat}
    (hKnown : context.knows? name = some number) :
    names.role? name = some .scalar ∧ ∀ position : Position,
      (Generating.viewIndex position name).run.run start = (.ok (.known number), start) := by
  rw [hResolving.knows?] at hKnown
  have hCasts := hResolving.scopes name
  have hDeclared : ∃ handle, start.setting.declared name = some (.scalar, .value handle) := by
    unfold Context.knows? at hKnown
    split at hKnown
    · split at hKnown
      · rename_i handle hDeclared
        exact ⟨handle, hDeclared⟩
      · cases hKnown
    · cases hKnown
  obtain ⟨handle, hDeclared⟩ := hDeclared
  constructor
  · unfold Setting.Casts at hCasts
    rw [hDeclared] at hCasts
    split at hCasts
    · cases hCasts
    · assumption
    · obtain ⟨_, _, hOther, -⟩ := hCasts
      cases hOther
    · obtain ⟨_, hOther⟩ := hCasts
      cases hOther
  · intro position
    exact (viewIndex_run_eq_known_iff hResolving.origin position hDeclared).mpr hKnown

private theorem of_works (hWorks : Works context after) : Resolving start after names where
  origin := hResolving.origin
  sound := hWorks.sound
  scopes := hResolving.scopes
  setting := hWorks.setting.trans hResolving.setting
  options := hWorks.quiet.options.trans hResolving.options
  depth := hWorks.quiet.depth.trans hResolving.depth

end Resolving

end Context

namespace Generating

variable {start context : Context} {names : Names}

open Context (Resolving)

theorem declared_refuses {name : String} (position : Position)
    (hNone : context.setting.declared name = none) :
    (declared position name).run.run context =
      (.error (.misuse ⟨position, .undeclared name⟩), context) := by
  have hGet : ∀ next : Context → Generating SymbolEntry,
      (MonadState.get >>= next).run.run context = (next context).run.run context := fun _ => rfl
  rw [declared, hGet, Option.map_eq_none_iff.mp hNone]
  rfl

/-- A name without a role is refused wherever it is looked up first. -/
theorem Judges.of_undeclared {α : Type} {position : Position} {name : String}
    {next : SymbolEntry → Generating α} {legal : Prop} {excuse : Complaint → Prop}
    (hNone : context.setting.declared name = none) (hIllegal : ¬legal) :
    Judges (declared position name >>= next) context legal excuse where
  accepts := by
    intro value after hRun
    obtain ⟨entry, middle, hFirst, -⟩ := exists_of_run_bind hRun
    rw [declared_refuses position hNone] at hFirst
    cases hFirst
  refuses := fun _ _ _ hLegal => absurd hLegal hIllegal

/-- A declared name is looked up. -/
theorem Judges.of_declared {α : Type} {position : Position} {name : String} {entry : SymbolEntry}
    {next : SymbolEntry → Generating α} {legal : Prop} {excuse : Complaint → Prop}
    (hEntry : context.store.symbols.lookup? name = some entry)
    (hNext : Judges (next entry) context legal excuse) :
    Judges (declared position name >>= next) context legal excuse where
  accepts := by
    rw [run_bind_of_run (Context.declared_run position hEntry)]
    exact hNext.accepts
  refuses := by
    rw [run_bind_of_run (Context.declared_run position hEntry)]
    exact hNext.refuses

private theorem viewIndex_judges (hResolving : Resolving start context names) (position : Position)
    (name : String) {excuse : Complaint → Prop} :
    Judges (viewIndex position name) context (names.IsPlain name) excuse := by
  have hCasts := hResolving.scopesHere name
  unfold Names.IsPlain
  cases hRole : names.role? name with
  | none =>
      rw [hRole] at hCasts
      exact .of_undeclared hCasts (by simp)
  | some role =>
      rw [hRole] at hCasts
      cases role with
      | scalar =>
          obtain ⟨handle, hDeclared⟩ := hCasts
          obtain ⟨cell, hRun⟩ := Context.viewIndex_run hResolving.sound position hDeclared
          exact .of_run hRun (.inl rfl)
      | iterator =>
          obtain ⟨handle, hDeclared⟩ := hCasts
          obtain ⟨cell, hRun⟩ := Context.viewIndex_run hResolving.sound position hDeclared
          exact .of_run hRun (.inr rfl)
      | array length =>
          obtain ⟨ref, base, hDeclared, -⟩ := hCasts
          obtain ⟨entry, hEntry, -, hBinding⟩ := Context.exists_lookup?_of_declared hDeclared
          apply Judges.of_declared hEntry
          rw [hBinding]
          exact .refuse (by simp)

/-- An element outside the array is refused. -/
theorem resolveElement_run_of_le (position : Position) {ref : ArrayRef} {base : Option Nat}
    {offset length : Nat} (hArray : context.setting.array ref = (base, (length : Int)))
    (hBeyond : length ≤ offset) : ∃ label, (resolveElement position ref offset).run.run context =
      (.error (.misuse ⟨position, .indexOutOfRange offset label length⟩), context) := by
  have hLength : (context.store.arena.array ref).length = length := congrArg Prod.snd hArray
  have hOutside : ¬(context.store.arena.array ref).inRange offset = true := by
    simp only [ArrayInfo.inRange, hLength, Bool.and_eq_true, decide_eq_true_eq]
    omega
  have hGet : ∀ next : Context → Generating Operand,
      (MonadState.get >>= next).run.run context = (next context).run.run context := fun _ => rfl
  refine ⟨(context.store.arena.array ref).name, ?_⟩
  rw [resolveElement, hGet]
  simp only
  rw [if_neg hOutside, hLength]
  rfl

private theorem resolveElement_judges_of_lt (position : Position) {ref : ArrayRef}
    {base : Option Nat} {offset length : Nat}
    (hArray : context.setting.array ref = (base, (length : Int))) (hInside : offset < length)
    {legal : Prop} {excuse : Complaint → Prop} (hLegal : legal) :
    Judges (resolveElement position ref offset) context legal excuse := by
  have hLength : (context.store.arena.array ref).length = length := congrArg Prod.snd hArray
  have hRange : (context.store.arena.array ref).inRange offset = true := by
    simp only [ArrayInfo.inRange, hLength, Bool.and_eq_true, decide_eq_true_eq]
    omega
  constructor
  · exact fun _ _ _ => hLegal
  · intro complaint after hRun
    rw [resolveElement] at hRun
    cases misuse_of_run_bind hRun with
    | inl hGet => cases hGet
    | inr hLater =>
        obtain ⟨_, _, hGet, hLater⟩ := hLater
        cases hGet
        rw [if_pos hRange] at hLater
        have hQuiet : Routine false (do
            let _ ← onStore (StoreAction.element ref offset)
            return .element ((context.store.arena.array ref).base.getD 0 + offset) :
              Generating Operand) := inferInstance
        have hFalse := hQuiet.faults context complaint (by rw [hLater])
        cases hFalse

private theorem resolveArray_judges (hResolving : Resolving start context names) {cell : Reference}
    {ref : ArrayRef} {base : Option Nat} {length : Nat}
    (hRole : names.role? cell.name = some (.array length))
    (hArray : start.setting.array ref = (base, (length : Int))) :
    Judges (resolveArray cell ref) context (cell.Legal names) (cell.Overruns names start) := by
  rw [← hResolving.setting] at hArray
  unfold resolveArray
  cases hIndex : cell.index with
  | none =>
      apply Judges.refuse
      rw [Reference.legal_plain hIndex, Names.IsPlain, hRole]
      simp
  | some index =>
      have hLegal : cell.Legal names ↔ index.Legal names length := by
        rw [Reference.legal_element hIndex, hRole]
        constructor
        · rintro ⟨other, hSame, hInside⟩
          cases hSame
          exact hInside
        · exact fun hInside => ⟨length, rfl, hInside⟩
      apply Judges.congr _ hLegal.symm
      cases index with
      | number span offset =>
          by_cases hInside : offset < length
          · exact resolveElement_judges_of_lt _ hArray hInside hInside
          · obtain ⟨label, hRun⟩ :=
              resolveElement_run_of_le cell.span.first hArray (Nat.le_of_not_lt hInside)
            exact .of_misuse hRun fun hLess => absurd hLess hInside
      | name span other =>
          have hPlain : Judges (viewIndex span.first other) context (names.IsPlain other)
              (cell.Overruns names start) := viewIndex_judges hResolving span.first other
          apply Judges.congr _ (iff_of_eq (and_true _))
          apply hPlain.bind
          intro view middle hView
          have hLegalIndex := hPlain.accepts view middle hView
          obtain ⟨kind, handle, hDeclared⟩ := hResolving.exists_declared hLegalIndex
          obtain ⟨place, hRun⟩ := Context.viewIndex_run hResolving.sound span.first hDeclared
          rw [hRun] at hView
          cases hView
          cases hKnown : context.knows? other with
          | none =>
              change Judges (resolveDynamic ref place) context True _
              exact .routine trivial
          | some offset =>
              change Judges (resolveElement cell.span.first ref offset) context True _
              by_cases hInside : offset < length
              · exact resolveElement_judges_of_lt _ hArray hInside trivial
              · obtain ⟨label, hMisuse⟩ :=
                  resolveElement_run_of_le cell.span.first hArray (Nat.le_of_not_lt hInside)
                apply Judges.of_misuse hMisuse
                intro _
                obtain ⟨hScalar, hStart⟩ := hResolving.known_start hKnown
                exact .beyond hIndex hScalar (hStart span.first) hRole (Nat.le_of_not_lt hInside)

theorem index_eq_none_iff {cell : Reference} : cell.isElement = false ↔ cell.index = none := by
  rw [Reference.isElement, Option.isSome_eq_false_iff, Option.isNone_iff_eq_none]

private theorem not_legal_of_element {cell : Reference} (hElement : cell.isElement = true)
    (hRole : ∀ length, names.role? cell.name ≠ some (.array length)) : ¬cell.Legal names := by
  obtain ⟨index, hIndex⟩ := Option.isSome_iff_exists.mp hElement
  rw [Reference.legal_element hIndex]
  rintro ⟨length, hArray, -⟩
  exact hRole length hArray

private theorem not_legal_of_role?_eq_none {cell : Reference}
    (hRole : names.role? cell.name = none) :
    ¬cell.Legal names := by
  unfold Reference.Legal Names.IsPlain
  rw [hRole]
  split <;> simp

private theorem resolveSource_judges (hResolving : Resolving start context names)
    (cell : Reference) :
    Judges (resolveSource cell) context (cell.Legal names) (cell.Overruns names start) := by
  have hCasts := hResolving.scopesHere cell.name
  -- A scalar and a loop variable are read alike.
  have hPlain : ∀ kind handle, context.setting.declared cell.name = some (kind, .value handle) →
      (∀ length, names.role? cell.name ≠ some (.array length)) → names.IsPlain cell.name →
      Judges (resolveSource cell) context (cell.Legal names) (cell.Overruns names start) := by
    intro kind handle hDeclared hRole hLegal
    obtain ⟨entry, hEntry, -, hBinding⟩ := Context.exists_lookup?_of_declared hDeclared
    apply Judges.of_declared hEntry
    rw [hBinding]
    cases hElement : cell.isElement with
    | true => exact .of_misuse rfl fun hHere => absurd hHere (not_legal_of_element hElement hRole)
    | false =>
        obtain ⟨place, hRun⟩ :=
          Context.viewScalar_run hResolving.sound cell.span.first hEntry hBinding
        refine .of_run (run_bind_of_run hRun) ?_
        exact (Reference.legal_plain (index_eq_none_iff.mp hElement)).mpr hLegal
  cases hRole : names.role? cell.name with
  | none =>
      rw [hRole] at hCasts
      exact .of_undeclared hCasts (not_legal_of_role?_eq_none hRole)
  | some role =>
      rw [hRole] at hCasts
      cases role with
      | scalar =>
          obtain ⟨handle, hDeclared⟩ := hCasts
          exact hPlain _ handle hDeclared (by simp [hRole]) (.inl hRole)
      | iterator =>
          obtain ⟨handle, hDeclared⟩ := hCasts
          exact hPlain _ handle hDeclared (by simp [hRole]) (.inr hRole)
      | array length =>
          obtain ⟨ref, base, hDeclared, hArray⟩ := hCasts
          obtain ⟨entry, hEntry, -, hBinding⟩ := Context.exists_lookup?_of_declared hDeclared
          apply Judges.of_declared hEntry
          rw [hBinding]
          rw [hResolving.setting] at hArray
          exact resolveArray_judges hResolving hRole hArray

private theorem resolveTarget_judges (hResolving : Resolving start context names)
    (cell : Reference) :
    Judges (resolveTarget cell) context (cell.LegalTarget names) (cell.Overruns names start) := by
  have hCasts := hResolving.scopesHere cell.name
  cases hRole : names.role? cell.name with
  | none =>
      rw [hRole] at hCasts
      exact .of_undeclared hCasts fun hLegal => not_legal_of_role?_eq_none hRole hLegal.1
  | some role =>
      rw [hRole] at hCasts
      cases role with
      | scalar =>
          obtain ⟨handle, hDeclared⟩ := hCasts
          obtain ⟨entry, hEntry, hKind, hBinding⟩ := Context.exists_lookup?_of_declared hDeclared
          apply Judges.of_declared hEntry
          rw [hBinding, hKind]
          cases hElement : cell.isElement with
          | true =>
              refine .of_misuse rfl fun hHere => absurd hHere.1 ?_
              exact not_legal_of_element hElement (by simp [hRole])
          | false =>
              obtain ⟨place, hRun⟩ :=
                Context.scalarCell_run hResolving.sound cell.span.first cell.name hDeclared
              refine .of_run (run_bind_of_run hRun) ⟨?_, by simp [hRole]⟩
              exact (Reference.legal_plain (index_eq_none_iff.mp hElement)).mpr (.inl hRole)
      | iterator =>
          obtain ⟨handle, hDeclared⟩ := hCasts
          obtain ⟨entry, hEntry, hKind, hBinding⟩ := Context.exists_lookup?_of_declared hDeclared
          apply Judges.of_declared hEntry
          rw [hBinding, hKind]
          cases hElement : cell.isElement with
          | true => exact .of_misuse rfl fun hHere => absurd hRole hHere.2
          | false => exact .of_misuse rfl fun hHere => absurd hRole hHere.2
      | array length =>
          obtain ⟨ref, base, hDeclared, hArray⟩ := hCasts
          obtain ⟨entry, hEntry, -, hBinding⟩ := Context.exists_lookup?_of_declared hDeclared
          apply Judges.of_declared hEntry
          rw [hBinding]
          rw [hResolving.setting] at hArray
          apply (resolveArray_judges hResolving hRole hArray).congr
          constructor
          · exact fun hLegal => ⟨hLegal, by simp [hRole]⟩
          · exact And.left

/-! ### Commands without commands inside -/

def Overrun (references : List Reference) (names : Names) (start : Context)
    (complaint : Complaint) : Prop :=
  ∃ cell ∈ references, cell.Overruns names start complaint

private theorem Overrun.mono {references more : List Reference} {complaint : Complaint}
    (hMore : ∀ cell ∈ references, cell ∈ more) (hOverrun : Overrun references names start complaint) :
    Overrun more names start complaint := by
  obtain ⟨cell, hCell, hOverruns⟩ := hOverrun
  exact ⟨cell, hMore cell hCell, hOverruns⟩

private theorem resolve_judges (hResolving : Resolving start context names) (atom : Atom) :
    Judges (resolve atom) context (atom.Legal names) (Overrun atom.references names start) := by
  cases atom with
  | number span value => exact .of_run rfl trivial
  | reference cell =>
      apply (resolveSource_judges hResolving cell).mono
      exact fun complaint hOverruns => ⟨cell, List.mem_singleton.mpr rfl, hOverruns⟩

private theorem resolving_of_resolve (hResolving : Resolving start context names) {bases : Bases}
    (hBases : start.setting.HasBases bases) {atom : Atom} {operand : Operand} {after : Context}
    (hRun : (resolve atom).run.run context = (.ok operand, after)) :
    Resolving start after names := by
  rw [← hResolving.setting] at hBases
  have hFinds := ((Context.resolve_ensures hResolving.sound hBases atom).of_run hRun).1
  exact hResolving.of_works hFinds.toWorks

/-- Two operands are resolved one after the other. -/
theorem resolveBoth_judges {α : Type} (hResolving : Resolving start context names) {bases : Bases}
    (hBases : start.setting.HasBases bases) (left right : Atom)
    {next : Operand → Operand → Generating α}
    (hNext : ∀ first second, Routine false (next first second)) :
    Judges (do
      let first ← resolve left
      let second ← resolve right
      next first second) context (left.Legal names ∧ right.Legal names)
      (Overrun (left.references ++ right.references) names start) := by
  apply Judges.bind
  · apply (resolve_judges hResolving left).mono
    exact fun complaint => .mono fun cell => List.mem_append_left _
  · intro first middle hRun
    have hMiddle := resolving_of_resolve hResolving hBases hRun
    apply Judges.before_routine _ (hNext first)
    apply (resolve_judges hMiddle right).mono
    exact fun complaint => .mono fun cell => List.mem_append_right _

private theorem resolveExpression_judges (hResolving : Resolving start context names)
    {bases : Bases} (hBases : start.setting.HasBases bases) (expression : Expression) :
    Judges (resolveExpression expression) context (expression.Legal names)
      (Overrun expression.references names start) := by
  cases expression with
  | atom span value => exact (resolve_judges hResolving value).before_routine inferInstance
  | operation span left operator right =>
      exact resolveBoth_judges hResolving hBases left right inferInstance

theorem testCondition_judges (hResolving : Resolving start context names) {bases : Bases}
    (hBases : start.setting.HasBases bases) (condition : Condition) :
    Judges (testCondition condition) context (condition.Legal names)
      (Overrun (condition.left.references ++ condition.right.references) names start) := by
  apply resolveBoth_judges hResolving hBases
  intro first second
  split <;> infer_instance

theorem openLoop_judges (hResolving : Resolving start context names) {bases : Bases}
    (hBases : start.setting.HasBases bases) (position : Position) (iterator : String)
    (first last : Atom) (direction : Direction) :
    Judges (openLoop position iterator first last direction) context
      (names.role? iterator = none ∧ (first.Legal names ∧ last.Legal names))
      (Overrun (first.references ++ last.references) names start) := by
  have hFree := hResolving.scopesHere.role?_eq_none_iff iterator
  apply Judges.of_get
  cases hLookup : context.store.symbols.lookup? iterator with
  | some entry =>
      have hTaken : context.setting.declared iterator ≠ none := by
        rw [Context.declared_of_lookup? hLookup]
        exact Option.some_ne_none _
      exact .of_misuse rfl fun hLegal => absurd (hFree.mp hLegal.1) hTaken
  | none =>
      have hNew : context.setting.declared iterator = none :=
        Option.map_eq_none_iff.mpr hLookup
      have hNote : Routine false
          (modify fun context => { context with loops := context.loops + 1 } : Generating Unit) :=
        .modify fun _ => .still rfl rfl rfl
      have hBoth : first.Legal names ∧ last.Legal names ↔
          names.role? iterator = none ∧ (first.Legal names ∧ last.Legal names) :=
        ⟨fun hBoth => ⟨hFree.mpr hNew, hBoth⟩, And.right⟩
      refine (resolveBoth_judges hResolving hBases first last fun start stop => ?_).congr hBoth
      refine .andThen fun _ => .andThen fun _ => .andThen fun _ => .andThen fun _ => ?_
      infer_instance

private theorem resolving_of_target (hResolving : Resolving start context names) {bases : Bases}
    (hBases : start.setting.HasBases bases) {cell : Reference} {operand : Operand} {after : Context}
    (hRun : (resolveTarget cell).run.run context = (.ok operand, after)) :
    Resolving start after names := by
  rw [← hResolving.setting] at hBases
  have hFinds := ((Context.resolveTarget_ensures hResolving.sound hBases cell).of_run hRun).1
  exact hResolving.of_works hFinds.toWorks

theorem assign_judges (hResolving : Resolving start context names) {bases : Bases}
    (hBases : start.setting.HasBases bases) (target : Reference) (value : Expression) :
    Judges (assign target value) context (target.LegalTarget names ∧ value.Legal names)
      (Overrun (target :: value.references) names start) := by
  apply Judges.bind
  · apply (resolveTarget_judges hResolving target).mono
    exact fun complaint hOverruns => ⟨target, List.mem_cons_self, hOverruns⟩
  · intro destination middle hRun
    have hMiddle := resolving_of_target hResolving hBases hRun
    apply Judges.before_routine
    · apply (resolveExpression_judges hMiddle hBases value).mono
      exact fun complaint => .mono fun cell => List.mem_cons_of_mem _
    · infer_instance

theorem readInput_judges (hResolving : Resolving start context names) (target : Reference) :
    Judges (readInput target) context (target.LegalTarget names)
      (Overrun [target] names start) := by
  apply Judges.before_routine
  · apply (resolveTarget_judges hResolving target).mono
    exact fun complaint hOverruns => ⟨target, List.mem_cons_self, hOverruns⟩
  · infer_instance

theorem writeOutput_judges (hResolving : Resolving start context names) (value : Atom) :
    Judges (writeOutput value) context (value.Legal names)
      (Overrun value.references names start) := by
  apply (resolve_judges hResolving value).before_routine
  infer_instance

end Generating

end RegisterCompiler
