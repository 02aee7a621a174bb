/-
The books between two commands.

When a command has been compiled and settled, registers and values name each other, no
register is held, no element that was addressed through a variable is left, and names, labels
and depth are what they were.  When a whole program has been compiled, the values that live
are those of its declared scalars and of the elements that it keeps, one for each.
-/

import RegisterCompiler.Proofs.Generator.Furnishing
import RegisterCompiler.Proofs.Generator.Gains
import RegisterCompiler.Proofs.Store.Pairing

set_option autoImplicit false

namespace RegisterCompiler

open Context (Books)

/-! ### Registers -/

namespace Context

variable {context : Context}

theorem Tidy.heldRegisters_eq_nil (hTidy : context.Tidy) : context.store.heldRegisters = [] := by
  rw [List.eq_nil_iff_forall_not_mem]
  intro number hNumber
  obtain ⟨-, ⟨state, occupant⟩, hEntry, hState⟩ := Store.mem_registersIn.mp hNumber
  cases hState
  cases occupant with
  | none => exact List.not_mem_nil ((hTidy.holding.held number).mpr hEntry)
  | some handle => exact hTidy.holding.spare number handle hEntry

private theorem Tidy.disorder?_eq_none (hTidy : context.Tidy) : context.disorder? = none := by
  rw [disorder?, hTidy.store.paired.asymmetry?_eq_none, hTidy.heldRegisters_eq_nil]

/-- A balanced context without elements of the command has none that is addressed through a
variable. -/
theorem Balanced.index_eq_none (hBalanced : context.Balanced) (hDynamics : context.dynamics = [])
    {handle : Handle} {value : Value} {element : ArrayElement}
    (hLive : context.store.arena.get? handle = some value)
    (hElement : value.payload = .element element) : element.index = none := by
  apply Classical.byContradiction
  intro hIndex
  have hMark : value.payload.mark = .dynamic := by
    rw [hElement]
    exact Payload.mark_eq_dynamic hIndex
  have hFound : context.store.arena.mark? handle = some (.dynamic, value.chunk.isSome) :=
    Arena.mark?_eq_some_iff.mpr ⟨value, hLive, hMark, rfl⟩
  cases hOwns : value.chunk.isSome with
  | true =>
      rw [hOwns] at hFound
      exact hBalanced.placed handle hFound
  | false =>
      rw [hOwns] at hFound
      rcases hBalanced.loose handle _ hFound with ⟨_, _, hFixed⟩ | ⟨-, hListed⟩
      · cases hFixed
      · rw [hDynamics] at hListed
        cases hListed

/-! ### Names -/

/-- A context between two commands of a program: all is in good order, the names in scope play
their roles, and the arrays are those declared at the opening. -/
structure Standing (opened context : Context) (bases : Bases) (names : Names) : Prop where
  prepared : context.Prepared bases
  balanced : context.Balanced
  scopes : context.setting.Scopes names
  arrays : ∀ name kind ref, context.setting.declared name = some (kind, .array ref) ↔
    opened.setting.declared name = some (kind, .array ref)

end Context

private theorem Names.role?_eq_none_iff (names : Names) (name : String) :
    names.role? name = none ↔
      name ∉ names.declarations.map Declaration.name ++ names.iterators := by
  rw [role?, List.mem_append, not_or]
  split
  · rename_i hIterator
    simp [hIterator]
  · rename_i hOther
    simp [hOther]

/-- Inside a construct the arrays are those around it. -/
theorem Setting.Enters.declared_array {before inside : Setting} {names : List String}
    (hEnters : before.Enters names inside) (name : String) (kind : SymbolKind) (ref : ArrayRef) :
    inside.declared name = some (kind, .array ref) ↔
      before.declared name = some (kind, .array ref) := by
  cases hEnters with
  | construct hSame => rw [hSame.declared]
  | @loop _ iterator cells owner handle hAdmits hInside =>
      have hDeclared : inside.declared = Function.update before.declared iterator
          (some (.iterator, .value handle)) := by
        rw [hInside]
        rfl
      rw [hDeclared]
      by_cases hSame : name = iterator
      · rw [hSame, Function.update_self, hAdmits.fresh]
        constructor
        · intro hFound
          cases hFound
        · intro hFound
          cases hFound
      · rw [Function.update_of_ne hSame]

namespace Generating

variable {opened context inside : Context} {bases : Bases}

/-- The opening code of a construct keeps the books. -/
theorem lead_balanced (hPrepared : context.Prepared bases) (hBalanced : context.Balanced)
    {command : Command} {body : Body} (hBody : body ∈ command.bodies) {note : body.Note}
    (hRun : body.lead.run.run context = (.ok note, inside)) : inside.Balanced := by
  have hSound := hPrepared.toSound
  have hBases := hPrepared.bases
  cases command with
  | assign | read | write | skip => cases hBody
  | ifThen span condition commands =>
      cases List.mem_singleton.mp hBody
      apply Books.balanced
      apply books_of_first hRun
      exact fun _ tested hTest => testCondition_books hSound hBases hBalanced hTest
  | ifElse span condition commands orElse =>
      cases List.mem_cons.mp hBody with
      | inl hFirst =>
          cases hFirst
          apply Books.balanced
          apply books_of_first hRun
          exact fun _ tested hTest => testCondition_books hSound hBases hBalanced hTest
      | inr hSecond =>
          cases List.mem_singleton.mp hSecond
          obtain ⟨_, tested, hTest, hRun⟩ := exists_of_run_bind hRun
          obtain ⟨_, _, hDescend, hRun⟩ := exists_of_run_bind hRun
          have hTested := testCondition_books hSound hBases hBalanced hTest
          have hDescended := Thrifty.books _ _ _ hDescend hTested.balanced
          cases hDescend
          have hEntrance := (Context.entrance_of_test hPrepared hTest).1
          apply Books.balanced
          apply books_of_first hRun
          exact fun _ bodied hBodied =>
            compileCommands_books hEntrance.prepared hDescended.balanced hBodied
  | whileLoop span condition commands =>
      cases List.mem_singleton.mp hBody
      exact (while_books hPrepared hBalanced hRun).balanced
  | forLoop span iterator first last direction commands =>
      cases List.mem_singleton.mp hBody
      apply Books.balanced
      apply books_of_first hRun
      exact fun cells opened hOpen => openLoop_books hSound hBases hBalanced hOpen

/-- A command that was compiled and settled leads from one context between two commands to the
next. -/
theorem standing_of_settle {names : Names} (hStanding : opened.Standing context bases names)
    {command : Command} {compiled settled : Context}
    (hCompile : (compileCommand command).run.run context = (.ok (), compiled))
    (hSettle : tidyUp.run.run compiled = (.ok (), settled)) :
    opened.Standing settled bases names ∧ settled.dynamics = [] := by
  obtain ⟨hPrepared, hCompiles⟩ := Context.settles_of_runs hStanding.prepared hCompile hSettle
  have hSame := hCompiles.extended.cells
  have hCompiled := compileCommand_books hStanding.prepared hStanding.balanced hCompile
  obtain ⟨hSettled, hDynamics⟩ := tidyUp_books hCompiled.balanced hSettle
  refine ⟨⟨hPrepared, hSettled.balanced, hStanding.scopes.resembles hSame, ?_⟩, hDynamics⟩
  rw [hSame.declared]
  exact hStanding.arrays

theorem standing_of_commands {names : Names} (hStanding : opened.Standing context bases names)
    {commands : List Command} {after : Context}
    (hRun : (compileCommands commands).run.run context = (.ok (), after)) :
    opened.Standing after bases names := by
  induction commands generalizing context with
  | nil =>
      rw [compileCommands] at hRun
      cases hRun
      exact hStanding
  | cons command rest inductionHypothesis =>
      obtain ⟨compiled, settled, hCompile, hSettle, hRest⟩ := exists_of_compileCommands_cons hRun
      exact inductionHypothesis (standing_of_settle hStanding hCompile hSettle).1 hRest

/-- Inside a construct the names of its body are in scope too. -/
theorem standing_of_lead {declarations : List Declaration} {iterators : List String}
    (hStanding : opened.Standing context bases ⟨declarations, iterators⟩) {command : Command}
    {body : Body} (hBody : body ∈ command.bodies) {note : body.Note}
    (hLead : body.lead.run.run context = (.ok note, inside)) :
    opened.Standing inside bases ⟨declarations, body.names ++ iterators⟩ := by
  have hEntrance := Context.entrance_of_lead hStanding.prepared hBody hLead
  constructor
  · exact hEntrance.prepared
  · exact lead_balanced hStanding.prepared hStanding.balanced hBody hLead
  · exact hStanding.scopes.enters hEntrance.setting
  · intro name kind ref
    rw [hEntrance.setting.declared_array]
    exact hStanding.arrays name kind ref

/-- Every command of a program is compiled between two others. -/
theorem Visits.standing {declarations : List Declaration} {iterators names : List String}
    {commands : List Command} {command : Command} {start : Context}
    (hVisits : Visits commands context names command start)
    (hStanding : opened.Standing context bases ⟨declarations, iterators⟩) :
    opened.Standing start bases ⟨declarations, names ++ iterators⟩ := by
  induction hVisits generalizing iterators with
  | here => exact hStanding
  | later hCompile hSettle _ inductionHypothesis =>
      exact inductionHypothesis (standing_of_settle hStanding hCompile hSettle).1
  | inside hBody hLead _ inductionHypothesis =>
      rw [List.append_assoc]
      exact inductionHypothesis (standing_of_lead hStanding hBody hLead)

/-- No element of a command is left when all commands are compiled. -/
theorem dynamics_of_compileCommands {names : Names}
    (hStanding : opened.Standing context bases names) (hDynamics : context.dynamics = [])
    {commands : List Command} {after : Context}
    (hRun : (compileCommands commands).run.run context = (.ok (), after)) :
    after.dynamics = [] := by
  induction commands generalizing context with
  | nil =>
      rw [compileCommands] at hRun
      cases hRun
      exact hDynamics
  | cons command rest inductionHypothesis =>
      obtain ⟨compiled, settled, hCompile, hSettle, hRest⟩ := exists_of_compileCommands_cons hRun
      obtain ⟨hSettled, hNone⟩ := standing_of_settle hStanding hCompile hSettle
      exact inductionHypothesis hSettled hNone hRest

end Generating

/-! ### Places -/

/-- A scalar, or an element of an array. -/
inductive Place where
  | scalar (name : String)
  | element (array : String) (offset : Nat)
deriving Repr, DecidableEq

def Context.Hosts (context : Context) (handle : Handle) : Place → Prop
  | .scalar name => ∃ entry value, context.store.symbols.lookup? name = some entry ∧
      entry.binding = .value handle ∧ context.store.arena.get? handle = some value
  | .element array offset => ∃ entry ref value slot,
      context.store.symbols.lookup? array = some entry ∧ entry.binding = .array ref ∧
        context.store.arena.get? handle = some value ∧
        value.payload = .element ⟨slot, some (offset : Int), none, some ref⟩

/-- The places of a program that have a value to its end: the declared scalars, and the elements
of declared arrays that are first or that a command refers to at an offset the generator
knows. -/
def Program.Retains (program : Program) (context : Context) : Place → Prop
  | .scalar name => ∃ declaration ∈ program.declarations,
      declaration.name = name ∧ declaration.length = none
  | .element array offset =>
      (∃ declaration ∈ program.declarations,
        declaration.name = array ∧ declaration.length ≠ none) ∧
      (offset = 0 ∨ ∃ names command start,
        Generating.VisitsIn program context names command start ∧
          ∃ cell ∈ command.references, cell.name = array ∧
            cell.offset? (command.site start) = some offset)

namespace Context

variable {context : Context} {handle : Handle}

private theorem hosts_scalar_iff (hLinked : context.store.Linked) {name : String} :
    context.Hosts handle (.scalar name) ↔
      ∃ kind, context.setting.declared name = some (kind, .value handle) := by
  constructor
  · rintro ⟨entry, value, hEntry, hBinding, -⟩
    exact ⟨entry.kind, hBinding ▸ declared_of_lookup? hEntry⟩
  · rintro ⟨kind, hDeclared⟩
    obtain ⟨entry, hEntry, -, hBinding⟩ := exists_lookup?_of_declared hDeclared
    obtain ⟨-, value, _, hLive, -⟩ := hLinked.cells name kind handle hDeclared
    exact ⟨entry, value, hEntry, hBinding, hLive⟩

private theorem hosts_element_iff {array : String} {offset : Nat} :
    context.Hosts handle (.element array offset) ↔
      ∃ kind ref owns, context.setting.declared array = some (kind, .array ref) ∧
        context.store.arena.mark? handle = some (.fixed ref offset, owns) := by
  constructor
  · rintro ⟨entry, ref, value, slot, hEntry, hBinding, hLive, hPayload⟩
    have hMark : context.store.arena.mark? handle = some (.fixed ref offset, value.chunk.isSome) :=
      Arena.mark?_eq_some_iff.mpr
        ⟨value, hLive, Payload.mark_eq_fixed_iff.mpr ⟨slot, hPayload⟩, rfl⟩
    exact ⟨entry.kind, ref, _, hBinding ▸ declared_of_lookup? hEntry, hMark⟩
  · rintro ⟨kind, ref, owns, hDeclared, hMark⟩
    obtain ⟨entry, hEntry, -, hBinding⟩ := exists_lookup?_of_declared hDeclared
    obtain ⟨value, hLive, hFixed, -⟩ := Arena.mark?_eq_some_iff.mp hMark
    obtain ⟨slot, hPayload⟩ := Payload.mark_eq_fixed_iff.mp hFixed
    exact ⟨entry, ref, value, slot, hEntry, hBinding, hLive, hPayload⟩

private theorem mark?_of_declared_scalar (hLinked : context.store.Linked) {name : String}
    (hDeclared : context.setting.declared name = some (.scalar, .value handle)) :
    context.store.arena.mark? handle = some (.other, true) := by
  obtain ⟨-, value, address, hLive, hPlain, hChunk, -⟩ := hLinked.cells name _ handle hDeclared
  obtain ⟨scalar, hPayload⟩ := hPlain nofun
  apply Arena.mark?_eq_some_iff.mpr
  exact ⟨value, hLive, by rw [hPayload]; rfl, Option.isSome_of_eq_some hChunk⟩

end Context

/-! ### The values of a compiled program -/

namespace Context

structure Audited (program : Program) (opened compiled : Context) : Prop where
  opening : opened.Opening program.declarations
  furnished : opened.Furnished
  sound : compiled.store.Sound
  same : opened.setting.Resembles compiled.setting
  books : Books (Generating.Gained program.body opened) opened compiled
  dynamics : compiled.dynamics = []
  gained : ∀ ref offset, (ref, offset) ∈ Generating.Gained program.body opened ↔
    ∃ name kind, opened.setting.declared name = some (kind, .array ref) ∧
      ∃ number : Nat, offset = number ∧ ∃ names command start,
        Generating.Visits program.body opened names command start ∧
          ∃ cell ∈ command.references, cell.name = name ∧
            cell.offset? (command.site start) = some number

theorem standing_of_opening {declarations : List Declaration} {opened : Context}
    (hOpening : opened.Opening declarations) (hFurnished : opened.Furnished) :
    opened.Standing opened (Placement.bases opened.placements.toList) ⟨declarations, []⟩ where
  prepared := hOpening.prepared
  balanced := hFurnished.balanced
  scopes := hOpening.declares.scopes
  arrays := fun _ _ _ => Iff.rfl

private theorem declared_site (command : Command) (start : Context) :
    (command.site start).setting.declared = start.setting.declared := by
  cases command <;> rfl

/-- The elements that are gained are those of declared arrays at the offsets that are known. -/
theorem mem_gained_opened_iff {declarations : List Declaration} {opened : Context}
    (hOpening : opened.Opening declarations) (hFurnished : opened.Furnished)
    {commands : List Command} {ref : ArrayRef} {offset : Int} :
    (ref, offset) ∈ Generating.Gained commands opened ↔
      ∃ name kind, opened.setting.declared name = some (kind, .array ref) ∧
        ∃ number : Nat, offset = number ∧ ∃ names command start,
          Generating.Visits commands opened names command start ∧
            ∃ cell ∈ command.references, cell.name = name ∧
              cell.offset? (command.site start) = some number := by
  have hStanding := standing_of_opening hOpening hFurnished
  constructor
  · rintro ⟨names, command, start, hVisits, cell, hCell, kind, number, hDeclared, hOffset, hSame⟩
    rw [declared_site, (hVisits.standing hStanding).arrays] at hDeclared
    exact ⟨cell.name, kind, hDeclared, number, hSame, names, command, start, hVisits, cell, hCell,
      rfl, hOffset⟩
  · rintro ⟨name, kind, hDeclared, number, hSame, names, command, start, hVisits, cell, hCell,
      rfl, hOffset⟩
    rw [← (hVisits.standing hStanding).arrays, ← declared_site command] at hDeclared
    exact ⟨names, command, start, hVisits, cell, hCell, kind, number, hDeclared, hOffset, hSame⟩

private theorem audited_of_runs {options : GeneratorOptions} {program : Program}
    (hRegisters : GeneratorOptions.leastRegisters ≤ options.registers)
    (hLayout : options.layout.fault? = none) {opened compiled : Context}
    (hDeclare : (Generating.declareAll program.declarations).run.run (.empty options) =
      (.ok (), opened))
    (hCompile : (Generating.compileCommands program.body).run.run opened = (.ok (), compiled)) :
    Audited program opened compiled := by
  have hGenerates := Generates.of_runs hRegisters hLayout hDeclare hCompile
  have hFurnished := Generating.declareAll_furnished (opening_empty hRegisters hLayout)
    (furnished_empty options) hDeclare
  have hStanding := standing_of_opening hGenerates.opening hFurnished
  constructor
  · exact hGenerates.opening
  · exact hFurnished
  · exact hGenerates.tidy.store
  · exact hGenerates.compiles.extended.cells
  · exact Generating.compileCommands_books hStanding.prepared hStanding.balanced hCompile
  · apply Generating.dynamics_of_compileCommands hStanding _ hCompile
    rw [hGenerates.opening.blank]
    rfl
  · exact fun _ _ => mem_gained_opened_iff hGenerates.opening hFurnished

namespace Audited

variable {program : Program} {opened compiled : Context}
  (hAudited : Audited program opened compiled)

include hAudited

/-- A value that owns a cell owned it from the beginning. -/
theorem mark?_opened_of_owner {handle : Handle} {mark : Mark}
    (hMark : compiled.store.arena.mark? handle = some (mark, true)) :
    ∃ found, opened.store.arena.mark? handle = some (found, true) := by
  obtain ⟨value, hLive, -, hOwns⟩ := Arena.mark?_eq_some_iff.mp hMark
  obtain ⟨address, hAddress⟩ := Option.isSome_iff_exists.mp hOwns
  have hChunk : compiled.setting.chunk handle = some address := by
    simp only [setting, Store.setting, hLive, Option.bind_some, hAddress]
  rw [hAudited.same] at hChunk
  obtain ⟨found, hFound, hCell⟩ := Option.bind_eq_some_iff.mp hChunk
  exact ⟨_, Arena.mark?_eq_some_iff.mpr ⟨found, hFound, rfl, Option.isSome_of_eq_some hCell⟩⟩

/-- A value that owned a cell in the beginning lives to the end. -/
theorem mark?_of_owner {handle : Handle} {mark : Mark}
    (hMark : opened.store.arena.mark? handle = some (mark, true)) :
    ∃ owns, compiled.store.arena.mark? handle = some (mark, owns) := by
  obtain ⟨value, hLive, -, hOwns⟩ := Arena.mark?_eq_some_iff.mp hMark
  obtain ⟨address, hAddress⟩ := Option.isSome_iff_exists.mp hOwns
  have hChunk : opened.setting.chunk handle = some address := by
    simp only [setting, Store.setting, hLive, Option.bind_some, hAddress]
  have hSame : compiled.setting.chunk = opened.setting.chunk := by rw [hAudited.same]
  rw [← hSame] at hChunk
  obtain ⟨found, hFound, -⟩ := Option.bind_eq_some_iff.mp hChunk
  have hAfter : compiled.store.arena.mark? handle =
      some (found.payload.mark, found.chunk.isSome) :=
    Arena.mark?_eq_some_iff.mpr ⟨found, hFound, rfl, rfl⟩
  obtain ⟨owned, hBefore⟩ := hAudited.books.same handle _ _ (Arena.born_of_mark? hMark) hAfter
  rw [hMark] at hBefore
  cases hBefore
  exact ⟨_, hAfter⟩

private theorem exists_declaration {name : String} {found : SymbolKind × Binding}
    (hDeclared : opened.setting.declared name = some found) :
    ∃ declaration ∈ program.declarations,
      declaration.name = name ∧ declaration.Stands opened.setting := by
  have hMem : name ∈ program.declarations.map Declaration.name := by
    apply Classical.byContradiction
    intro hAbsent
    rw [hAudited.opening.declares.others name hAbsent] at hDeclared
    cases hDeclared
  obtain ⟨declaration, hDeclaration, hName⟩ := List.mem_map.mp hMem
  exact ⟨declaration, hDeclaration, hName,
    hAudited.opening.declares.stands declaration hDeclaration⟩

private theorem declared_scalar_iff {name : String} :
    (∃ handle, opened.setting.declared name = some (.scalar, .value handle)) ↔
      ∃ declaration ∈ program.declarations,
        declaration.name = name ∧ declaration.length = none := by
  constructor
  · rintro ⟨handle, hDeclared⟩
    obtain ⟨declaration, hDeclaration, hName, hStands⟩ := hAudited.exists_declaration hDeclared
    refine ⟨declaration, hDeclaration, hName, ?_⟩
    cases hLength : declaration.length with
    | none => rfl
    | some length =>
        rw [Declaration.Stands, hLength, hName] at hStands
        obtain ⟨ref, base, hArray, -⟩ := hStands
        rw [hDeclared] at hArray
        cases hArray
  · rintro ⟨declaration, hDeclaration, hName, hLength⟩
    have hStands := hAudited.opening.declares.stands declaration hDeclaration
    rw [Declaration.Stands, hLength, hName] at hStands
    exact hStands

private theorem kind_eq_array {name : String} {kind : SymbolKind} {ref : ArrayRef}
    (hDeclared : opened.setting.declared name = some (kind, .array ref)) :
    kind = .array ∧ ∃ declaration ∈ program.declarations,
      declaration.name = name ∧ declaration.length ≠ none := by
  obtain ⟨declaration, hDeclaration, hName, hStands⟩ := hAudited.exists_declaration hDeclared
  cases hLength : declaration.length with
  | none =>
      rw [Declaration.Stands, hLength, hName] at hStands
      obtain ⟨handle, hScalar⟩ := hStands
      rw [hDeclared] at hScalar
      cases hScalar
  | some length =>
      rw [Declaration.Stands, hLength, hName] at hStands
      obtain ⟨other, base, hArray, -⟩ := hStands
      rw [hDeclared] at hArray
      cases hArray
      exact ⟨rfl, declaration, hDeclaration, hName, by simp [hLength]⟩

private theorem declared_array_iff {name : String} :
    (∃ ref, opened.setting.declared name = some (.array, .array ref)) ↔
      ∃ declaration ∈ program.declarations,
        declaration.name = name ∧ declaration.length ≠ none := by
  constructor
  · rintro ⟨ref, hDeclared⟩
    exact (hAudited.kind_eq_array hDeclared).2
  · rintro ⟨declaration, hDeclaration, hName, hLength⟩
    have hStands := hAudited.opening.declares.stands declaration hDeclaration
    obtain ⟨length, hLength⟩ := Option.ne_none_iff_exists'.mp hLength
    rw [Declaration.Stands, hLength, hName] at hStands
    obtain ⟨ref, base, hDeclared, -⟩ := hStands
    exact ⟨ref, hDeclared⟩

/-- An element is kept when it is the first of its array or was gained. -/
theorem element_lives {name : String} {kind : SymbolKind} {ref : ArrayRef} {offset : Nat}
    (hDeclared : opened.setting.declared name = some (kind, .array ref))
    (hKept : offset = 0 ∨ (ref, (offset : Int)) ∈ Generating.Gained program.body opened) :
    ∃ handle owns, compiled.store.arena.mark? handle = some (.fixed ref offset, owns) := by
  rcases hKept with rfl | hGained
  · obtain ⟨handle, owns, hHead⟩ := hAudited.furnished.heads name kind ref hDeclared
    cases owns with
    | true =>
        obtain ⟨owns, hMark⟩ := hAudited.mark?_of_owner hHead
        exact ⟨handle, owns, hMark⟩
    | false => exact ⟨handle, false, hAudited.books.kept handle ref 0 hHead⟩
  · obtain ⟨handle, hFound⟩ := hAudited.books.present ref offset hGained
    rcases hFound with hLoose | hPlaced
    · exact ⟨handle, false, hLoose⟩
    · obtain ⟨owns, hMark⟩ := hAudited.mark?_of_owner hPlaced
      exact ⟨handle, owns, hMark⟩

/-- A living value is that of a declared scalar, or a kept element of a declared array. -/
theorem value_cases {handle : Handle} {mark : Mark} {owns : Bool}
    (hMark : compiled.store.arena.mark? handle = some (mark, owns)) :
    (mark = .other ∧ ∃ name, opened.setting.declared name = some (.scalar, .value handle)) ∨
      ∃ name ref, ∃ offset : Nat, mark = .fixed ref offset ∧
        opened.setting.declared name = some (.array, .array ref) ∧
        (offset = 0 ∨ (ref, (offset : Int)) ∈ Generating.Gained program.body opened) := by
  -- What was there before the first command stands for a declared name.
  have hOld : ∀ owned, opened.store.arena.mark? handle = some (mark, owned) →
      (mark = .other ∧ ∃ name, opened.setting.declared name = some (.scalar, .value handle)) ∨
        ∃ name ref, ∃ offset : Nat, mark = .fixed ref offset ∧
          opened.setting.declared name = some (.array, .array ref) ∧
          (offset = 0 ∨ (ref, (offset : Int)) ∈ Generating.Gained program.body opened) := by
    intro owned hBefore
    rcases hAudited.furnished.values handle mark owned hBefore with
      ⟨hOther, -, hNamed⟩ | ⟨name, ref, hFixed, hDeclared⟩
    · exact .inl ⟨hOther, hNamed⟩
    · exact .inr ⟨name, ref, 0, hFixed, hDeclared, .inl rfl⟩
  have hBalanced := hAudited.books.balanced
  cases owns with
  | true =>
      obtain ⟨found, hBefore⟩ := hAudited.mark?_opened_of_owner hMark
      obtain ⟨owned, hSame⟩ := hAudited.books.same handle mark true (Arena.born_of_mark? hBefore) hMark
      exact hOld owned hSame
  | false =>
      rcases hBalanced.loose handle mark hMark with ⟨ref, offset, rfl⟩ | ⟨-, hDynamic⟩
      · rcases hAudited.books.gained handle ref offset hMark with hBefore | hGained
        · exact hOld false hBefore
        · obtain ⟨name, kind, hDeclared, number, rfl, -⟩ := (hAudited.gained ref offset).mp hGained
          rw [(hAudited.kind_eq_array hDeclared).1] at hDeclared
          exact .inr ⟨name, ref, number, rfl, hDeclared, .inr hGained⟩
      · rw [hAudited.dynamics] at hDynamic
        cases hDynamic

/-- The places a program retains are the declared scalars and the kept elements. -/
theorem retains_element_iff {options : GeneratorOptions}
    (hDeclare : (Generating.declareAll program.declarations).run.run (.empty options) =
      (.ok (), opened)) {array : String} {offset : Nat} :
    program.Retains (.empty options) (.element array offset) ↔
      ∃ ref, opened.setting.declared array = some (.array, .array ref) ∧
        (offset = 0 ∨ (ref, (offset : Int)) ∈ Generating.Gained program.body opened) := by
  rw [Program.Retains, ← hAudited.declared_array_iff]
  constructor
  · rintro ⟨⟨ref, hDeclared⟩, rfl | ⟨names, command, start, ⟨found, hFound, hVisits⟩, hCell⟩⟩
    · exact ⟨ref, hDeclared, .inl rfl⟩
    · rw [hDeclare] at hFound
      cases hFound
      refine ⟨ref, hDeclared, .inr ((hAudited.gained ref offset).mpr ?_)⟩
      exact ⟨array, .array, hDeclared, offset, rfl, names, command, start, hVisits, hCell⟩
  · rintro ⟨ref, hDeclared, hZero | hGained⟩
    · exact ⟨⟨ref, hDeclared⟩, .inl hZero⟩
    · obtain ⟨name, kind, hNamed, number, hSame, names, command, start, hVisits, hCell⟩ :=
        (hAudited.gained ref offset).mp hGained
      cases hAudited.furnished.apart array name .array kind ref hDeclared hNamed
      cases Int.natCast_inj.mp hSame
      exact ⟨⟨ref, hDeclared⟩, .inr ⟨names, command, start, ⟨opened, hDeclare, hVisits⟩, hCell⟩⟩

private theorem existsUnique_place {options : GeneratorOptions}
    (hDeclare : (Generating.declareAll program.declarations).run.run (.empty options) =
      (.ok (), opened)) {handle : Handle} {value : Value}
    (hLive : compiled.store.arena.get? handle = some value) :
    ∃! place, program.Retains (.empty options) place ∧ compiled.Hosts handle place := by
  have hLinked := hAudited.sound.toLinked
  have hSame := hAudited.same.declared
  have hMark : compiled.store.arena.mark? handle =
      some (value.payload.mark, value.chunk.isSome) :=
    Arena.mark?_eq_some_iff.mpr ⟨value, hLive, rfl, rfl⟩
  rcases hAudited.value_cases hMark with
    ⟨hOther, name, hDeclared⟩ | ⟨name, ref, offset, hFixed, hDeclared, hKept⟩
  · have hHere : compiled.setting.declared name = some (.scalar, .value handle) := by
      rw [hSame]
      exact hDeclared
    refine ⟨.scalar name, ⟨hAudited.declared_scalar_iff.mp ⟨handle, hDeclared⟩,
      (hosts_scalar_iff hLinked).mpr ⟨.scalar, hHere⟩⟩, ?_⟩
    rintro place ⟨-, hHosts⟩
    cases place with
    | scalar other =>
        obtain ⟨kind, hFound⟩ := (hosts_scalar_iff hLinked).mp hHosts
        have hName := (hLinked.cells other kind handle hFound).1
        rw [(hLinked.cells name .scalar handle hHere).1] at hName
        cases hName
        rfl
    | element array number =>
        obtain ⟨kind, ref, owns, -, hFound⟩ := hosts_element_iff.mp hHosts
        rw [hMark, hOther] at hFound
        cases hFound
  · rw [hFixed] at hMark
    have hHere : compiled.setting.declared name = some (.array, .array ref) := by
      rw [hSame]
      exact hDeclared
    refine ⟨.element name offset, ⟨(hAudited.retains_element_iff hDeclare).mpr
      ⟨ref, hDeclared, hKept⟩, hosts_element_iff.mpr ⟨.array, ref, _, hHere, hMark⟩⟩, ?_⟩
    rintro place ⟨hRetains, hHosts⟩
    cases place with
    | scalar other =>
        obtain ⟨found, hFound⟩ := hAudited.declared_scalar_iff.mpr hRetains
        rw [← hSame] at hFound
        obtain ⟨kind, hOther⟩ := (hosts_scalar_iff hLinked).mp hHosts
        rw [hOther] at hFound
        cases hFound
        rw [mark?_of_declared_scalar hLinked hOther] at hMark
        cases hMark
    | element array number =>
        obtain ⟨kind, other, owns, hFound, hElement⟩ := hosts_element_iff.mp hHosts
        rw [hMark] at hElement
        cases hElement
        rw [hSame] at hFound
        rw [hAudited.furnished.apart array name kind .array ref hFound hDeclared]

/-- Every retained place has one living value. -/
theorem existsUnique_entry {options : GeneratorOptions}
    (hDeclare : (Generating.declareAll program.declarations).run.run (.empty options) =
      (.ok (), opened)) {place : Place} (hRetains : program.Retains (.empty options) place) :
    ∃! entry, entry ∈ compiled.store.arena.entries ∧ compiled.Hosts entry.1 place := by
  have hLinked := hAudited.sound.toLinked
  have hSame := hAudited.same.declared
  obtain ⟨handle, hHosts, hOnly⟩ : ∃ handle, compiled.Hosts handle place ∧
      ∀ other, compiled.Hosts other place → other = handle := by
    cases place with
    | scalar name =>
        obtain ⟨handle, hDeclared⟩ := hAudited.declared_scalar_iff.mpr hRetains
        rw [← hSame] at hDeclared
        refine ⟨handle, (hosts_scalar_iff hLinked).mpr ⟨.scalar, hDeclared⟩, ?_⟩
        intro other hOther
        obtain ⟨kind, hFound⟩ := (hosts_scalar_iff hLinked).mp hOther
        rw [hDeclared] at hFound
        cases hFound
        rfl
    | element array offset =>
        obtain ⟨ref, hDeclared, hKept⟩ := (hAudited.retains_element_iff hDeclare).mp hRetains
        obtain ⟨handle, owns, hMark⟩ := hAudited.element_lives hDeclared hKept
        rw [← hSame] at hDeclared
        refine ⟨handle, hosts_element_iff.mpr ⟨.array, ref, owns, hDeclared, hMark⟩, ?_⟩
        intro other hOther
        obtain ⟨kind, found, owned, hFound, hElement⟩ := hosts_element_iff.mp hOther
        rw [hDeclared] at hFound
        cases hFound
        exact hAudited.books.balanced.unique other handle ref offset owned owns hElement hMark
  obtain ⟨value, hLive⟩ : ∃ value, compiled.store.arena.get? handle = some value := by
    cases place with
    | scalar name =>
        obtain ⟨_, value, -, -, hLive⟩ := hHosts
        exact ⟨value, hLive⟩
    | element array offset =>
        obtain ⟨_, _, value, _, -, -, hLive, -⟩ := hHosts
        exact ⟨value, hLive⟩
  refine ⟨(handle, value), ⟨(Arena.mem_entries_iff hLinked.arena).mpr hLive, hHosts⟩, ?_⟩
  rintro ⟨other, content⟩ ⟨hEntry, hOther⟩
  have hOther : other = handle := hOnly other hOther
  have hFound := (Arena.mem_entries_iff hLinked.arena).mp hEntry
  rw [hOther, hLive] at hFound
  rw [hOther, Option.some.inj hFound]

end Audited

/-! ### Every command and every program -/

structure Reconciled (start settled : Context) (names : List String) : Prop where
  symmetric : settled.store.asymmetry? = none
  released : settled.store.heldRegisters = []
  orderly : settled.disorder? = none
  elements : ∀ handle value element, settled.store.arena.get? handle = some value →
    value.payload = .element element → element.index = none
  labels : settled.labels = start.labels
  depth : settled.depth = start.depth
  loops : settled.loops = start.loops
  names : ∀ name, (settled.store.symbols.lookup? name).isSome = true ↔ name ∈ names

private theorem Standing.reconciled {opened start : Context} {bases : Bases}
    {declarations : List Declaration} {iterators : List String}
    (hStanding : opened.Standing start bases ⟨declarations, iterators⟩) {command : Command}
    {compiled settled : Context}
    (hCompile : (Generating.compileCommand command).run.run start = (.ok (), compiled))
    (hSettle : Generating.tidyUp.run.run compiled = (.ok (), settled)) :
    Reconciled start settled (declarations.map Declaration.name ++ iterators) := by
  obtain ⟨-, hCompiles⟩ := settles_of_runs hStanding.prepared hCompile hSettle
  obtain ⟨hSettled, hDynamics⟩ := Generating.standing_of_settle hStanding hCompile hSettle
  have hTidy := hSettled.prepared.toTidy
  constructor
  · exact hTidy.store.paired.asymmetry?_eq_none
  · exact hTidy.heldRegisters_eq_nil
  · exact hTidy.disorder?_eq_none
  · exact fun _ _ _ hLive hElement => hSettled.balanced.index_eq_none hDynamics hLive hElement
  · exact hCompiles.labels
  · exact hCompiles.depth
  · exact hCompiles.loops
  · intro name
    have hNone := (hSettled.scopes.role?_eq_none_iff name).symm.trans (Names.role?_eq_none_iff _ name)
    rw [← Option.not_isSome_iff_eq_none] at hNone
    simp only [setting, Store.setting, Option.isSome_map] at hNone
    exact not_iff_not.mp hNone

/-- Every command that is visited is compiled between two others. -/
theorem standing_of_visitsIn {options : GeneratorOptions}
    (hRegisters : GeneratorOptions.leastRegisters ≤ options.registers)
    (hLayout : options.layout.fault? = none) {program : Program} {names : List String}
    {command : Command} {start : Context}
    (hVisits : Generating.VisitsIn program (.empty options) names command start) :
    ∃ opened bases, Standing opened start bases ⟨program.declarations, names⟩ := by
  obtain ⟨opened, hDeclare, hVisits⟩ := hVisits
  have hOpening := ((declareAll_ensures (opening_empty hRegisters hLayout)
    (Generating.named_of_declareAll hDeclare)).of_run hDeclare).1
  have hFurnished := Generating.declareAll_furnished (opening_empty hRegisters hLayout)
    (furnished_empty options) hDeclare
  have hStanding := hVisits.standing (standing_of_opening hOpening hFurnished)
  rw [List.append_nil] at hStanding
  exact ⟨opened, _, hStanding⟩

/-- After every command that is compiled and settled, at any depth, the registers are in order,
no element that is addressed through a variable is left, and names, labels and depth are what
they were.  When a program is compiled, the values that live are those of the places it retains,
one for each. -/
theorem generate_keeps_books {options : GeneratorOptions} {context : Context}
    (hCreate : create options = .ok context) (program : Program) :
    (∀ names command start compiled settled,
      Generating.VisitsIn program context names command start →
      (Generating.compileCommand command).run.run start = (.ok (), compiled) →
      Generating.tidyUp.run.run compiled = (.ok (), settled) →
      Reconciled start settled (program.declarations.map Declaration.name ++ names)) ∧
    ∀ after, context.generate program = (.ok (), after) →
      (∀ entry ∈ after.store.arena.entries,
        ∃! place, program.Retains context place ∧ after.Hosts entry.1 place) ∧
      ∀ place, program.Retains context place →
        ∃! entry, entry ∈ after.store.arena.entries ∧ after.Hosts entry.1 place := by
  obtain ⟨hRegisters, hLayout, rfl⟩ := eq_empty_of_create hCreate
  constructor
  · intro names command start compiled settled hVisits hCompile hSettle
    obtain ⟨opened, bases, hStanding⟩ := standing_of_visitsIn hRegisters hLayout hVisits
    exact hStanding.reconciled hCompile hSettle
  · intro after hGenerate
    obtain ⟨opened, compiled, hDeclare, hCompile, rfl⟩ := exists_of_generate hGenerate
    have hAudited := audited_of_runs hRegisters hLayout hDeclare hCompile
    constructor
    · rintro ⟨handle, value⟩ hEntry
      apply hAudited.existsUnique_place hDeclare
      exact (Arena.mem_entries_iff hAudited.sound.arena).mp hEntry
    · exact fun place hRetains => hAudited.existsUnique_entry hDeclare hRetains

def tabulate : Program :=
  let number : Reference := ⟨default, "n", none⟩
  let cell (index : String) : Reference := ⟨default, "t", some (.name default index)⟩
  ⟨default, [⟨default, "n", none⟩, ⟨default, "t", some 3⟩],
    [ .assign default number (.atom default (.number default 1)),
      .assign default (cell "n") (.atom default (.number default 2)),
      .forLoop default "i" (.number default 0) (.number default 2) .up
        [.assign default (cell "i") (.atom default (.reference number))] ]⟩

theorem tabulate_keeps_books : ∃ after start settled,
    (empty .standard).generate tabulate = (.ok (), after) ∧
    (∃ command, Generating.VisitsIn tabulate (empty .standard) ["i"] command start) ∧
    Reconciled start settled ["n", "t", "i"] ∧ after.store.arena.live = 3 ∧
    (∀ entry ∈ after.store.arena.entries,
      ∃! place, tabulate.Retains (empty .standard) place ∧ after.Hosts entry.1 place) ∧
    ∃! entry, entry ∈ after.store.arena.entries ∧ after.Hosts entry.1 (.element "t" 0) := by
  have hCreate : create .standard = .ok (empty .standard) := rfl
  obtain ⟨hCommands, hValues⟩ := generate_keeps_books hCreate tabulate
  obtain ⟨after, hGenerate, hLive⟩ : ∃ after, (empty .standard).generate tabulate =
      (.ok (), after) ∧ after.store.arena.live = 3 := by
    refine ⟨_, Generating.run_eq_ok_of_isSome ?_, ?_⟩
    all_goals decide +kernel
  -- Inside the loop its variable has a name, besides those declared.
  obtain ⟨command, start, hVisits, compiled, hCompile, settled, hSettle⟩ : ∃ command start,
      Generating.VisitsIn tabulate (empty .standard) ["i"] command start ∧
      ∃ compiled, (Generating.compileCommand command).run.run start = (.ok (), compiled) ∧
      ∃ settled, Generating.tidyUp.run.run compiled = (.ok (), settled) := by
    refine ⟨_, _, ⟨_, Generating.run_eq_ok_of_isSome ?_, .later_of_isSome ?_ ?_
      (.later_of_isSome ?_ ?_ (.inside_of_isSome List.mem_cons_self ?_ .here rfl))⟩,
      _, Generating.run_eq_ok_of_isSome ?_, _, Generating.run_eq_ok_of_isSome ?_⟩
    all_goals decide +kernel
  have hReconciled := hCommands ["i"] command start compiled settled hVisits hCompile hSettle
  obtain ⟨hPlaces, hEntries⟩ := hValues after hGenerate
  have hFirst : tabulate.Retains (empty .standard) (.element "t" 0) :=
    ⟨⟨⟨default, "t", some 3⟩, by simp [tabulate], rfl, nofun⟩, .inl rfl⟩
  exact ⟨after, start, settled, hGenerate, ⟨command, hVisits⟩, hReconciled, hLive, hPlaces,
    hEntries _ hFirst⟩

end Context

end RegisterCompiler
