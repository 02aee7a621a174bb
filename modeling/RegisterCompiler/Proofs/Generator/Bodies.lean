/-
The commands inside a command.

A construct is compiled as some code, the commands of a body, and some more code.  What is
compiled successfully has successfully compiled bodies, at every depth.
-/

import RegisterCompiler.Proofs.Generator.Ensures

set_option autoImplicit false

namespace RegisterCompiler

open Generating

/-- The commands of a body, the code in front of them and the code behind them.  The names are
the loop variables that are declared around them. -/
structure Body where
  Note : Type
  lead : Generating Note
  names : List String
  commands : List Command
  trail : Note → Generating Unit

namespace Body

def compile (body : Body) : Generating Unit := do
  let note ← body.lead
  compileCommands body.commands
  body.trail note

end Body

namespace Generating

def descend : Generating Unit :=
  modify fun context => { context with depth := context.depth + 1 }

def ascend : Generating Unit :=
  modify fun context => { context with depth := context.depth - 1 }

def switchBranch : Generating Unit := do
  clearCache
  let leave ← emitJump .jump []
  landHere
  openLabel .ending leave

def leaveBranch : Generating Unit := do
  clearCache
  landHere
  ascend

end Generating

namespace Command

def bodies : Command → List Body
  | .assign .. | .read .. | .write .. | .skip _ => []
  | .ifThen _ condition body =>
      [⟨Unit, do testCondition condition; descend, [], body, fun _ => leaveBranch⟩]
  | .ifElse _ condition body orElse =>
      [⟨Unit, do testCondition condition; descend, [], body,
          fun _ => do switchBranch; compileCommands orElse; leaveBranch⟩,
        ⟨Unit, do testCondition condition; descend; compileCommands body; switchBranch, [], orElse,
          fun _ => leaveBranch⟩]
  | .whileLoop _ condition body =>
      [⟨Nat, do
          clearCache
          forgetPointer
          let start ← nextLine
          descend
          testCondition condition
          return start, [], body,
        fun start => do
          clearCache
          emit (.jump start)
          landHere
          ascend⟩]
  | .forLoop span iterator first last direction body =>
      [⟨LoopCells × Nat, do
          let cells ← openLoop span.first iterator first last direction
          clearCache
          forgetPointer
          let start ← nextLine
          descend
          testLoop cells
          return (cells, start), [iterator], body,
        fun (cells, start) => do
          clearCache
          stepLoop cells direction start
          landHere
          closeLoop iterator cells
          ascend⟩]

theorem compile_eq {command : Command} {body : Body} (hBody : body ∈ command.bodies) :
    compileCommand command = body.compile := by
  cases command with
  | assign => cases hBody
  | read => cases hBody
  | write => cases hBody
  | skip => cases hBody
  | ifThen span condition commands =>
      rw [List.mem_singleton.mp hBody, compileCommand]
      simp only [Body.compile, nested, leaveBranch, descend, ascend, bind_assoc, bind_pure_comp,
        id_map']
  | ifElse span condition commands orElse =>
      rw [compileCommand]
      simp only [bodies, List.mem_cons, List.not_mem_nil, or_false] at hBody
      rcases hBody with rfl | rfl
      all_goals
        simp only [Body.compile, nested, leaveBranch, switchBranch, descend, ascend, bind_assoc,
          bind_pure_comp, id_map']
  | whileLoop span condition commands =>
      rw [List.mem_singleton.mp hBody, compileCommand]
      simp only [Body.compile, nested, descend, ascend, bind_assoc, bind_pure_comp, bind_map_left,
        id_map']
  | forLoop span iterator first last direction commands =>
      rw [List.mem_singleton.mp hBody, compileCommand]
      simp only [Body.compile, nested, descend, ascend, bind_assoc, bind_pure_comp, bind_map_left,
        id_map']

end Command

namespace Generating

variable {context after : Context}

theorem exists_of_compileCommand {command : Command}
    (hRun : (compileCommand command).run.run context = (.ok (), after)) {body : Body}
    (hBody : body ∈ command.bodies) : ∃ note inside bodied,
      body.lead.run.run context = (.ok note, inside) ∧
        (compileCommands body.commands).run.run inside = (.ok (), bodied) ∧
        (body.trail note).run.run bodied = (.ok (), after) := by
  rw [Command.compile_eq hBody] at hRun
  obtain ⟨note, inside, hLead, hRun⟩ := exists_of_run_bind hRun
  obtain ⟨_, bodied, hCommands, hTrail⟩ := exists_of_run_bind hRun
  exact ⟨note, inside, bodied, hLead, hCommands, hTrail⟩

end Generating

/-! ### Names -/

namespace Command

mutual

def Named : Command → Prop
  | .assign .. | .read .. | .write .. | .skip _ => True
  | .ifThen _ _ body | .whileLoop _ _ body => AllNamed body
  | .ifElse _ _ body orElse => AllNamed body ∧ AllNamed orElse
  | .forLoop _ iterator _ _ _ body => iterator ≠ "" ∧ AllNamed body

def AllNamed : List Command → Prop
  | [] => True
  | command :: rest => Named command ∧ AllNamed rest

end

end Command

structure Program.Named (program : Program) : Prop where
  declarations : ∀ declaration ∈ program.declarations, declaration.name ≠ ""
  body : Command.AllNamed program.body

namespace Generating

def Fails {α : Type} (action : Generating α) : Prop :=
  ∀ context value after, action.run.run context ≠ (.ok value, after)

namespace Fails

variable {α β : Type} {action : Generating α} {next : α → Generating β}

private theorem left (hFails : Fails action) : Fails (action >>= next) := by
  intro context value after hRun
  obtain ⟨found, middle, hFirst, -⟩ := exists_of_run_bind hRun
  exact hFails context found middle hFirst

theorem right (hFails : ∀ value, Fails (next value)) : Fails (action >>= next) := by
  intro context value after hRun
  obtain ⟨found, middle, -, hSecond⟩ := exists_of_run_bind hRun
  exact hFails found middle value after hSecond

private theorem refuse (position : Source.Position) (misuse : Misuse) :
    Fails (refuse position misuse : Generating α) := by
  intro context value after hRun
  cases hRun

private theorem declare (kind : SymbolKind) (binding : Binding) :
    Fails (onStore (StoreAction.declare "" kind binding)) := by
  intro context value after hRun
  rw [Ensures.run_onStore] at hRun
  cases hRun

end Fails

theorem openLoop_fails (position : Source.Position) (first last : Atom) (direction : Direction) :
    Fails (openLoop position "" first last direction) := by
  refine .right fun context => ?_
  by_cases hTaken : (context.store.symbols.lookup? "").isSome = true
  · simp only [hTaken, if_true]
    exact .left (.refuse _ _)
  · simp only [hTaken]
    exact .right fun _ => .right fun _ => .right fun _ => .right fun _ => .right fun _ =>
      .right fun _ => .right fun _ => .right fun _ => .right fun _ => .left (.declare _ _)

theorem declareName_fails {declaration : Declaration} (hName : declaration.name = "") :
    Fails (declareName declaration) := by
  refine .right fun context => ?_
  rw [hName]
  by_cases hTaken : (context.store.symbols.lookup? "").isSome = true
  · simp only [hTaken, if_true]
    exact .left (.refuse _ _)
  · simp only [hTaken]
    cases declaration.length with
    | none => exact .right fun _ => .right fun _ => .left (.declare _ _)
    | some length =>
        by_cases hZero : length = 0
        · simp only [hZero, if_true]
          exact .left (.refuse _ _)
        · simp only [hZero, if_false]
          refine .right fun ref => .right fun _ => .right fun _ => .right fun found => ?_
          by_cases hBig : (found.store.arena.array ref).kind = .big
          · simp only [hBig, if_true]
            exact .right fun _ => .left (.declare _ _)
          · simp only [hBig, if_false]
            exact .left (.declare _ _)

mutual

theorem named_of_compileCommand {command : Command} {context after : Context}
    (hRun : (compileCommand command).run.run context = (.ok (), after)) : command.Named := by
  cases command with
  | assign => trivial
  | read => trivial
  | write => trivial
  | skip => trivial
  | ifThen span condition body =>
      obtain ⟨_, _, _, -, hBody, -⟩ := exists_of_compileCommand hRun List.mem_cons_self
      exact named_of_compileCommands hBody
  | ifElse span condition body orElse =>
      obtain ⟨_, _, _, -, hBody, -⟩ := exists_of_compileCommand hRun List.mem_cons_self
      obtain ⟨_, _, _, -, hOrElse, -⟩ := exists_of_compileCommand hRun
        (List.mem_cons_of_mem _ List.mem_cons_self)
      exact ⟨named_of_compileCommands hBody, named_of_compileCommands hOrElse⟩
  | whileLoop span condition body =>
      obtain ⟨_, _, _, -, hBody, -⟩ := exists_of_compileCommand hRun List.mem_cons_self
      exact named_of_compileCommands hBody
  | forLoop span iterator first last direction body =>
      obtain ⟨_, _, _, hLead, hBody, -⟩ := exists_of_compileCommand hRun List.mem_cons_self
      refine ⟨?_, named_of_compileCommands hBody⟩
      rintro rfl
      exact Fails.left (openLoop_fails span.first first last direction) _ _ _ hLead

theorem named_of_compileCommands {commands : List Command} {context after : Context}
    (hRun : (compileCommands commands).run.run context = (.ok (), after)) :
    Command.AllNamed commands := by
  cases commands with
  | nil => trivial
  | cons command rest =>
      rw [compileCommands] at hRun
      obtain ⟨_, _, hFirst, hRun⟩ := exists_of_run_bind hRun
      obtain ⟨_, _, -, hRest⟩ := exists_of_run_bind hRun
      exact ⟨named_of_compileCommand hFirst, named_of_compileCommands hRest⟩

end

theorem named_of_declareAll {declarations : List Declaration} {context after : Context}
    (hRun : (declareAll declarations).run.run context = (.ok (), after)) :
    ∀ declaration ∈ declarations, declaration.name ≠ "" := by
  induction declarations generalizing context with
  | nil => exact fun _ hNone => absurd hNone List.not_mem_nil
  | cons declaration rest inductionHypothesis =>
      rw [declareAll] at hRun
      obtain ⟨_, _, hFirst, hRest⟩ := exists_of_run_bind hRun
      refine List.forall_mem_cons.mpr ⟨fun hName => ?_, inductionHypothesis hRest⟩
      exact declareName_fails hName _ _ _ hFirst

end Generating

end RegisterCompiler
