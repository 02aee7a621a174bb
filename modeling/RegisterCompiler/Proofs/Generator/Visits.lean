/-
The commands of a program, one by one.

A command is compiled behind everything that stands before it: behind the commands before
it in its list, each settled, and behind the opening code of the constructs around it.  A
visit is a command, at any depth, with the context in which its compilation begins and the
variables of the loops around it.
-/

import RegisterCompiler.Proofs.Generator.Bodies
import RegisterCompiler.Proofs.Generator.Routine

set_option autoImplicit false

namespace RegisterCompiler

namespace Generating

/-- While commands are compiled from a context on, a command is compiled from another one on,
inside the loops with the given variables, the innermost first. -/
inductive Visits : List Command → Context → List String → Command → Context → Prop
  | here {command : Command} {rest : List Command} {context : Context} :
      Visits (command :: rest) context [] command context
  | later {first command : Command} {rest : List Command} {names : List String}
      {context compiled settled start : Context}
      (hCompile : (compileCommand first).run.run context = (.ok (), compiled))
      (hSettle : tidyUp.run.run compiled = (.ok (), settled))
      (hRest : Visits rest settled names command start) :
      Visits (first :: rest) context names command start
  | inside {first command : Command} {rest : List Command} {names : List String}
      {context inner start : Context} {body : Body} {note : body.Note}
      (hBody : body ∈ first.bodies)
      (hLead : body.lead.run.run context = (.ok note, inner))
      (hInside : Visits body.commands inner names command start) :
      Visits (first :: rest) context (names ++ body.names) command start

def VisitsIn (program : Program) (context : Context) (names : List String) (command : Command)
    (start : Context) : Prop :=
  ∃ opened, (declareAll program.declarations).run.run context = (.ok (), opened) ∧
    Visits program.body opened names command start

variable {commands : List Command} {context start compiled after : Context} {names : List String}
  {command : Command}

theorem run_eq_of_isSome {α : Type} {action : Generating α} {context : Context}
    (hRun : (action.run.run context).1.toOption.isSome = true) :
    ∃ value, action.run.run context = (.ok value, (action.run.run context).2) := by
  rcases hResult : (action.run.run context).1 with fault | value
  · rw [hResult] at hRun
    contradiction
  · exact ⟨value, Prod.ext hResult rfl⟩

theorem run_eq_ok_of_isSome {action : Generating Unit} {context : Context}
    (hRun : (action.run.run context).1.toOption.isSome = true) :
    action.run.run context = (.ok (), (action.run.run context).2) :=
  (run_eq_of_isSome hRun).elim fun _ hSame => hSame

/-- What follows a command that can be compiled and settled is visited behind it. -/
theorem Visits.later_of_isSome {first : Command} {rest : List Command}
    (hCompile : ((compileCommand first).run.run context).1.toOption.isSome = true)
    (hSettle : (tidyUp.run.run ((compileCommand first).run.run context).2).1.toOption.isSome = true)
    (hRest : Visits rest (tidyUp.run.run ((compileCommand first).run.run context).2).2 names command
      start) : Visits (first :: rest) context names command start :=
  .later (run_eq_ok_of_isSome hCompile) (run_eq_ok_of_isSome hSettle) hRest

/-- A body is visited behind its opening code. -/
theorem Visits.inside_of_isSome {first : Command} {rest : List Command} {body : Body}
    {all : List String} (hBody : body ∈ first.bodies)
    (hLead : (body.lead.run.run context).1.toOption.isSome = true)
    (hInside : Visits body.commands (body.lead.run.run context).2 names command start)
    (hNames : all = names ++ body.names) : Visits (first :: rest) context all command start := by
  obtain ⟨note, hLead⟩ := run_eq_of_isSome hLead
  rw [hNames]
  exact .inside hBody hLead hInside

/-- Commands are compiled one after the other, each settled before the next. -/
theorem exists_of_compileCommands_cons {first : Command} {rest : List Command}
    (hRun : (compileCommands (first :: rest)).run.run context = (.ok (), after)) :
    ∃ compiled settled, (compileCommand first).run.run context = (.ok (), compiled) ∧
      tidyUp.run.run compiled = (.ok (), settled) ∧
      (compileCommands rest).run.run settled = (.ok (), after) := by
  rw [compileCommands] at hRun
  obtain ⟨_, compiled, hFirst, hRun⟩ := exists_of_run_bind hRun
  obtain ⟨_, settled, hSettle, hRest⟩ := exists_of_run_bind hRun
  exact ⟨compiled, settled, hFirst, hSettle, hRest⟩

theorem Visits.logs (hVisits : Visits commands context names command start)
    (hCompile : (compileCommand command).run.run start = (.ok (), compiled))
    (hRun : (compileCommands commands).run.run context = (.ok (), after)) :
    compiled.Logs after := by
  induction hVisits generalizing after with
  | here =>
      obtain ⟨_, settled, hFirst, hSettle, hRest⟩ := exists_of_compileCommands_cons hRun
      rw [hCompile] at hFirst
      cases hFirst
      exact (logs_of_run hSettle).trans (logs_of_run hRest)
  | later hFirst hSettle _ inductionHypothesis =>
      obtain ⟨_, _, hFirstToo, hSettleToo, hRest⟩ := exists_of_compileCommands_cons hRun
      rw [hFirst] at hFirstToo
      cases hFirstToo
      rw [hSettle] at hSettleToo
      cases hSettleToo
      exact inductionHypothesis hCompile hRest
  | inside hBody hLead _ inductionHypothesis =>
      obtain ⟨_, settled, hFirst, hSettle, hRest⟩ := exists_of_compileCommands_cons hRun
      obtain ⟨_, _, bodied, hLeadToo, hCommands, hTrail⟩ := exists_of_compileCommand hFirst hBody
      rw [hLead] at hLeadToo
      cases hLeadToo
      have hTrailing := trail_routine hBody
      apply (inductionHypothesis hCompile hCommands).trans
      exact (logs_of_run hTrail).trans ((logs_of_run hSettle).trans (logs_of_run hRest))

end Generating

end RegisterCompiler
