/-
What becomes of the jobs of a worker.

As long as the worker has not left, every job that was put in is answered or waits, and can
still be answered.  Answers are given in the order of the jobs, each once, with its own outcome
to its own caller.  A worker that was told to stop may leave while jobs wait, and callers may
put in jobs after it has left; these jobs, and no others, are never answered.
-/

import RegisterCompiler.Editor.Worker

set_option autoImplicit false

namespace RegisterCompiler
namespace Editor

variable {ι ρ : Type} {execute : ι → ρ}

def Submission.answer (execute : ι → ρ) (submission : Submission ι) : Answer ρ :=
  ⟨submission.caller, execute submission.job⟩

namespace WorkerEvent

def submission? : WorkerEvent ι → Option (Submission ι)
  | submit submission => some submission
  | _ => none

def submissions (events : List (WorkerEvent ι)) : List (Submission ι) :=
  events.filterMap submission?

end WorkerEvent

open WorkerEvent (submissions)

namespace Worker

variable {worker after later : Worker ι ρ} {event : WorkerEvent ι}
  {events more : List (WorkerEvent ι)}

/-! ### Events -/

inductive Moves (execute : ι → ρ) (worker : Worker ι ρ) : WorkerEvent ι → Worker ι ρ → Prop where
  | submit (submission : Submission ι) (hRoom : worker.queue.length < capacity) :
      Moves execute worker (.submit submission)
        { worker with queue := worker.queue ++ [submission] }
  | refuse (caller : Nat) (hStopped : worker.isStopped = true) :
      Moves execute worker (.refuse caller) { worker with refused := worker.refused ++ [caller] }
  | serve (next : Submission ι) (rest : List (Submission ι)) (hPresent : worker.hasLeft = false)
      (hQueue : worker.queue = next :: rest) :
      Moves execute worker .serve
        { worker with queue := rest, answers := worker.answers ++ [next.answer execute] }
  | stop (hRunning : worker.isStopped = false) :
      Moves execute worker .stop { worker with isStopped := true }
  | leave (hStopped : worker.isStopped = true) (hPresent : worker.hasLeft = false) :
      Moves execute worker .leave { worker with hasLeft := true }

private theorem moves_of_step? (hStep : worker.step? execute event = some after) :
    worker.Moves execute event after := by
  cases event with
  | submit submission =>
      rcases Option.ite_none_right_eq_some.mp hStep with ⟨hRoom, hAfter⟩
      cases hAfter
      exact .submit submission hRoom
  | refuse caller =>
      rcases Option.ite_none_right_eq_some.mp hStep with ⟨hStopped, hAfter⟩
      cases hAfter
      exact .refuse caller hStopped
  | serve =>
      simp only [step?] at hStep
      split at hStep
      · rename_i next rest hPresent hQueue
        cases hStep
        exact .serve next rest hPresent hQueue
      · contradiction
  | stop =>
      rcases Option.ite_none_left_eq_some.mp hStep with ⟨hRunning, hAfter⟩
      cases hAfter
      exact .stop (Bool.eq_false_iff.mpr hRunning)
  | leave =>
      rcases Option.ite_none_right_eq_some.mp hStep with ⟨hBoth, hAfter⟩
      cases hAfter
      simp only [Bool.and_eq_true, Bool.not_eq_true'] at hBoth
      exact .leave hBoth.1 hBoth.2

private theorem run?_cons_eq_some_iff : worker.run? execute (event :: events) = some later ↔
    ∃ after, worker.step? execute event = some after ∧
      after.run? execute events = some later := by
  rw [run?, List.foldlM_cons]
  exact Option.bind_eq_some_iff

/-! ### Waiting and answered jobs -/

/-- The jobs that were put in are those that were answered, in order, and those that wait. -/
structure Accounts (execute : ι → ρ) (jobs : List (Submission ι)) (worker : Worker ι ρ) : Prop where
  split : ∃ served, jobs = served ++ worker.queue ∧
    worker.answers = served.map (Submission.answer execute)
  short : worker.queue.length ≤ capacity
  leaves : worker.hasLeft = true → worker.isStopped = true
  refuses : worker.refused ≠ [] → worker.isStopped = true

private theorem accounts_idle : (idle : Worker ι ρ).Accounts execute [] where
  split := ⟨[], rfl, rfl⟩
  short := Nat.zero_le _
  leaves := fun hLeft => hLeft
  refuses := fun hRefused => absurd rfl hRefused

private theorem Accounts.moves {jobs : List (Submission ι)}
    (hAccounts : worker.Accounts execute jobs) (hMoves : worker.Moves execute event after) :
    after.Accounts execute (jobs ++ event.submission?.toList) := by
  rcases hAccounts with ⟨⟨served, hJobs, hAnswers⟩, hShort, hLeaves, hRefuses⟩
  cases hMoves with
  | submit submission hRoom =>
      refine ⟨⟨served, ?_, hAnswers⟩, ?_, hLeaves, hRefuses⟩
      · rw [hJobs, List.append_assoc]
        rfl
      · simp only [List.length_append, List.length_singleton]
        exact hRoom
  | refuse caller hStopped =>
      change Accounts execute (jobs ++ []) _
      rw [List.append_nil]
      exact ⟨⟨served, hJobs, hAnswers⟩, hShort, hLeaves, fun _ => hStopped⟩
  | serve next rest hPresent hQueue =>
      -- The job that has waited longest is the next one served.
      refine ⟨⟨served ++ [next], ?_, ?_⟩, ?_, hLeaves, hRefuses⟩
      · rw [hJobs, hQueue]
        simp [WorkerEvent.submission?]
      · rw [hAnswers, List.map_append]
        rfl
      · rw [hQueue] at hShort
        exact Nat.le_of_succ_le hShort
  | stop hRunning =>
      change Accounts execute (jobs ++ []) _
      rw [List.append_nil]
      exact ⟨⟨served, hJobs, hAnswers⟩, hShort, fun _ => rfl, fun _ => rfl⟩
  | leave hStopped hPresent =>
      change Accounts execute (jobs ++ []) _
      rw [List.append_nil]
      exact ⟨⟨served, hJobs, hAnswers⟩, hShort, fun _ => hStopped, hRefuses⟩

private theorem submissions_cons (event : WorkerEvent ι) (events : List (WorkerEvent ι)) :
    submissions (event :: events) = event.submission?.toList ++ submissions events := by
  cases event <;> rfl

private theorem Accounts.run {jobs : List (Submission ι)} (hAccounts : worker.Accounts execute jobs)
    (hRun : worker.run? execute events = some later) :
    later.Accounts execute (jobs ++ submissions events) := by
  induction events generalizing worker jobs with
  | nil =>
      cases hRun
      rw [submissions, List.filterMap_nil, List.append_nil]
      exact hAccounts
  | cons event events inductionHypothesis =>
      rcases run?_cons_eq_some_iff.mp hRun with ⟨after, hStep, hRest⟩
      rw [submissions_cons, ← List.append_assoc]
      exact inductionHypothesis (hAccounts.moves (moves_of_step? hStep)) hRest

private theorem serve_all (hPresent : worker.hasLeft = false) :
    worker.run? execute (List.replicate worker.queue.length .serve) =
      some { worker with
        queue := []
        answers := worker.answers ++ worker.queue.map (Submission.answer execute) } := by
  rcases worker with ⟨queue, answers, refused, isStopped, hasLeft⟩
  cases hPresent
  induction queue generalizing answers with
  | nil =>
      rw [List.map_nil, List.append_nil]
      rfl
  | cons next rest inductionHypothesis =>
      rw [List.length_cons, List.replicate_succ, run?_cons_eq_some_iff]
      refine ⟨_, rfl, ?_⟩
      rw [inductionHypothesis, List.append_assoc]
      rfl

/-! ### After the worker has left -/

theorem left_of_moves (hLeft : worker.hasLeft = true) (hMoves : worker.Moves execute event after) :
    after.hasLeft = true ∧ after.answers = worker.answers ∧
      after.queue = worker.queue ++ event.submission?.toList := by
  cases hMoves with
  | submit submission hRoom => exact ⟨hLeft, rfl, rfl⟩
  | refuse caller hStopped => exact ⟨hLeft, rfl, (List.append_nil _).symm⟩
  | serve next rest hPresent hQueue =>
      rw [hLeft] at hPresent
      contradiction
  | stop hRunning => exact ⟨hLeft, rfl, (List.append_nil _).symm⟩
  | leave hStopped hPresent => exact ⟨rfl, rfl, (List.append_nil _).symm⟩

private theorem left_of_run (hLeft : worker.hasLeft = true)
    (hRun : worker.run? execute more = some later) :
    later.answers = worker.answers ∧ later.queue = worker.queue ++ submissions more := by
  induction more generalizing worker with
  | nil =>
      cases hRun
      exact ⟨rfl, (List.append_nil _).symm⟩
  | cons event more inductionHypothesis =>
      rcases run?_cons_eq_some_iff.mp hRun with ⟨after, hStep, hRest⟩
      rcases left_of_moves hLeft (moves_of_step? hStep) with ⟨hStill, hAnswers, hQueue⟩
      rcases inductionHypothesis hStill hRest with ⟨hLater, hWaiting⟩
      refine ⟨hLater.trans hAnswers, ?_⟩
      rw [hWaiting, hQueue, submissions_cons, List.append_assoc]

/-- In every state of a worker the jobs that were put in are those it has answered, in order
and each once with its own outcome to its own caller, and at most 64 that wait.  While the
worker has not left, all that wait can still be answered.  It leaves only after it was told to
stop, and from then on no job is answered: neither those that wait nor those put in later. -/
theorem run_accounts_for_jobs (hRun : (idle : Worker ι ρ).run? execute events = some worker) :
    (∃ served, submissions events = served ++ worker.queue ∧
      worker.answers = served.map (Submission.answer execute)) ∧
    worker.queue.length ≤ capacity ∧
    (worker.refused ≠ [] → worker.isStopped = true) ∧
    (worker.hasLeft = false →
      ∃ later, worker.run? execute (List.replicate worker.queue.length .serve) = some later ∧
        later.queue = [] ∧
        later.answers = (submissions events).map (Submission.answer execute)) ∧
    (worker.hasLeft = true → worker.isStopped = true ∧
      ∀ more later, worker.run? execute more = some later →
        later.answers = worker.answers ∧ later.queue = worker.queue ++ submissions more) := by
  have hAccounts := accounts_idle.run hRun
  rw [List.nil_append] at hAccounts
  refine ⟨hAccounts.split, hAccounts.short, hAccounts.refuses, ?_, ?_⟩
  · intro hPresent
    refine ⟨_, serve_all hPresent, rfl, ?_⟩
    rcases hAccounts.split with ⟨served, hJobs, hAnswers⟩
    rw [hJobs, List.map_append, ← hAnswers]
  · intro hLeft
    exact ⟨hAccounts.leaves hLeft, fun more later hMore => left_of_run hLeft hMore⟩

/-- Two callers are answered, one of them with the text of a crash, and a third is turned away
before the worker leaves. -/
theorem two_jobs_run_accounts_for_jobs :
    ∃ worker : Worker (Job Nat) (Except String Nat),
      idle.run? Job.execute [.submit ⟨0, .result 5⟩, .submit ⟨1, .crash "stuck"⟩, .serve, .stop,
        .refuse 2, .serve, .leave] = some worker ∧
      worker.answers = [⟨0, .ok 5⟩, ⟨1, .error "stuck"⟩] ∧ worker.queue.length ≤ capacity ∧
      ∀ more later, worker.run? Job.execute more = some later →
        later.answers = [⟨0, .ok 5⟩, ⟨1, .error "stuck"⟩] := by
  let worker : Worker (Job Nat) (Except String Nat) :=
    ⟨[], [⟨0, .ok 5⟩, ⟨1, .error "stuck"⟩], [2], true, true⟩
  have hRun : idle.run? Job.execute [.submit ⟨0, .result 5⟩, .submit ⟨1, .crash "stuck"⟩, .serve,
      .stop, .refuse 2, .serve, .leave] = some worker := rfl
  rcases run_accounts_for_jobs hRun with ⟨-, hShort, -, -, hLeft⟩
  exact ⟨worker, hRun, rfl, hShort, fun more later hMore => ((hLeft rfl).2 more later hMore).1⟩

/-- A job may wait when the worker leaves, and then its caller is never answered. -/
theorem waiting_job_never_answered :
    ∃ worker : Worker (Job Nat) (Except String Nat),
      idle.run? Job.execute [.submit ⟨0, .result 5⟩, .stop, .leave] = some worker ∧
      worker.hasLeft = true ∧ worker.queue = [⟨0, .result 5⟩] ∧ worker.refused = [] ∧
      ∀ more later, worker.run? Job.execute more = some later → later.answers = [] :=
  ⟨_, rfl, rfl, rfl, rfl, fun _ _ hMore => (left_of_run rfl hMore).1⟩

end Worker

end Editor
end RegisterCompiler
