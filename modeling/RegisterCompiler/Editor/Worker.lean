/-
The worker that looks at documents one at a time.

Callers put their jobs into a queue of limited length and wait for the answer.
The worker takes the jobs in order.  Once it has been told to stop, callers may be
turned away and the worker may leave, each at a moment of its own choice: as long
as there is room, a caller can also still put in a job, and as long as there are
jobs, the worker can also still take one.
-/

set_option autoImplicit false

namespace RegisterCompiler
namespace Editor

inductive Job (α : Type) where
  | result (value : α)
  | crash (text : String)
deriving Repr, DecidableEq, Inhabited

namespace Job

def execute {α : Type} : Job α → Except String α
  | result value => .ok value
  | crash text => .error text

end Job

structure Submission (ι : Type) where
  caller : Nat
  job : ι
deriving Repr, DecidableEq, Inhabited

structure Answer (ρ : Type) where
  caller : Nat
  outcome : ρ
deriving Repr, DecidableEq, Inhabited

/-- The queue of a worker, the answers given so far in order, and the callers
turned away. -/
structure Worker (ι ρ : Type) where
  queue : List (Submission ι)
  answers : List (Answer ρ)
  refused : List Nat
  isStopped : Bool
  hasLeft : Bool
deriving Repr, DecidableEq, Inhabited

inductive WorkerEvent (ι : Type) where
  | submit (submission : Submission ι)
  | refuse (caller : Nat)
  | serve
  | stop
  | leave
deriving Repr, DecidableEq, Inhabited

namespace Worker

def capacity : Nat := 64

def stoppedMessage : String := "worker stopped"

variable {ι ρ : Type}

def idle : Worker ι ρ := ⟨[], [], [], false, false⟩

def step? (execute : ι → ρ) (worker : Worker ι ρ) : WorkerEvent ι → Option (Worker ι ρ)
  | .submit submission =>
      if worker.queue.length < capacity then
        some { worker with queue := worker.queue ++ [submission] }
      else none
  | .refuse caller =>
      if worker.isStopped then some { worker with refused := worker.refused ++ [caller] }
      else none
  | .serve =>
      match worker.hasLeft, worker.queue with
      | false, next :: rest =>
          let answer : Answer ρ := ⟨next.caller, execute next.job⟩
          some { worker with queue := rest, answers := worker.answers ++ [answer] }
      | _, _ => none
  | .stop => if worker.isStopped then none else some { worker with isStopped := true }
  | .leave =>
      if worker.isStopped && !worker.hasLeft then some { worker with hasLeft := true } else none

def run? (execute : ι → ρ) (worker : Worker ι ρ) (events : List (WorkerEvent ι)) :
    Option (Worker ι ρ) :=
  events.foldlM (step? execute) worker

/-- The events of callers who come one after the other, each when the one before
has been answered. -/
def inTurn (jobs : List ι) : List (WorkerEvent ι) :=
  jobs.zipIdx.flatMap fun (job, caller) => [.submit ⟨caller, job⟩, .serve]

def answerAll (execute : ι → ρ) (jobs : List ι) : List ρ :=
  ((idle.run? execute (inTurn jobs)).elim [] Worker.answers).map Answer.outcome

end Worker

end Editor
end RegisterCompiler
