/-
  HttpApp/Worker/Pool.lean --- pools of workers.

  A pool has a queue of jobs and a fixed number of workers.  A worker takes the job
  at the front of the queue, runs it, and is idle again, also when the job panics.
  After a shutdown no job is accepted, and a worker leaves once the queue is empty.
  The first call of a shutdown waits for all workers, the calling one apart; later
  calls wait for none.  The steps of callers and workers can come in any order;
  `step` says what each of them does, and where it is not possible.
-/
import HttpApp.Failure
import HttpApp.Worker.Executor

set_option autoImplicit false

namespace HttpApp

inductive WorkerState (J : Type) where
  | idle
  | running (job : J)
  /-- it has left for good -/
  | gone
  deriving DecidableEq, Repr, Inhabited

/-- A job that was run, and the worker that ran it. -/
structure DoneJob (J : Type) where
  job : J
  worker : Nat
  deriving DecidableEq, Repr, Inhabited

/-- A call of a shutdown. -/
structure Closing where
  /-- the worker that calls, if a worker of the pool does -/
  caller : Option Nat
  /-- the workers that it still waits for -/
  awaited : List Nat
  deriving DecidableEq, Repr, Inhabited

/-- Whether a call of a shutdown has returned. -/
def Closing.returned (c : Closing) : Bool := c.awaited.isEmpty

/-- A pool of workers. -/
structure Pool (J : Type) where
  name : String
  /-- whether jobs are accepted -/
  accepting : Bool := true
  /-- accepted jobs that no worker has taken, in order -/
  queue : List J := []
  workers : List (WorkerState J)
  /-- jobs that were run, in the order in which they ended -/
  finished : List (DoneJob J) := []
  /-- the calls of a shutdown, in order -/
  closings : List Closing := []
  deriving Inhabited

/-- What a caller or a worker does. -/
inductive PoolStep (J : Type) where
  /-- a caller hands a job over -/
  | submit (job : J)
  /-- an idle worker takes the job at the front of the queue -/
  | take (worker : Nat)
  /-- a worker ends its job, by returning or by a panic, unless the job waits for a shutdown -/
  | finish (worker : Nat) (panicked : Bool)
  /-- an idle worker leaves -/
  | leave (worker : Nat)
  /-- a caller shuts the pool down: a worker of the pool, or someone else -/
  | shutdown (caller : Option Nat)
  deriving DecidableEq, Repr, Inhabited

namespace Pool

variable {J : Type}

/-- A pool with idle workers, at least one. -/
def start (name : String) (size : Nat) : Pool J where
  name := name
  workers := List.replicate (max size 1) .idle

/-- Whether the job of a worker waits for a shutdown. -/
def isBlocked (p : Pool J) (i : Nat) : Bool :=
  p.closings.any fun c => c.caller == some i && !c.returned

/-- Whether a worker runs a job. -/
def isRunning (p : Pool J) (i : Nat) : Bool :=
  match p.workers[i]? with
  | some (.running _) => true
  | _ => false

/-- The call of a shutdown, when it begins. -/
def closing (p : Pool J) (caller : Option Nat) : Closing where
  caller := caller
  awaited :=
    if p.accepting then (List.range p.workers.length).filter fun i => caller ≠ some i else []

/-- What a step makes of a pool, where it is possible. -/
def step (p : Pool J) : PoolStep J → Option (Pool J)
  | .submit job => some (if p.accepting then { p with queue := p.queue ++ [job] } else p)
  | .take i =>
    match p.workers[i]?, p.queue with
    | some .idle, job :: queue => some { p with queue, workers := p.workers.set i (.running job) }
    | _, _ => none
  | .finish i _ =>
    match p.workers[i]? with
    | some (.running job) =>
      if p.isBlocked i then none
      else some { p with workers := p.workers.set i .idle, finished := p.finished ++ [⟨job, i⟩] }
    | _ => none
  | .leave i =>
    match p.workers[i]?, p.queue with
    | some .idle, [] =>
      if p.accepting then none
      else
        some { p with
          workers := p.workers.set i .gone
          closings := p.closings.map fun c => { c with awaited := c.awaited.erase i } }
    | _, _ => none
  | .shutdown caller =>
    if caller.all fun i => p.isRunning i && !p.isBlocked i then
      some { p with accepting := false, closings := p.closings ++ [p.closing caller] }
    else none

/-- What several steps make of a pool, where they are possible. -/
def run (p : Pool J) : List (PoolStep J) → Option (Pool J)
  | [] => some p
  | s :: ss => (p.step s).bind fun q => q.run ss

/-- The number of workers that are attached to the pool; a shutdown detaches them all. -/
def attached (p : Pool J) : Nat := if p.accepting then p.workers.length else 0

/-- A pool where records are shown. -/
def shown (p : Pool J) : String :=
  Text.shownRecord "ThreadPool" [("name", Text.quoted p.name), ("size", toString p.attached)] false

/-! ## A schedule -/

/-- The event of a new pool. -/
def startEvent (p : Pool J) : Event :=
  ⟨.debug, "Worker pool started",
    [Event.textField "pool" p.name, Event.numberField "threads" p.workers.length]⟩

/-- The steps of a pool whose first worker does all the work, for one job. -/
def oneJob (job : J) : List (PoolStep J) := [.submit job, .take 0, .finish 0 false]

/-- Hands a job over, which the first worker then runs, and the events of that. -/
def submitAndRun (panic? : J → Option Payload) (p : Pool J) (job : J) : Pool J × List Event :=
  if p.accepting then
    ((p.run (oneJob job)).getD p,
      match panic? job with
      | none => []
      | some x =>
        [⟨.error, "Worker job panicked",
          [Event.textField "worker" (Executor.workerName p.name 0),
            Event.textField "panic" (x.text?.getD "job panicked")]⟩])
  else (p, [Executor.droppedEvent p.name])

/-- Hands several jobs over, one after the other. -/
def submitAll (panic? : J → Option Payload) (p : Pool J) (jobs : List J) : Pool J × List Event :=
  jobs.foldl (fun (q, events) job =>
    let (q, more) := q.submitAndRun panic? job
    (q, events ++ more)) (p, [])

/-- Shuts an idle pool down, and the events of that. -/
def shutdown (p : Pool J) : Pool J × List Event :=
  if p.accepting then
    ((p.run (.shutdown none :: (List.range p.workers.length).map .leave)).getD p,
      [Executor.stoppedEvent p.name])
  else (p, [])

/-- The steps of a pool whose first worker runs a job that shuts the pool down; the worker does
not wait for itself, and leaves behind the job. -/
def shutdownJob (p : Pool J) (job : J) : List (PoolStep J) :=
  .submit job :: .take 0 :: .shutdown (some 0) ::
    (List.range' 1 (p.workers.length - 1)).map .leave ++ [.finish 0 false, .leave 0]

/-- Hands over a job that shuts the pool down, which is idle, and the events of that. -/
def submitShutdown (p : Pool J) (job : J) : Pool J × List Event :=
  if p.accepting then
    ((p.run (p.shutdownJob job)).getD p, [Executor.stoppedEvent p.name])
  else (p, [Executor.droppedEvent p.name])

end Pool

end HttpApp
