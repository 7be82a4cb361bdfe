/-
  HttpApp/Worker/Executor.lean --- executors, which run jobs somewhere.

  An application has named executors and a default one, which is a pool of workers
  unless another one is set.  A pool is reported when it starts, and again when it
  stops because nothing holds it any more.
-/
import HttpApp.Event
import HttpApp.Text.Quoted

set_option autoImplicit false

namespace HttpApp

/-- Where an executor runs its jobs. -/
inductive Placement where
  /-- at once, where the job was handed over -/
  | caller
  /-- on a worker of a pool, which survives panics and reports them by its name -/
  | worker (name : String)
  /-- elsewhere, where panics go unnoticed -/
  | background
  /-- nowhere: the pool is shut down and drops its jobs -/
  | nowhere
  deriving DecidableEq, Repr, Inhabited

structure Executor where
  name : String
  /-- whether it says that its jobs run where they were handed over -/
  inline : Bool
  placement : Placement
  deriving DecidableEq, Repr, Inhabited

namespace Executor

/-- Runs jobs at once. -/
def immediate : Executor := ⟨"inline", true, .caller⟩

/-- Runs jobs at once, but does not say so. -/
def silent : Executor := ⟨"executor", false, .caller⟩

def workerName (pool : String) (index : Nat) : String := pool ++ "-" ++ toString index

def pool (name : String) : Executor := ⟨name, false, .worker (workerName name 0)⟩

/-- A pool of workers that is shut down. -/
def stopped (name : String) : Executor := ⟨name, false, .nowhere⟩

/-- Runs jobs in the background. -/
def background : Executor := ⟨"tokio-blocking", false, .background⟩

def defaultPool : Executor := pool "switchyard-worker"

/-- The event of a pool that starts. -/
def startedEvent (name : String) : Event :=
  ⟨.debug, "Worker pool started", [Event.textField "pool" name]⟩

/-- The event of a pool that stops. -/
def stoppedEvent (name : String) : Event :=
  ⟨.debug, "Worker pool stopped", [Event.textField "pool" name]⟩

/-- The event of a pool that is shut down and drops a job. -/
def droppedEvent (name : String) : Event :=
  ⟨.error, "Worker pool is shut down; job dropped", [Event.textField "pool" name]⟩

/-- Whether jobs run where they are handed over, if they run at all. -/
def runsAtCaller? (x : Executor) : Option Bool :=
  match x.placement with
  | .caller => some true
  | .worker _ | .background => some false
  | .nowhere => none

/-- The events of an executor that drops a job. -/
def dropped (x : Executor) : List Event :=
  match x.placement with
  | .nowhere => [droppedEvent x.name]
  | .caller | .worker _ | .background => []

/-- The events of making an executor. -/
def opening (x : Executor) : List Event :=
  match x.placement with
  | .worker _ => [startedEvent x.name]
  | .nowhere => [startedEvent x.name, stoppedEvent x.name]
  | .caller | .background => []

/-- The events of giving an executor up. -/
def closing (x : Executor) : List Event :=
  match x.placement with
  | .worker _ => [stoppedEvent x.name]
  | .caller | .background | .nowhere => []

end Executor

/-- The executors of an application. -/
structure Workers where
  /-- the default executor, if one was set -/
  default : Option Executor := none
  /-- executors by name, each name once -/
  named : List (String × Executor) := []
  deriving DecidableEq, Repr, Inhabited

namespace Workers

/-- With another default executor, which was made for it, and the events of that. -/
def setDefault (w : Workers) (x : Executor) : Workers × List Event :=
  ({ w with default := some x }, x.opening ++ w.default.toList.flatMap Executor.closing)

/-- With an executor of a name, which was made for it and replaces the one that had the name, and
the events of that. -/
def insert (w : Workers) (name : String) (x : Executor) : Workers × List Event :=
  ({ w with named := (w.named.filter fun e => e.1 != name) ++ [(name, x)] },
    x.opening ++ (w.named.lookup name).toList.flatMap Executor.closing)

/-- The default executor, if one was set, or else the default pool. -/
def defaultExecutor (w : Workers) : Executor := w.default.getD .defaultPool

/-- The executors once the one of a name, or the default one, was asked for, and the events of
that; the default pool is set by its first use. -/
def used (w : Workers) : Option String → Workers × List Event
  | none => if w.default.isNone then w.setDefault .defaultPool else (w, [])
  | some _ => (w, [])

/-- The events of giving all executors up, the default one first. -/
def closing (w : Workers) : List Event :=
  (w.default.toList ++ w.named.map (·.2)).flatMap Executor.closing

/-- The executor of a name, or the default one. -/
def get? (w : Workers) : Option String → Option Executor
  | none => some w.defaultExecutor
  | some name => w.named.lookup name

/-- The executors where records are shown; the names are sorted. -/
def shown (w : Workers) : String :=
  Text.shownRecord "Workers"
    [("default", Text.shownOption (w.default.map fun x => Text.quoted x.name)),
      ("named", Text.shownList ((w.named.map (·.1)).mergeSort (· ≤ ·) |>.map Text.quoted))] false

end Workers

end HttpApp
