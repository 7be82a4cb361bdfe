/-
  HttpApp/Server/Drain.lean --- the life of a server, from its first connection to its end.

  A connection is accepted, its task begins some time later, and the task ends.
  Once the server is told to stop, it accepts no more connections and looks from
  time to time whether a task is at work.  It ends when it finds none, or when its
  time is up.  The steps can come in any order; `step` says what each of them
  does, and where it is not possible.
-/
import HttpApp.Event

set_option autoImplicit false

namespace HttpApp

/-- What became of a connection. -/
inductive ConnectionState where
  /-- it is accepted, and its task has not begun -/
  | accepted
  /-- its task is at work -/
  | active
  /-- its task has ended -/
  | served
  deriving DecidableEq, Repr, Inhabited

inductive ServerPhase where
  /-- it accepts connections -/
  | listening
  /-- it waits for open connections -/
  | draining
  /-- it has ended, having found no task at work -/
  | drained
  /-- it has ended, its time being up -/
  | gaveUp
  deriving DecidableEq, Repr, Inhabited

/-- A server and its connections. -/
structure ServerRun where
  phase : ServerPhase := .listening
  /-- all accepted connections, in order -/
  connections : List ConnectionState := []
  deriving DecidableEq, Repr, Inhabited

/-- What happens to a server. -/
inductive ServerStep where
  /-- a client connects -/
  | accept
  /-- the task of a connection begins -/
  | begin (connection : Nat)
  /-- the task of a connection ends -/
  | finish (connection : Nat)
  /-- the server is told to stop -/
  | signal
  /-- the server looks whether a task is at work -/
  | check
  /-- the time for open connections is up -/
  | timeUp
  deriving DecidableEq, Repr, Inhabited

namespace ServerRun

/-- The number of tasks at work. -/
def active (r : ServerRun) : Nat := r.connections.countP (· == .active)

/-- A connection passes from one state to the next. -/
def advance (r : ServerRun) (i : Nat) (before after : ConnectionState) : Option ServerRun :=
  if r.connections[i]? = some before then some { r with connections := r.connections.set i after }
  else none

/-- What a step makes of a server, where it is possible. -/
def step (r : ServerRun) : ServerStep → Option ServerRun
  | .accept =>
    if r.phase = .listening then some { r with connections := r.connections ++ [.accepted] } else none
  | .begin i => r.advance i .accepted .active
  | .finish i => r.advance i .active .served
  | .signal => if r.phase = .listening then some { r with phase := .draining } else none
  | .check =>
    if r.phase = .draining then some (if r.active = 0 then { r with phase := .drained } else r)
    else none
  | .timeUp => if r.phase = .draining then some { r with phase := .gaveUp } else none

/-- What several steps make of a server, where they are possible. -/
def run (r : ServerRun) : List ServerStep → Option ServerRun
  | [] => some r
  | s :: ss => (r.step s).bind fun q => q.run ss

/-! ## Events -/

/-- The event of a server that starts to listen. -/
def listeningEvent (address : String) (routes : Nat) : Event :=
  ⟨.info, "Server listening",
    [Event.textField "address" address, Event.numberField "routes" routes]⟩

/-- The event of a server that is told to stop. -/
def stoppingEvent : Event := ⟨.info, "Shutdown signal received, stopping server...", []⟩

def timeUpEvent (r : ServerRun) : Event :=
  ⟨.warn, "Shutdown timeout reached with open connections",
    [Event.numberField "remaining" r.active]⟩

end ServerRun

end HttpApp
