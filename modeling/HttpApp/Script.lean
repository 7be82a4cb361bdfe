/-
  HttpApp/Script.lean --- what handlers and hooks do.

  A script is a program in steps.  A step looks at the context, stages a part of
  the answer, sends it, or does something else to the exchange, and goes on with
  the reply.  A script ends with a result or with a panic.  Sending an error is a
  step of its own, because it runs the script of the error handler.
-/
import HttpApp.Context
import HttpApp.Event
import HttpApp.Failure
import HttpApp.Response

set_option autoImplicit false

namespace HttpApp

/-! ## Steps -/

/-- What is staged for the answer, or kept for later steps. -/
inductive Staging where
  | status (status : Status)
  /-- a header; a bad name or value is passed over, with a warning -/
  | header (name value : String)
  /-- the content type of the answer, whatever is sent -/
  | contentType (m : MediaType)
  /-- the content type of texts for which none is set -/
  | defaultContentType (m : MediaType)
  /-- a value for later steps -/
  | attribute (kind : AttributeKind) (value : kind.Value)
  /-- the value of a kind is no longer needed -/
  | dropAttribute (kind : AttributeKind)

/-- What is sent as the answer. -/
inductive Sending where
  /-- a model, by the renderer that is negotiated -/
  | model (m : Model)
  | text (s : String)
  | bytes (b : Bytes)
  /-- nothing but a status -/
  | status (status : Status)
  /-- nothing but a status and where to go instead -/
  | redirect (status : Status) (location : String)
  deriving Inhabited

/-- A step of a script. -/
inductive Op where
  /-- looks at the context -/
  | look
  /-- whether nobody waits for an answer any more -/
  | isClosed
  | stage (s : Staging)
  | send (s : Sending)
  /-- reports an event -/
  | log (e : Event)
  /-- writes into the record of the run -/
  | note (text : String)
  /-- the client goes away, if it can be reached; whether it could -/
  | hangUp
  /-- waits for some milliseconds -/
  | sleep (milliseconds : Nat)
  /-- the time in milliseconds -/
  | now

/-- What a step is told. -/
def Op.Reply : Op → Type
  | .look => Context
  | .isClosed => Bool
  | .stage _ => Unit
  | .send _ => Except Error Unit
  | .log _ => Unit
  | .note _ => Unit
  | .hangUp => Bool
  | .sleep _ => Unit
  | .now => Nat

/-! ## Scripts -/

/-- A program in steps. -/
inductive Script (α : Type) where
  /-- ends with a result -/
  | ret (a : α)
  /-- ends with a panic -/
  | panic (p : Payload)
  /-- a step, and what follows its reply -/
  | ask (op : Op) (next : op.Reply → Script α)
  /-- sends an error by the error handler, with the status of the classifier if none is
  given; what follows does not, if the error is fatal -/
  | sendError (f : Failure) (status : Option Status) (next : Script α)

namespace Script

/-- Goes on with the result of a script. -/
def bind {α β : Type} (s : Script α) (f : α → Script β) : Script β :=
  match s with
  | .ret a => f a
  | .panic p => .panic p
  | .ask op next => .ask op fun r => (next r).bind f
  | .sendError e status next => .sendError e status (next.bind f)

instance : Monad Script where
  pure := .ret
  bind := bind

instance {α : Type} [Inhabited α] : Inhabited (Script α) := ⟨.ret default⟩

def step (op : Op) : Script op.Reply := .ask op .ret

def look : Script Context := step .look

/-- The time in milliseconds. -/
def now : Script Nat := step .now

/-- Stages something. -/
def stage (s : Staging) : Script Unit := step (.stage s)

/-- Sends the answer. -/
def send (s : Sending) : Script (Except Error Unit) := step (.send s)

/-- Reports an event. -/
def log (level : Level) (message : String) (fields : List (String × EventValue)) : Script Unit :=
  step (.log ⟨level, message, fields⟩)

/-- Sends an error by the error handler. -/
def fail (f : Failure) (status : Option Status) : Script Unit := .sendError f status (.ret ())

end Script

/-- A script that may fail. -/
abbrev Attempt (α : Type) : Type := ExceptT Failure Script α

namespace Attempt

/-- The result of a framework function, as a script. -/
def ofExcept {α : Type} : Except Error α → Attempt α
  | .ok a => pure a
  | .error e => throw (.ofError e)

/-- Sends the answer, and fails if it cannot be sent. -/
def send (s : Sending) : Attempt Unit := do
  ofExcept (← (Script.send s : Script (Except Error Unit)))

end Attempt

/-- A script that fails or not, seen as its steps. -/
abbrev Fallible (α : Type) : Type := Script (Except Failure α)

/-! ## What handlers, hooks and error handlers are -/

/-- What becomes of a context that a handler keeps for itself. -/
inductive Custody where
  /-- it is given up, and with it the chance to answer -/
  | released
  /-- it is kept for good -/
  | kept
  deriving DecidableEq, Repr, Inhabited

/-- How a request goes on after its handler. -/
inductive Outcome where
  /-- a model is rendered -/
  | render (m : Model)
  /-- nothing is left to do; if no answer was sent, an empty one is -/
  | done
  /-- a task goes on with the request, on a named executor or on the default one -/
  | dispatch (executor : Option String) (task : Script (Except Failure Outcome))
  /-- a callback takes the context, on its own thread or at once -/
  | detach (ownThread : Bool) (callback : Script Custody)

/-- An outcome where records are shown. -/
def Outcome.shown : Outcome → String
  | .render m => "Render(" ++ m.shown ++ ")"
  | .done => "Done"
  | .dispatch executor _ =>
    Text.shownRecord "Dispatch" [("executor", Text.shownOption (executor.map Text.quoted))] true
  | .detach .. => "Detach"

/-- What answers a request, and what goes on with one. -/
abbrev Handler : Type := Fallible Outcome

/-- What a hook decides before the handler. -/
inductive Verdict where
  /-- the next hook or the handler is run -/
  | proceed
  /-- nothing more is run, and this is the outcome -/
  | respond (o : Outcome)

/-- What is done before and after the handlers of an application. -/
structure Hook where
  name : String
  before : Fallible Verdict := .ret (.ok .proceed)
  after : Script Unit := .ret ()

/-- The names of hooks where records are shown. -/
def Hook.shownNames (hooks : List Hook) : String :=
  Text.shownList (hooks.map fun h => Text.quoted h.name)

/-- What sends the answer to an error. -/
abbrev ErrorHandler : Type := Failure → Status → Fallible Unit

end HttpApp
