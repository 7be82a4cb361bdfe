/-
  HttpApp/Session.lean --- an exchange with a client, step by step.

  A session holds the context of a request, the channel on which its caller waits
  for the answer, and the record of what was done.  The answer can be sent once:
  sending takes the staged headers and the sending end of the channel.
-/
import HttpApp.Script

set_option autoImplicit false

namespace HttpApp

/-! ## The channel and the record -/

/-- Where the caller of a request waits for the answer. -/
inductive Receiver where
  /-- it waits, and scripts can make it go away -/
  | reachable
  /-- it waits -/
  | held
  /-- it waits no more -/
  | gone
  deriving DecidableEq, Repr, Inhabited

/-- The channel between an answer and the caller who waits for it. -/
structure Channel where
  receiver : Receiver := .held
  answer : Option Response := none
  deriving DecidableEq, Repr, Inhabited

/-- What a run calls. -/
inductive Call where
  /-- the hook at a place, before the handler -/
  | before (place : Nat)
  | handler
  /-- a task, on an executor -/
  | task (executor : String)
  /-- the hook at a place, after the handler -/
  | after (place : Nat)
  /-- a callback that takes the context -/
  | detached
  | errorHandler (f : Failure) (status : Status)
  deriving Inhabited

/-- An entry in the record of a run. -/
inductive Entry where
  | call (c : Call)
  | event (e : Event)
  | note (text : String)
  /-- the caller stops waiting -/
  | timeUp
  deriving Inhabited

/-- How the caller of a request waits. -/
structure Patience where
  /-- how many milliseconds it waits once it waits; without a limit if there is none -/
  limit : Option Nat := none
  /-- when it began to wait, if it waits -/
  since : Option Nat := none
  deriving DecidableEq, Repr, Inhabited

/-- An exchange with a client. -/
structure Session where
  context : Context
  channel : Channel := {}
  /-- what was done, in order -/
  record : List Entry := []
  /-- the time in milliseconds -/
  clock : Nat := 0
  patience : Patience := {}
  /-- whether the default pool of workers runs -/
  poolStarted : Bool := false
  /-- whether the context is kept for good -/
  kept : Bool := false
  deriving Inhabited

/-- How a run ends. -/
inductive Ending (α : Type) where
  | returned (a : α)
  | panicked (p : Payload)
  deriving Inhabited

/-- A run that fails or panics, as one that fails. -/
def Ending.guard {α : Type} : Ending (Except Failure α) → Except Failure α
  | .returned r => r
  | .panicked p => .error (.ofPanic p)

namespace Session

/-! ## Small changes -/

def add (s : Session) (e : Entry) : Session := { s with record := s.record ++ [e] }

/-- Records a call. -/
def called (s : Session) (c : Call) : Session := s.add (.call c)

/-- Reports an event. -/
def log (s : Session) (level : Level) (message : String) (fields : List (String × EventValue)) :
    Session :=
  s.add (.event ⟨level, message, fields⟩)

/-- Changes the context. -/
def withContext (s : Session) (f : Context → Context) : Session := { s with context := f s.context }

/-- Whether nobody waits for an answer any more. -/
def isClosed (s : Session) : Bool := !s.context.hasSender || s.channel.receiver == .gone

/-- Waits for some milliseconds.  A caller that waits without an answer stops when its time is
up. -/
def sleep (s : Session) (milliseconds : Nat) : Session :=
  let s := { s with clock := s.clock + milliseconds }
  match s.patience.limit, s.patience.since with
  | some limit, some since =>
    if since + limit ≤ s.clock && s.channel.answer.isNone && s.channel.receiver != .gone then
      { s with channel := { s.channel with receiver := .gone } }.add .timeUp
    else s
  | _, _ => s

/-- The caller begins to wait, unless it waits already. -/
def handOff (s : Session) : Session :=
  match s.patience.since with
  | some _ => s
  | none => { s with patience := { s.patience with since := some s.clock } }

/-- The client goes away, if it can be reached; whether it could. -/
def hangUp (s : Session) : Bool × Session :=
  if s.channel.receiver = .reachable then
    (true, { s with channel := { s.channel with receiver := .gone } })
  else (false, s)

/-! ## Staging -/

/-- Stages a header; a bad name or value is passed over, with a warning. -/
def stageHeader (s : Session) (name value : String) : Session :=
  match Headers.name? name, HeaderValue.ofText? value with
  | some n, some v => s.withContext fun c => { c with headers := c.headers.insert n v }
  | _, _ => s.log .warn "Ignoring invalid response header" [Event.textField "header" name]

/-- Stages something. -/
def stage (s : Session) : Staging → Session
  | .status status => s.withContext fun c => { c with status }
  | .header name value => s.stageHeader name value
  | .contentType m => s.withContext fun c => { c with contentType := some m }
  | .defaultContentType m => s.withContext fun c => { c with defaultContentType := m }
  | .attribute kind value => s.withContext fun c => { c with attributes := c.attributes.insert kind value }
  | .dropAttribute kind => s.withContext fun c => { c with attributes := c.attributes.erase kind }

/-! ## Sending -/

/-- Sends a response, with the staged headers under its own ones, if none was sent before. -/
def complete (s : Session) (response : Response) : Except Error Unit × Session :=
  if s.context.started then (.error .responseStarted, s)
  else if !s.context.hasSender then (.error (.io .connectionAborted), s)
  else
    let headers := s.context.headers.insertAll response.headers
    let s := s.withContext fun c => { c with started := true, hasSender := false, headers := {} }
    if s.channel.receiver = .gone then (.error (.io .connectionAborted), s)
    else (.ok (), { s with channel := { s.channel with answer := some { response with headers } } })

/-- Sends bytes of a media type. -/
def sendAs (s : Session) (m : MediaType) (body : Bytes) : Except Error Unit × Session :=
  s.complete { Response.withHeader (.ofStatus s.context.status) "content-type" m.shown with body }

/-- The content type that was set, which is then set no more, or else the given one. -/
def takeContentType (s : Session) (m : MediaType) : MediaType × Session :=
  (s.context.contentType.getD m, s.withContext fun c => { c with contentType := none })

/-- Sends bytes of the content type that was set, or else of the given one. -/
def sendBytes (s : Session) (m : MediaType) (body : Bytes) : Except Error Unit × Session :=
  let (m, s) := s.takeContentType m
  s.sendAs m body

/-- Sends nothing but a status. -/
def sendStatus (s : Session) (status : Status) : Except Error Unit × Session :=
  (s.stage (.status status)).complete (.ofStatus status)

/-- Sends the answer. -/
def send (s : Session) : Sending → Except Error Unit × Session
  | .model m =>
    match s.context.rendered m with
    | .ok rendered => s.sendBytes rendered.mediaType rendered.body
    | .error e => (.error e, s)
  | .text body => s.sendBytes s.context.defaultContentType (Bytes.ofText body)
  | .bytes body => s.sendBytes .octetStream body
  | .status status => s.sendStatus status
  | .redirect status location => (s.stageHeader "location" location).sendStatus status

/-! ## Steps -/

/-- What a step does, and what it is told. -/
def perform (s : Session) : (op : Op) → op.Reply × Session
  | .look => (s.context, s)
  | .isClosed => (s.isClosed, s)
  | .stage x => ((), s.stage x)
  | .send x => s.send x
  | .log e => ((), s.add (.event e))
  | .note text => ((), s.add (.note text))
  | .hangUp => s.hangUp
  | .sleep milliseconds => ((), s.sleep milliseconds)
  | .now => (s.clock, s)

end Session

/-- Runs a script; `answer` says what sending an error does. -/
def Script.run {α : Type} (answer : Failure → Option Status → Session → Ending Unit × Session) :
    Script α → Session → Ending α × Session
  | .ret a, s => (.returned a, s)
  | .panic p, s => (.panicked p, s)
  | .ask op next, s => (next (s.perform op).1).run answer (s.perform op).2
  | .sendError f status next, s =>
    match answer f status s with
    | (.returned _, s) => next.run answer s
    | (.panicked p, s) => (.panicked p, s)

end HttpApp
