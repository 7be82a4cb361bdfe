/-
  HttpApp/Server/Respond.lean --- the answer that a caller gets for a request.

  Three callers are told apart: one that waits without a limit, one that waits as
  long as a server does, and one that takes whatever is on the channel.  A server
  gives every request an identifier, which comes back in the response.
-/
import HttpApp.App
import HttpApp.Server.Config

set_option autoImplicit false

namespace HttpApp

/-! ## What became of an answer -/

/-- What is on the channel once nothing is left to do. -/
inductive Delivery where
  | answered (r : Response)
  /-- the context was given up without an answer -/
  | dropped
  /-- the context is kept, and nothing was sent yet -/
  | pending
  /-- the caller went away, or its time was up -/
  | abandoned
  deriving DecidableEq, Repr, Inhabited

namespace Session

/-- What is on the channel of a session. -/
def delivery (s : Session) : Delivery :=
  if s.channel.receiver = .gone then .abandoned
  else match s.channel.answer with
    | some r => .answered r
    | none => if s.kept then .pending else .dropped

/-- The events of a record, in order; `timeUp` makes the event for a caller that stops waiting. -/
def eventsOf (timeUp : Event) : List Entry → List Event
  | [] => []
  | .event e :: es => e :: eventsOf timeUp es
  | .timeUp :: es => timeUp :: eventsOf timeUp es
  | _ :: es => eventsOf timeUp es

/-- The calls of a record, in order. -/
def callsOf : List Entry → List Call
  | [] => []
  | .call c :: es => c :: callsOf es
  | _ :: es => callsOf es

/-- The notes of a record, in order. -/
def notesOf : List Entry → List String
  | [] => []
  | .note text :: es => text :: notesOf es
  | _ :: es => notesOf es

end Session

namespace App

/-- Answers a request for a caller that waits without a limit; it gets nothing only if the
context is kept for good. -/
def handle (a : App) (request : Request) (poolStarted : Bool) :
    Ending (Option Response) × Session :=
  let (ending, s) := a.answer (a.session request .held none poolStarted)
  match ending with
  | .panicked p => (.panicked p, s)
  | .returned _ =>
    match s.delivery with
    | .answered r => (.returned (some r), s)
    | .pending => (.returned none, s)
    | .dropped | .abandoned =>
      (.returned (some (.bare .internalServerError)),
        s.log .warn "Request finished without a response" [Event.textField "path" request.path])

end App

/-! ## Servers -/

namespace Server

/-- The header that holds the identifier of a request. -/
def idHeader : String := "x-request-id"

/-- A number in base sixteen. -/
def hex (n : Nat) : String := String.ofList (Nat.toDigits 16 n)

/-- A new identifier: the time in nanoseconds, and how many identifiers there were up to it. -/
def freshId (nanoseconds count : Nat) : String := hex nanoseconds ++ "-" ++ hex count

/-- A request with an identifier: its own one if it can be read, or else a new one behind it. -/
def identified (request : Request) (newId : String) : Request :=
  if (request.header idHeader).isSome then request
  else request.withHeader idHeader newId

/-- A response with an identifier, unless it has one that can be read. -/
def withId (r : Response) (id : String) : Response :=
  if (r.header idHeader).isSome then r else r.withHeader idHeader id

/-- The answer to a request, and all events on the way.  Panics end here; a context that was
given up and one that takes too long are answered by bare statuses. -/
def respond (a : App) (request : Request) (timeout : Nat) (newId : String) (poolStarted : Bool) :
    Response × Session :=
  let request := identified request newId
  let id := (request.header idHeader).getD ""
  let fields := [Event.textField "path" request.path, Event.textField "request_id" id]
  let (ending, s) := a.answer (a.session request .held (some timeout) poolStarted)
  let s := match ending with
    | .returned _ => s
    | .panicked _ => s.log .error "Fatal error escaped request handling" fields
  let (response, s) := match s.delivery with
    | .answered r => (r, s)
    | .dropped =>
      (.bare .internalServerError, s.log .warn "Request finished without a response" fields)
    | .pending => (.bare .serviceUnavailable, s.add .timeUp)
    | .abandoned => (.bare .serviceUnavailable, s)
  (withId response id, s)

/-- The event of a caller that stops waiting. -/
def timeUpEvent (request : Request) (timeout : Nat) (newId : String) : Event :=
  let request := identified request newId
  ⟨.warn, "Request timed out",
    [Event.textField "path" request.path,
      Event.textField "request_id" ((request.header idHeader).getD ""),
      Event.textField "timeout_ms" (toString timeout)]⟩

/-- The answer to a request whose body is there as a whole. -/
def testRequest (a : App) (config : ServerConfig) (request : Request) (newId : String)
    (poolStarted : Bool) : Response × Option Session :=
  if config.maxBodySize < request.body.length then (.bare .payloadTooLarge, none)
  else
    let (r, s) := respond a request config.requestTimeout newId poolStarted
    (r, some s)

end Server

end HttpApp
