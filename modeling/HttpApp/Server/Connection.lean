/-
  HttpApp/Server/Connection.lean --- answering the requests of a connection.

  A request that is refused on its way in is answered by a bare status.  Every
  request of a connection is reported when it has been answered.
-/
import HttpApp.Server.Intake
import HttpApp.Server.Respond

set_option autoImplicit false

namespace HttpApp.Server

/-- What a server makes of a request. -/
structure Served where
  response : Response
  /-- what is reported on the way -/
  events : List Event
  /-- how many milliseconds it takes -/
  elapsed : Nat := 0
  /-- whether the default pool of workers runs -/
  poolStarted : Bool

/-- The status for a request that is refused.  All but two errors are the fault of the client's
transfer. -/
def refusalStatus (e : Error) : Status :=
  match e with
  | .unsupportedMethod _ | .payloadTooLarge .. => e.status
  | _ => .badRequest

/-- The answer to a request that is refused. -/
def refuse (e : Error) (remote : Address) (poolStarted : Bool) : Served where
  response := .bare (refusalStatus e)
  events := [⟨.warn, "Rejected request",
    [Event.textField "remote" remote.shown, Event.textField "error" e.message,
      Event.numberField "status" (refusalStatus e).code]⟩]
  poolStarted := poolStarted

/-- How long the caller of a session waits: until it is answered or given up, or until its time
is up. -/
def waiting (s : Session) (timeout : Nat) : Nat :=
  match s.delivery with
  | .answered _ | .dropped => s.clock
  | .pending | .abandoned => s.patience.since.getD s.clock + timeout

/-- The answer to a request that is taken in. -/
def accept (a : App) (config : ServerConfig) (request : Request) (newId : String)
    (poolStarted : Bool) : Served :=
  let (response, s) := respond a request config.requestTimeout newId poolStarted
  { response
    events := Session.eventsOf (timeUpEvent request config.requestTimeout newId) s.record
    elapsed := waiting s config.requestTimeout
    poolStarted := s.poolStarted }

/-- The event of a request that has been answered. -/
def completedEvent (head : RequestHead) (remote : Address) (status : Status) : Event :=
  ⟨.info, "Request completed",
    [Event.textField "remote" remote.shown, Event.textField "method" head.method,
      Event.textField "path" head.path, Event.textField "version" head.version.name,
      Event.numberField "status" status.code]⟩

/-- The answer to a request of a connection, as far as it was received. -/
def serve (a : App) (config : ServerConfig) (head : RequestHead) (remote : Address)
    (received : Except Error Request) (newId : String) (poolStarted : Bool) : Served :=
  let served := match received with
    | .ok request => accept a config request newId poolStarted
    | .error e => refuse e remote poolStarted
  { served with
    events := served.events ++ [completedEvent head remote served.response.status] }

end HttpApp.Server
