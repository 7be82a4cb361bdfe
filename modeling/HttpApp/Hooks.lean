/-
  HttpApp/Hooks.lean --- hooks for logging, timing and cross-origin requests.
-/
import HttpApp.Script

set_option autoImplicit false

namespace HttpApp.Hook

/-- The first part of a hook that always lets the request go on. -/
def proceedAfter (s : Script Unit) : Fallible Verdict := s.bind fun _ => .ret (.ok .proceed)

/-! ## Logging -/

/-- The fields that tell a request apart. -/
def requestFields (c : Context) : List (String × EventValue) :=
  [Event.textField "method" c.request.method.name, Event.textField "path" c.request.path]

/-- The identifier of a request, or a dash. -/
def requestId (c : Context) : String × EventValue :=
  Event.textField "request_id" ((c.header "x-request-id").textOr "-")

/-- Reports each request when it comes and when it has been handled, if asked with its headers. -/
def logging (withHeaders : Bool) : Hook where
  name := "LoggingMiddleware"
  before := proceedAfter do
    let c ← Script.look
    let headers := if withHeaders then [Event.textField "headers" c.request.headers.shown] else []
    Script.log .info "Request received" (requestFields c ++ [requestId c] ++ headers)
  after := do
    let c ← Script.look
    Script.log .info "Request handled"
      (requestFields c ++ [Event.numberField "status" c.status.code, requestId c])

/-! ## Timing -/

/-- Measures how long a request takes, and says so in a header if no answer was sent before. -/
def timing : Hook where
  name := "TimingMiddleware"
  before := proceedAfter do
    let time ← Script.now
    Script.stage (.attribute .start time)
  after := do
    let c ← Script.look
    match c.attributes.get? .start with
    | none => return ()
    | some start =>
      Script.stage (.dropAttribute .start)
      let time ← Script.now
      let elapsed := toString (time - start)
      Script.log .debug "Request timing" (requestFields c ++ [Event.textField "duration_ms" elapsed])
      if c.started then return ()
      else Script.stage (.header "server-timing" ("app;dur=" ++ elapsed ++ ".000"))

/-! ## Requests of other origins -/

/-- What other origins may do. -/
structure CrossOrigin where
  origin : String := "*"
  methods : String := "GET, POST, PUT, DELETE, PATCH, OPTIONS"
  headers : String := "Content-Type, Authorization"
  deriving DecidableEq, Repr, Inhabited

/-- Tells other origins what they may do, in whatever answer is sent. -/
def crossOrigin (x : CrossOrigin) : Hook where
  name := "CorsMiddleware"
  before := proceedAfter do
    Script.stage (.header "access-control-allow-origin" x.origin)
    Script.stage (.header "access-control-allow-methods" x.methods)
    Script.stage (.header "access-control-allow-headers" x.headers)

def idle : Hook where
  name := "Unknown"

end HttpApp.Hook
