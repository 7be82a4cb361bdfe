/-
  HttpApp/ErrorBoundary.lean --- answering errors.

  An error is classified into a status and given to the error handler.  If the
  handler fails, panics or sends nothing, the bare response of the status is sent
  in its place.  A fatal error is raised again after that.
-/
import HttpApp.Session

set_option autoImplicit false

namespace HttpApp

/-- Who answers errors. -/
structure ErrorBoundary where
  handler : ErrorHandler
  /-- the status of a failure -/
  classify : Failure → Status
  /-- how many error handlers can be at work inside of one another -/
  nesting : Nat

namespace ErrorBoundary

/-- What stops an error handler that is nested too deep. -/
def nestingPanic : Payload := .made "error handlers nested too deep"

/-- The wording of the failure of an error handler. -/
def handlerFailure? : Ending (Except Failure Unit) → Option String
  | .returned (.ok _) => none
  | .returned (.error f) => some f.message
  | .panicked p => some (Fatal.ofPanic p).message

/-- Answers an error by what the error handler did: if it failed, that is reported, and if no
answer was sent, the bare response of the status is. -/
def conclude (f : Failure) (status : Status) (ending : Ending (Except Failure Unit)) (s : Session) :
    Session :=
  let s := match handlerFailure? ending with
    | none => s
    | some reason =>
      s.log .error "Error handler failed"
        [Event.textField "path" s.context.request.path, Event.numberField "status" status.code,
          Event.textField "error" f.message, Event.textField "handler_error" reason]
  if s.context.started then s else (s.complete (.bare status)).2

/-- Raises a fatal failure again. -/
def reraise (f : Failure) (s : Session) : Ending Unit × Session :=
  match f with
  | .recoverable .. => (.returned (), s)
  | .fatal f =>
    (.panicked f.raise,
      s.log .error "Fatal error; re-raising"
        [Event.textField "path" s.context.request.path, Event.textField "error" f.message])

/-- An error after the answer, or without anyone who waits for one, is only reported. -/
def discard? (f : Failure) (status : Status) (s : Session) : Option Session :=
  if s.context.started then
    some (s.log .error "Error after the response started; discarded"
      [Event.textField "path" s.context.request.path, Event.numberField "status" status.code,
        Event.textField "error" f.message])
  else if s.isClosed then
    some (s.log .warn "Error on a closed connection; discarded"
      [Event.textField "path" s.context.request.path, Event.textField "error" f.message])
  else none

/-- The session in which an error handler begins. -/
def handling (f : Failure) (status : Status) (s : Session) : Session :=
  (s.stage (.status status)).called (.errorHandler f status)

/-- Answers an error, where at most `limit` error handlers are at work inside of one another. -/
def answerWithin (b : ErrorBoundary) (limit : Nat) (f : Failure) (status : Option Status)
    (s : Session) : Ending Unit × Session :=
  let status := status.getD (b.classify f)
  match discard? f status s with
  | some s => reraise f s
  | none =>
    match limit with
    | 0 => reraise f (conclude f status (.panicked nestingPanic) (handling f status s))
    | limit + 1 =>
      let (ending, s) := (b.handler f status).run (b.answerWithin limit) (handling f status s)
      reraise f (conclude f status ending s)

/-- Answers an error, with the status of the classifier if none is given. -/
def answer (b : ErrorBoundary) (f : Failure) (status : Option Status) (s : Session) :
    Ending Unit × Session :=
  b.answerWithin b.nesting f status s

end ErrorBoundary

/-! ## The page for errors -/

/-- Answers an error by its status and, if the client is to blame, its wording: as JSON if the
client accepts that, and else as a text.  Findings are listed one by one in JSON. -/
def errorPage : ErrorHandler := fun f status => (do
  let c ← (Script.look : Script Context)
  let reason := status.reason
  let report (level : Level) (message : String) : Script Unit :=
    .log level message
      [Event.textField "method" c.request.method.name, Event.textField "path" c.request.path,
        Event.numberField "status" status.code, Event.textField "error" f.message]
  if status.isServerError then report .error "Request failed" else report .debug "Request rejected"
  let message := if status.isServerError then reason else f.message
  Script.stage (.status status)
  if c.accepts .json then
    let details := match f.validation? with
      | some v => [("errors", Json.list (v.findings.map Finding.toJson))]
      | none => []
    let body := Json.ofMembers ([("error", .text reason), ("status", .integer status.code),
      ("message", .text message)] ++ details)
    Script.stage (.contentType .json)
    Attempt.send (.bytes (Bytes.ofText body.compact))
  else
    Script.stage (.contentType .text)
    Attempt.send (.text (toString status.code ++ " " ++ reason ++ ": " ++ message))
  : Attempt Unit).run

end HttpApp
