/-
  HttpApp/Wire/Reply.lean --- writing responses.

  A response is written with its length, with the date, and with a word on whether
  the connection stays open where that is not the rule of the version.  Some
  statuses, and all answers to requests for a head, have no body.
-/
import HttpApp.Response
import HttpApp.Server.Intake

set_option autoImplicit false

namespace HttpApp.Wire

/-- The line end of heads. -/
def lineEnd : Bytes := [13, 10]

/-- Whether the answer to a request of a method may have a length. -/
def mayHaveLength (method : String) (status : Status) : Bool :=
  !(status.code < 200 || status.code == 204 || status.code == 304 ||
    (method == "CONNECT" && status.code < 300))

/-- Whether the answer to a request of a method may have a body. -/
def mayHaveBody (method : String) (status : Status) : Bool :=
  mayHaveLength method status && method != "HEAD"

def writtenLength? (method : String) (r : Response) : Option Nat :=
  if (r.headers.get? "content-length").isSome || !mayHaveLength method r.status then none
  else if r.body.isEmpty && method == "HEAD" then none
  else some r.body.length

/-- What is said of the connection, if the rule of the version does not say it. -/
def connectionOption? (version : HttpVersion) (keepAlive : Bool) : Option String :=
  match version, keepAlive with
  | .http11, false => some "close"
  | .http10, true => some "keep-alive"
  | _, _ => none

def writeField (name : String) (value : HeaderValue) : Bytes :=
  Bytes.ofText name ++ Bytes.ofText ": " ++ value ++ lineEnd

/-- A header field that is there or not. -/
def writeField? (name : String) (value : Option String) : Bytes :=
  match value with
  | some v => writeField name (Bytes.ofText v)
  | none => []

/-- The answer to a request of a method. -/
def write (method : String) (version : HttpVersion) (keepAlive : Bool) (date : String)
    (r : Response) : Bytes :=
  let line := version.name ++ " " ++ toString r.status.code ++ " " ++
    r.status.reason?.getD "<none>"
  Bytes.ofText line ++ lineEnd ++
    r.headers.toList.flatMap (fun f => writeField f.1 f.2) ++
    writeField? "content-length" ((writtenLength? method r).map toString) ++
    writeField? "connection" (connectionOption? version keepAlive) ++
    writeField? "date" (some date) ++ lineEnd ++
    (if mayHaveBody method r.status then r.body else [])

/-- What is written in place of a response: one whose status is for responses in between stands
for a fault of the server. -/
def final (r : Response) : Response :=
  if r.status.code < 200 then .ofStatus .internalServerError else r

/-- Whether a connection can stay open behind the answer to a request of a method. -/
def staysOpen (method : String) (status : Status) : Bool :=
  200 ≤ status.code && !(method == "CONNECT" && status.code < 300)

/-- The answer to bytes that are no request. -/
def writeFault (status : Status) (date : String) : Bytes :=
  write "" .http11 false date (.ofStatus status)

/-- The word that lets a client go ahead with its body. -/
def goAhead : Bytes := Bytes.ofText "HTTP/1.1 100 Continue" ++ lineEnd ++ lineEnd

end HttpApp.Wire
