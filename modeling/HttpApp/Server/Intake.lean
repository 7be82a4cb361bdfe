/-
  HttpApp/Server/Intake.lean --- taking requests in.

  A request comes as a head, and then its body in frames, which end or fail.  A
  method that is not supported and a declared length above the limit refuse the
  request before the body comes; the length that the body turns out to have is
  looked at when the frames have ended.
-/
import HttpApp.Error
import HttpApp.Request

set_option autoImplicit false

namespace HttpApp

/-! ## Heads -/

/-- The versions of HTTP that are understood. -/
inductive HttpVersion where
  | http10 | http11
  deriving DecidableEq, Repr, Inhabited

def HttpVersion.name : HttpVersion → String
  | .http10 => "HTTP/1.0"
  | .http11 => "HTTP/1.1"

/-- What a client says of a request before its body. -/
structure RequestHead where
  /-- any token; a supported method has its name -/
  method : String
  /-- the raw path and the raw query -/
  target : String
  version : HttpVersion := .http11
  headers : Headers := {}
  deriving DecidableEq, Repr, Inhabited

namespace RequestHead

def path (h : RequestHead) : String := (Request.ofTarget .get h.target).path

/-- The length that the head declares, if it can be read. -/
def declaredLength? (h : RequestHead) : Option Nat :=
  (h.headers.text? "content-length").bind fun v => (IntegerRange.word64.read? v).map Int.toNat

/-- The method of a request, unless the head refuses it. -/
def acceptedMethod (h : RequestHead) (limit : Nat) : Except Error Method := do
  let method ← Method.read h.method
  match h.declaredLength? with
  | some n => if limit < n then .error (.payloadTooLarge limit n) else .ok method
  | none => .ok method

/-- The request of a head and a body, from a client at an address. -/
def request (h : RequestHead) (method : Method) (body : Bytes) (remote : Option Address) : Request :=
  { Request.ofTarget method h.target with headers := h.headers, body, remote }

end RequestHead

/-! ## Bodies -/

/-- What comes of a body. -/
inductive Arrival where
  | frame (bytes : Bytes)
  | ended
  /-- the transfer fails, in the words of the transport -/
  | failed (reason : String)
  deriving DecidableEq, Repr, Inhabited

/-- How far a body has come. -/
inductive Intake where
  /-- more may come -/
  | receiving (received : Bytes)
  /-- it is complete -/
  | complete (body : Bytes)
  /-- it is refused -/
  | refused (e : Error)
  deriving Inhabited

namespace Intake

/-- What an arrival makes of a body that may have at most `limit` bytes. -/
def next (limit : Nat) : Intake → Arrival → Intake
  | .receiving received, .frame bytes => .receiving (received ++ bytes)
  | .receiving _, .failed reason => .refused (.http reason)
  | .receiving received, .ended =>
    if limit < received.length then .refused (.payloadTooLarge limit received.length)
    else .complete received
  | settled, _ => settled

/-- What arrivals make of a body of which nothing has come. -/
def after (limit : Nat) (arrivals : List Arrival) : Intake :=
  arrivals.foldl (next limit) (.receiving [])

end Intake

namespace RequestHead

/-- The request that a head and its body make; nothing while more may come. -/
def settle (h : RequestHead) (limit : Nat) (remote : Option Address) (body : Intake) :
    Option (Except Error Request) :=
  match h.acceptedMethod limit with
  | .error e => some (.error e)
  | .ok method =>
    match body with
    | .receiving _ => none
    | .complete body => some (.ok (h.request method body remote))
    | .refused e => some (.error e)

/-- The request that a head and the arrivals of its body make; nothing while more may come. -/
def receive (h : RequestHead) (limit : Nat) (remote : Option Address) (arrivals : List Arrival) :
    Option (Except Error Request) :=
  h.settle limit remote (Intake.after limit arrivals)

end RequestHead

end HttpApp
