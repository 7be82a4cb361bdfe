/-
  HttpApp/Wire/Stage.lean --- how far the reading of a request has come.

  A request is read as its bytes come.  It is handed over as soon as it is
  complete or refused; a connection whose bytes were not all taken by then is used
  no more.
-/
import HttpApp.Wire.Body
import HttpApp.Wire.Head

set_option autoImplicit false

namespace HttpApp.Wire

/-- How far the reading of a request has come. -/
inductive Stage where
  /-- bytes of its head -/
  | opening (bytes : Bytes)
  /-- its body, as far as it has come -/
  | body (head : RequestHead) (state : BodyState) (intake : Intake)

/-- A request that was read. -/
structure Reading where
  head : RequestHead
  request : Except Error Request
  /-- whether the client may send another request -/
  keepAlive : Bool
  /-- the bytes behind the request -/
  rest : Bytes

/-- What more bytes make of a request. -/
inductive Progress where
  /-- more bytes are needed; the client may have to be told to go ahead -/
  | more (stage : Stage) (goAhead : Bool)
  | read (r : Reading)
  /-- the bytes are no request -/
  | faulty (status : Status)
  /-- the client has gone away -/
  | gone

namespace Stage

/-- What bytes make of a body. -/
def feedBody (limit : Nat) (remote : Address) (head : RequestHead) (state : BodyState)
    (intake : Intake) (bytes : Bytes) : Progress :=
  let (arrivals, state, rest) := state.arrivals bytes
  let intake := arrivals.foldl (Intake.next limit) intake
  match head.settle limit (some remote) intake with
  | none => .more (.body head state intake) false
  | some request => .read ⟨head, request, keepsAlive head && state == .finished, rest⟩

/-- What bytes make of a head. -/
def feedHead (limit : Nat) (remote : Address) (bytes : Bytes) : Progress :=
  match readHead bytes with
  | .partly => .more (.opening bytes) false
  | .faulty fault => .faulty fault.status
  | .complete head rest =>
    match Framing.ofHead? head with
    | none => .faulty .badRequest
    | some framing =>
      match feedBody limit remote head (.start framing) (.receiving []) rest with
      | .more stage _ => .more stage (awaitsGoAhead head)
      | progress => progress

/-- What bytes make of a request, where at most `limit` bytes of a body are taken. -/
def feed (limit : Nat) (remote : Address) (bytes : Bytes) : Stage → Progress
  | .opening before => feedHead limit remote (before ++ bytes)
  | .body head state intake => feedBody limit remote head state intake bytes

/-- What is made of a request if the client sends no more. -/
def close (limit : Nat) (remote : Address) : Stage → Progress
  | .opening _ => .gone
  | .body head _ intake =>
    match head.settle limit (some remote) (intake.next limit (.failed BodyState.transferFault)) with
    | some request => .read ⟨head, request, false, []⟩
    | none => .gone

end Stage

end HttpApp.Wire
