/-
  HttpApp/Proofs/Session/Givens.lean --- what a context is given stays as it is.

  A context is given the request, the codecs of the application, and what the route has
  that takes the request.  Steps stage, send and report, and change nothing of that; only
  a route that takes the request does.  Main statement: acts in any order leave it as it
  is (`Session.Acts.given`).
-/
import HttpApp.Proofs.Session.Acts

set_option autoImplicit false

namespace HttpApp

/-- What a context has from the request, its application and its route. -/
def Context.given (c : Context) : Context where
  request := c.request
  endpoint := c.endpoint
  parsers := c.parsers
  renderers := c.renderers
  captures := c.captures

namespace Session

/-! ## Steps -/

@[simp] theorem given_stageHeader (s : Session) (name value : String) :
    (s.stageHeader name value).context.given = s.context.given := by
  unfold stageHeader
  split <;> rfl

@[simp] theorem given_stage (s : Session) (x : Staging) :
    (s.stage x).context.given = s.context.given := by
  cases x with
  | header name value => exact given_stageHeader s name value
  | _ => rfl

@[simp] theorem given_sleep (s : Session) (milliseconds : Nat) :
    (s.sleep milliseconds).context.given = s.context.given := by
  unfold sleep
  dsimp only
  split
  · split <;> rfl
  · rfl

@[simp] theorem given_handOff (s : Session) : s.handOff.context.given = s.context.given := by
  unfold handOff
  split <;> rfl

@[simp] theorem given_hangUp (s : Session) : s.hangUp.2.context.given = s.context.given := by
  unfold hangUp
  split <;> rfl

@[simp] theorem given_complete (s : Session) (response : Response) :
    (s.complete response).2.context.given = s.context.given := by
  unfold complete
  split
  · rfl
  · split
    · rfl
    · dsimp only
      split <;> rfl

@[simp] theorem given_sendBytes (s : Session) (m : MediaType) (body : Bytes) :
    (s.sendBytes m body).2.context.given = s.context.given :=
  given_complete (s.takeContentType m).2 _

@[simp] theorem given_sendStatus (s : Session) (status : Status) :
    (s.sendStatus status).2.context.given = s.context.given :=
  given_complete (s.stage (.status status)) _

@[simp] theorem given_send (s : Session) (x : Sending) :
    (s.send x).2.context.given = s.context.given := by
  cases x with
  | model m =>
    rw [send]
    split
    · exact given_sendBytes s _ _
    · rfl
  | text body => exact given_sendBytes s _ _
  | bytes body => exact given_sendBytes s _ _
  | status status => exact given_sendStatus s status
  | redirect status location =>
    exact (given_sendStatus _ status).trans (given_stageHeader s "location" location)

theorem given_perform (s : Session) (op : Op) :
    (s.perform op).2.context.given = s.context.given := by
  cases op with
  | stage x => exact given_stage s x
  | send x => exact given_send s x
  | hangUp => exact given_hangUp s
  | sleep milliseconds => exact given_sleep s milliseconds
  | _ => rfl

/-! ## Runs -/

variable {s t : Session}

theorem Act.given (h : Act s t) : t.context.given = s.context.given := by
  cases h with
  | perform op => exact given_perform s op
  | complete response => exact given_complete s response
  | log level message fields => rfl
  | handle f status => rfl

/-- Whatever scripts and the answers to errors do, a context keeps what it is given. -/
theorem Acts.given (h : Acts s t) : t.context.given = s.context.given := by
  induction h with
  | refl => rfl
  | tail _ act ih => exact act.given.trans ih

end Session

end HttpApp
