/-
  HttpApp/Proofs/Session/Refusal.lean --- what a refused send leaves behind.

  A send stages its status and where it leads, and takes the content type, before it is
  refused because an answer was sent.  Nothing of that reaches the client, but it is what
  hooks read and report afterwards.  Main statement: what each send leaves behind, and
  when that is nothing (`Session.send_of_started`).
-/
import HttpApp.Hooks
import HttpApp.Proofs.Session.Staging

set_option autoImplicit false

namespace HttpApp

/-! ## Sends behind an answer -/

namespace Sending

/-- Why a send behind an answer fails: a model for which there is no renderer fails for that. -/
def refusal (c : Context) : Sending → Error
  | .model m =>
    match c.rendered m with
    | .ok _ => .responseStarted
    | .error e => e
  | _ => .responseStarted

/-- A body is sent, which has a content type. -/
def HasBody (c : Context) : Sending → Prop
  | .model m => ∃ rendered, c.rendered m = .ok rendered
  | .text _ | .bytes _ => True
  | .status _ | .redirect _ _ => False

/-- Nothing is staged by a send but what can be read already, and no content type is taken. -/
structure LeavesAlone (c : Context) (x : Sending) : Prop where
  status : ∀ code, Op.status? (.send x) = some code → code = c.status
  location : ∀ v, Op.value? "location" (.send x) = some v → v.text? = c.stagedHeader "location"
  contentType : x.HasBody c → c.contentType = none

/-- A send stages no header but the place where a redirect leads. -/
theorem eq_location_of_value? {x : Sending} {n : String} {v : HeaderValue}
    (h : Op.value? n (.send x) = some v) : n = "location" := by
  cases x with
  | redirect status location =>
    dsimp only [Op.value?, Headers.fieldValue?] at h
    rw [Headers.name?_location] at h
    split at h
    · next heq => exact (Option.some.inj heq).symm
    · simp at h
  | _ => simp [Op.value?] at h

end Sending

namespace Session

/-- What can be read of the answer of an exchange is the same in two exchanges: its status, each of
its headers, its content type, and whether it was sent. -/
structure SameAnswer (s t : Session) : Prop where
  status : t.context.status = s.context.status
  header : ∀ name, t.context.stagedHeader name = s.context.stagedHeader name
  contentType : t.context.contentType = s.context.contentType
  started : t.context.started = s.context.started

variable {s : Session}

theorem sendBytes_of_started (h : s.context.started = true) (m : MediaType) (body : Bytes) :
    s.sendBytes m body = (.error .responseStarted, (s.takeContentType m).2) :=
  complete_of_started (s := (s.takeContentType m).2) h _

theorem sendStatus_of_started (h : s.context.started = true) (status : Status) :
    s.sendStatus status = (.error .responseStarted, s.stage (.status status)) :=
  complete_of_started (s := s.stage (.status status)) h _

/-- A refused send leaves what it stages before, and takes the content type of a body. -/
theorem leaves_of_started (h : s.context.started = true) (x : Sending) :
    ((s.send x).1 = .error (x.refusal s.context) ∧ (s.send x).2.channel = s.channel ∧
      (s.send x).2.context.started = true) ∧
    (s.send x).2.context.status = (Op.status? (.send x)).getD s.context.status ∧
    (∀ n, (s.send x).2.context.headers.valuesOf n =
      ((Op.value? n (.send x)).map fun v => [v]).getD (s.context.headers.valuesOf n)) ∧
    (x.HasBody s.context → (s.send x).2.context.contentType = none) ∧
    (¬x.HasBody s.context → (s.send x).2.context.contentType = s.context.contentType) := by
  cases x with
  | model m =>
    cases hm : s.context.rendered m with
    | ok rendered =>
      rw [send, hm, Sending.refusal, hm]
      dsimp only
      rw [sendBytes_of_started h]
      exact ⟨⟨rfl, rfl, h⟩, rfl, fun _ => rfl, fun _ => rfl, fun hno => absurd ⟨_, hm⟩ hno⟩
    | error e =>
      rw [send, hm, Sending.refusal, hm]
      refine ⟨⟨rfl, rfl, h⟩, rfl, fun _ => rfl, fun hbody => ?_, fun _ => rfl⟩
      obtain ⟨rendered, hr⟩ := hbody
      rw [hm] at hr
      cases hr
  | text body =>
    rw [send, sendBytes_of_started h]
    exact ⟨⟨rfl, rfl, h⟩, rfl, fun _ => rfl, fun _ => rfl, fun hno => absurd trivial hno⟩
  | bytes body =>
    rw [send, sendBytes_of_started h]
    exact ⟨⟨rfl, rfl, h⟩, rfl, fun _ => rfl, fun _ => rfl, fun hno => absurd trivial hno⟩
  | status status =>
    rw [send, sendStatus_of_started h]
    exact ⟨⟨rfl, rfl, h⟩, rfl, fun _ => rfl, fun hbody => hbody.elim, fun _ => rfl⟩
  | redirect status location =>
    have hcontext := context_stageHeader s "location" location
    have hstarted : (s.stageHeader "location" location).context.started = true := by
      rw [hcontext]
      exact h
    rw [send, sendStatus_of_started hstarted]
    refine ⟨⟨rfl, channel_stageHeader s _ _, hstarted⟩, rfl, fun n => ?_, fun hbody => hbody.elim, fun _ => ?_⟩
    · change (s.stageHeader "location" location).context.headers.valuesOf n = _
      rw [hcontext, Headers.valuesOf_insertText]
      rfl
    · have hsame := congrArg Context.contentType hcontext
      exact hsame

theorem stagedHeader_of_name? {name n : String} (h : Headers.name? name = some n) (c : Context) :
    c.stagedHeader name = (c.headers.valuesOf n).head?.bind HeaderValue.text? := by
  rw [Context.stagedHeader, Headers.text?, Headers.get?, Headers.getAll_of_name? h]

theorem stagedHeader_of_name?_none {name : String} (h : Headers.name? name = none) (c : Context) :
    c.stagedHeader name = none := by
  simp [Context.stagedHeader, Headers.text?, Headers.get?, Headers.getAll, h]

/-- The answer of an exchange reads the same behind a refused send if that stages nothing new. -/
theorem sameAnswer_of_leavesAlone (hstarted : s.context.started = true) {x : Sending}
    (hx : x.LeavesAlone s.context) : s.SameAnswer (s.send x).2 := by
  obtain ⟨⟨-, -, hafter⟩, hstatus, hvalues, hbody, hbare⟩ := leaves_of_started hstarted x
  refine ⟨?_, fun name => ?_, ?_, hafter.trans hstarted.symm⟩
  · rw [hstatus]
    cases hcode : Op.status? (.send x) with
    | none => rfl
    | some code => exact hx.status code hcode
  · cases hname : Headers.name? name with
    | none => rw [stagedHeader_of_name?_none hname, stagedHeader_of_name?_none hname]
    | some n =>
      rw [stagedHeader_of_name? hname, stagedHeader_of_name? hname, hvalues]
      cases hv : Op.value? n (.send x) with
      | none => rfl
      | some v =>
        obtain rfl := Sending.eq_location_of_value? hv
        exact (hx.location v hv).trans (stagedHeader_of_name? Headers.name?_location _)
  · by_cases hb : x.HasBody s.context
    · rw [hbody hb, hx.contentType hb]
    · exact hbare hb

theorem leavesAlone_of_sameAnswer (hstarted : s.context.started = true) {x : Sending}
    (h : s.SameAnswer (s.send x).2) : x.LeavesAlone s.context := by
  obtain ⟨-, hstatus, hvalues, hbody, -⟩ := leaves_of_started hstarted x
  refine ⟨fun code hcode => ?_, fun v hv => ?_, fun hb => ?_⟩
  · rw [← h.status, hstatus, hcode]
    rfl
  · rw [← h.header, stagedHeader_of_name? Headers.name?_location, hvalues, hv]
    rfl
  · rw [← h.contentType, hbody hb]

/-! ## Reports behind refused sends -/

/-- What the hook that reports requests adds to the record once a request was handled. -/
theorem run_logging_after (withHeaders : Bool)
    (answer : Failure → Option Status → Session → Ending Unit × Session) (t : Session) :
    ((Hook.logging withHeaders).after.run answer t).2 =
      t.log .info "Request handled" (Hook.requestFields t.context ++
        [Event.numberField "status" t.context.status.code, Hook.requestId t.context]) := rfl

/-- Sends behind an answer are refused, but they are not without effect.  Each of them fails
because an answer was sent, or for want of a renderer, and leaves the channel as it is.  Yet it
stages its status and the place where it leads, and takes the content type if it has a body.  So
what can be read of the answer is the same afterwards exactly if nothing of that is new, and what
is reported once the request was handled is the status of the send that was refused. -/
theorem send_of_started (s : Session) (hstarted : s.context.started = true) (x : Sending) :
    let sent := s.send x
    (sent.1 = .error (x.refusal s.context) ∧ sent.2.channel = s.channel ∧
      sent.2.context.started = true) ∧
    (s.SameAnswer sent.2 ↔ x.LeavesAlone s.context) ∧
    ∀ withHeaders answer, ((Hook.logging withHeaders).after.run answer sent.2).2 =
      sent.2.log .info "Request handled" (Hook.requestFields s.context ++
        [Event.numberField "status" ((Op.status? (.send x)).getD s.context.status).code,
          Hook.requestId s.context]) := by
  intro sent
  obtain ⟨hrefused, hstatus, -⟩ := leaves_of_started hstarted x
  refine ⟨hrefused, ⟨leavesAlone_of_sameAnswer hstarted, sameAnswer_of_leavesAlone hstarted⟩,
    fun withHeaders answer => ?_⟩
  have hfields := congrArg Hook.requestFields (given_send s x)
  have hid := congrArg Hook.requestId (given_send s x)
  change Hook.requestFields sent.2.context = Hook.requestFields s.context at hfields
  change Hook.requestId sent.2.context = Hook.requestId s.context at hid
  rw [run_logging_after, hfields, hid, hstatus]

/-- An exchange in which a text was sent. -/
def settled : Session := (awaited.send (.text "a")).2

/-- A second text leaves no trace, and neither does the status that was delivered. -/
theorem send_of_started_settled :
    settled.context.started = true ∧
      (settled.send (.text "b")).1 = .error .responseStarted ∧
      settled.SameAnswer (settled.send (.text "b")).2 ∧
      settled.SameAnswer (settled.send (.status .ok)).2 := by
  obtain ⟨hrefused, htext, -⟩ := send_of_started settled rfl (.text "b")
  obtain ⟨-, hstatus, -⟩ := send_of_started settled rfl (.status .ok)
  refine ⟨rfl, hrefused.1, htext.mpr ⟨?_, ?_, fun _ => rfl⟩, hstatus.mpr ⟨?_, ?_, fun hb => hb.elim⟩⟩
  · simp [Op.status?]
  · simp [Op.value?]
  · intro code hcode
    exact (Option.some.inj hcode).symm
  · simp [Op.value?]

/-- A refused status shows: it is read and reported as that of the answer, which has another one. -/
theorem not_alone_settled :
    settled.context.started = true ∧ settled.channel.answer.map (·.status) = some .ok ∧
      (settled.send (.status .notFound)).1 = .error .responseStarted ∧
      (settled.send (.status .notFound)).2.channel = settled.channel ∧
      ¬settled.SameAnswer (settled.send (.status .notFound)).2 ∧
      (settled.send (.status .notFound)).2.context.status = .notFound := by
  refine ⟨rfl, rfl, rfl, rfl, fun h => ?_, rfl⟩
  have hstatus : Status.notFound = .ok := h.status
  exact absurd hstatus (by decide)

/-- However many sends are refused, the last status that one of them stages is what is read. -/
theorem status_sendAll_of_started {s : Session} (hstarted : s.context.started = true)
    (xs : List Sending) :
    (s.sendAll xs).2.context.started = true ∧ (s.sendAll xs).2.channel = s.channel ∧
      (s.sendAll xs).2.context.status =
        (Op.last? Op.status? (xs.map .send)).getD s.context.status := by
  induction xs generalizing s with
  | nil => exact ⟨hstarted, rfl, rfl⟩
  | cons x xs ih =>
    obtain ⟨⟨-, hchannel, hafter⟩, hstatus, -⟩ := leaves_of_started hstarted x
    obtain ⟨hlast, hsame, hread⟩ := ih hafter
    refine ⟨hlast, hsame.trans hchannel, ?_⟩
    rw [sendAll, hread, hstatus, List.map_cons, Op.last?_cons]
    cases Op.last? Op.status? (xs.map .send) <;> rfl

end Session

end HttpApp
