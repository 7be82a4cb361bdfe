/-
  HttpApp/Proofs/Server/Respond.lean --- a server passes on what an application delivers.

  A server waits for the answer of an application as long as its time limit allows, and
  makes a response of whatever became of the answer.  Main statement: whatever hooks,
  handlers and tasks do, and however the run ends, that response is the delivered one,
  or a bare one that says why there is none, with an identifier; and it is the one that
  a caller without a limit gets, if the limit was not reached.
-/
import HttpApp.Proofs.App.Mirrors

set_option autoImplicit false

namespace HttpApp

open Session (Alike Held)

/-! ## Identifiers of responses -/

namespace Response

/-- Two responses have everything in common but the values of one header. -/
structure SameBut (name : String) (r r' : Response) : Prop where
  status : r'.status = r.status
  body : r'.body = r.body
  others : r'.headers.others name = r.headers.others name

theorem SameBut.refl (name : String) (r : Response) : SameBut name r r := ⟨rfl, rfl, rfl⟩

/-- A response is another one, with an identifier if that has none that can be read. -/
structure Identifies (x : Response) (id : String) (r : Response) : Prop where
  same : SameBut Server.idHeader x r
  header : r.header Server.idHeader = some ((x.header Server.idHeader).getD id)
  eq_of_isSome : (x.header Server.idHeader).isSome = true → r = x

end Response

namespace Server

theorem name?_idHeader : Headers.name? idHeader = some idHeader := by decide +kernel

/-- An identifier is a text that can be read as the value of a header. -/
theorem exists_value (request : Request) :
    ∃ v, HeaderValue.ofText? ((request.header idHeader).getD "") = some v ∧
      v.text? = some ((request.header idHeader).getD "") := by
  cases hid : request.header idHeader with
  | none => exact ⟨[], by decide +kernel, by decide +kernel⟩
  | some id =>
    obtain ⟨v, -, hv⟩ := Option.bind_eq_some_iff.1 hid
    exact ⟨v, HeaderValue.ofText?_of_text? hv, hv⟩

theorem identifies_withId (x : Response) {id : String} {v : HeaderValue}
    (hvalue : HeaderValue.ofText? id = some v) (hreadable : v.text? = some id) :
    x.Identifies id (withId x id) := by
  cases hx : x.header idHeader with
  | some own =>
    have hsame : withId x id = x := by rw [withId, if_pos (by rw [hx]; rfl)]
    rw [hsame]
    exact ⟨.refl _ x, by rw [hx]; rfl, fun _ => rfl⟩
  | none =>
    have hset : withId x id = { x with headers := x.headers.insert idHeader v } := by
      rw [withId, if_neg (by rw [hx]; simp), Response.withHeader, Headers.insertText,
        name?_idHeader, hvalue]
    rw [hset]
    refine ⟨⟨rfl, rfl, Headers.others_insert _ _ _⟩, ?_, fun hsome => ?_⟩
    · rw [hx, Response.header, Headers.text?, Headers.get?, Headers.getAll, name?_idHeader]
      simp [hreadable]
    · simp [hx] at hsome

/-! ## What became of an answer -/

/-- The response for what became of an answer. -/
def responseTo : Delivery → Response
  | .answered r => r
  | .dropped => .bare .internalServerError
  | .pending | .abandoned => .bare .serviceUnavailable

/-- A server adds nothing to what became of an answer but an identifier, however the run ends. -/
theorem respond_fst (a : App) (request : Request) (timeout : Nat) (newId : String)
    (poolStarted : Bool) :
    (respond a request timeout newId poolStarted).1 =
      withId (responseTo (a.answer
          (a.session (identified request newId) .held (some timeout) poolStarted)).2.delivery)
        (((identified request newId).header idHeader).getD "") := by
  unfold respond
  dsimp only
  rcases a.answer (a.session (identified request newId) .held (some timeout) poolStarted) with
    ⟨_ | p, s⟩
  · dsimp only
    cases s.delivery <;> rfl
  · -- The report of the panic does not change what is on the channel.
    have hreport : ∀ fields, (s.log .error "Fatal error escaped request handling" fields).delivery =
        s.delivery := fun _ => rfl
    dsimp only
    rw [hreport]
    cases s.delivery <;> rfl

end Server

namespace Session

variable {s : Session}

theorem Held.delivery_of_answer (h : Held s) {x : Response} (hx : s.channel.answer = some x) :
    s.delivery = .answered x := by
  have hreceiver : s.channel.receiver ≠ .gone := by
    intro hgone
    simp [h.unanswered hgone] at hx
  rw [delivery, if_neg hreceiver, hx]

theorem Held.delivery_of_expired (h : Held s) (hexpired : s.expired = true) :
    s.delivery = .abandoned := by
  rw [delivery, if_pos (h.gone_iff.2 hexpired)]

theorem Held.delivery_of_unanswered (h : Held s) (hexpired : s.expired = false)
    (hanswer : s.channel.answer = none) :
    s.delivery = if s.kept then .pending else .dropped := by
  have hreceiver : s.channel.receiver ≠ .gone := by
    intro hgone
    simp [h.gone_iff.1 hgone] at hexpired
  rw [delivery, if_neg hreceiver, hanswer]

end Session

namespace App

variable (a : App) (request : Request) (poolStarted : Bool)

theorem held_session (limit : Option Nat) : Held (a.session request .held limit poolStarted) :=
  ⟨by simp [session], by simp [session, Session.expired], by simp [session]⟩

/-! ## Callers without a limit -/

/-- A caller with a limit, beside one without, is like one whose request was handed to this
executor: it may begin to wait elsewhere, but nobody sees that. -/
def limiter : Executor := ⟨"limiter", true, .background⟩

theorem alike_session (limit : Option Nat) :
    Alike limiter (a.session request .held none poolStarted)
      (a.session request .held limit poolStarted) where
  context := rfl
  channel := rfl
  record := rfl
  clock := rfl
  kept := rfl
  inIoThread := fun _ => rfl
  patience := fun hcaller => by simp [limiter] at hcaller
  limit := .inl rfl
  since := fun c hc => by simp [session] at hc
  waited := fun c hc => by simp [session] at hc

/-- What a caller without a limit gets is what became of the answer for a caller whose limit is not
reached. -/
theorem handle_of_answer (limit : Option Nat) {s : Session}
    (hrun : a.answer (a.session request .held limit poolStarted) = (.returned (), s))
    (hexpired : s.expired = false) (hends : s.kept = true → s.channel.answer.isSome = true) :
    (a.handle request poolStarted).1 = .returned (some (Server.responseTo s.delivery)) := by
  obtain ⟨s', hs, h⟩ := (mirrors_answer (x := limiter) rfl a).apply
    (a.alike_session request poolStarted limit) hrun (.inr hexpired)
  have hdelivery : s'.delivery = s.delivery := by
    rw [Session.delivery, Session.delivery, h.channel, h.kept]
  have hheld : Held s := by
    have hmoves := a.moves_answer (a.session request .held limit poolStarted)
    rw [hrun] at hmoves
    exact hmoves.held (a.held_session request poolStarted limit)
  rw [handle, hs]
  dsimp only
  rw [hdelivery]
  cases hanswer : s.channel.answer with
  | some x => rw [hheld.delivery_of_answer hanswer]; rfl
  | none =>
    have hkept : s.kept = false := by
      cases hkept : s.kept with
      | false => rfl
      | true => simpa [hanswer] using hends hkept
    rw [hheld.delivery_of_unanswered hexpired hanswer, hkept]
    rfl

end App

/-! ## Servers -/

namespace Server

/-- A server is faithful to its application.  For a body within the limit, and whatever is done
while the request is answered, the server responds, even if that ends with a panic:

* with the response that came into the channel, if there is one;
* with a bare 500 if the context was given up without one;
* with a bare 503 if the time was up first, or would be up because the context is kept for good.

Once the time is up, nothing comes into the channel.  To these responses it adds nothing but an
identifier, and only where there is none that can be read.  A request that has an identifier
itself and ends without a panic in time gets the same from the application for a caller that waits
without a limit. -/
theorem testRequest_faithful (a : App) (config : ServerConfig) (request : Request) (newId : String)
    (poolStarted : Bool) (hbody : request.body.length ≤ config.maxBodySize) :
    let inside := identified request newId
    let run := a.answer (a.session inside .held (some config.requestTimeout) poolStarted)
    let id := (inside.header idHeader).getD ""
    let response := (testRequest a config request newId poolStarted).1
    (∀ x, run.2.channel.answer = some x → x.Identifies id response) ∧
    (run.2.channel.answer = none → run.2.expired = false → run.2.kept = false →
      (Response.bare .internalServerError).Identifies id response) ∧
    (run.2.channel.answer = none → run.2.expired = true ∨ run.2.kept = true →
      (Response.bare .serviceUnavailable).Identifies id response) ∧
    (run.2.expired = true → run.2.channel.answer = none) ∧
    ((request.header idHeader).isSome = true → run.1 = .returned () → run.2.expired = false →
      (run.2.kept = true → run.2.channel.answer.isSome = true) →
      ∃ x, (a.handle request poolStarted).1 = .returned (some x) ∧
        x.SameBut idHeader response) := by
  intro inside run id response
  have hheld : Held run.2 :=
    (a.moves_answer _).held (a.held_session inside poolStarted (some config.requestTimeout))
  have hresponse : response = withId (responseTo run.2.delivery) id := by
    have htaken : response = (respond a request config.requestTimeout newId poolStarted).1 := by
      change (testRequest a config request newId poolStarted).1 = _
      rw [testRequest, if_neg (Nat.not_lt.2 hbody)]
    rw [htaken, respond_fst]
  have hidentifies : (responseTo run.2.delivery).Identifies id response := by
    obtain ⟨v, hvalue, hreadable⟩ := exists_value inside
    rw [hresponse]
    exact identifies_withId _ hvalue hreadable
  refine ⟨fun x hx => ?_, fun hanswer hexpired hkept => ?_, fun hanswer hup => ?_,
    fun hexpired => ?_, fun hid hreturned hexpired hends => ?_⟩
  · rwa [hheld.delivery_of_answer hx] at hidentifies
  · rwa [hheld.delivery_of_unanswered hexpired hanswer, hkept] at hidentifies
  · cases hexpired : run.2.expired with
    | true => rwa [hheld.delivery_of_expired hexpired] at hidentifies
    | false =>
      have hkept : run.2.kept = true := hup.resolve_left (by simp [hexpired])
      rwa [hheld.delivery_of_unanswered hexpired hanswer, hkept] at hidentifies
  · exact hheld.unanswered (hheld.gone_iff.2 hexpired)
  · have hinside : inside = request := if_pos hid
    have hrun : a.answer (a.session request .held (some config.requestTimeout) poolStarted) =
        (.returned (), run.2) := by
      rw [← hinside]
      exact Prod.ext hreturned rfl
    exact ⟨_, a.handle_of_answer request poolStarted _ hrun hexpired hends, hidentifies.same⟩

/-- An application whose handler sends an answer and panics. -/
def parting : App where
  table := .plain (.ask (.send (.text "sent")) fun _ => .panic .other)

/-- An application whose handler does nothing. -/
def idling : App where
  table := .plain (.ret (.ok .done))

/-- A request with an identifier. -/
def tagged : Request := Request.plain.withHeader idHeader "r"

/-- The answer of a handler that panics after it is still the response, with a new identifier, and a
request with an identifier gets the same from the application. -/
theorem testRequest_faithful_parting :
    Request.plain.body.length ≤ ({} : ServerConfig).maxBodySize ∧
      (parting.answer (parting.session (identified .plain "1") .held (some 30000) false)).1 =
        .panicked .other ∧
      (testRequest parting {} .plain "1" false).1.body = Bytes.ofText "sent" ∧
      (testRequest parting {} .plain "1" false).1.header idHeader = some "1" ∧
      ∃ x, (idling.handle tagged false).1 = .returned (some x) ∧
        x.SameBut idHeader (testRequest idling {} tagged "1" false).1 := by
  have hsent := (testRequest_faithful parting {} .plain "1" false (by decide)).1
  have hsame := (testRequest_faithful idling {} tagged "1" false (by decide)).2.2.2.2
  have hbody : (parting.answer (parting.session (identified .plain "1") .held (some 30000)
      false)).2.channel.answer.map (fun x => (x.body, x.header idHeader)) =
        some (Bytes.ofText "sent", none) := by decide +kernel
  obtain ⟨x, hx, hparts⟩ := Option.map_eq_some_iff.1 hbody
  obtain ⟨hbody, hheader⟩ := Prod.mk.inj hparts
  refine ⟨by decide, rfl, (hsent x hx).same.body.trans hbody, ?_, ?_⟩
  · rw [(hsent x hx).header, hheader]
    decide +kernel
  · have hreadable : (tagged.header idHeader).isSome = true := by decide +kernel
    have hidentified : identified tagged "1" = tagged := if_pos hreadable
    rw [hidentified] at hsame
    exact hsame hreadable rfl (by decide +kernel) (by decide +kernel)

/-- An application whose handler gives the answer an identifier that cannot be read. -/
def accented : App where
  table := .plain (.ask (.stage (.header idHeader "é")) fun _ => .ret (.ok .done))

/-- An identifier is not only added: one that cannot be read is replaced. -/
theorem not_added_accented :
    ∃ x, (accented.answer (accented.session tagged .held (some 30000) false)).2.channel.answer =
        some x ∧
      x.headers.valuesOf idHeader = [[195, 169]] ∧
      (testRequest accented {} tagged "1" false).1.headers.valuesOf idHeader = [[114]] := by
  have hvalues : (accented.answer (accented.session tagged .held (some 30000)
      false)).2.channel.answer.map (fun x => x.headers.valuesOf idHeader) =
        some [[195, 169]] := by decide +kernel
  obtain ⟨x, hx, hown⟩ := Option.map_eq_some_iff.1 hvalues
  exact ⟨x, hx, hown, by decide +kernel⟩

end Server

end HttpApp
