/-
  HttpApp/Proofs/Session/Departure.lean --- sends for which nobody waits.

  The first send of an exchange uses the sending end of its channel up and starts the
  context, whether or not it succeeds.  Main statement: where the receiver is gone
  before anything was sent, the first send fails for that, and all sends behind it fail
  as if an answer had been sent.
-/
import HttpApp.Proofs.Session.Steps

set_option autoImplicit false

namespace HttpApp

/-- A context without what is staged for its answer. -/
def Context.unstaged (c : Context) : Context :=
  { c with status := .ok, headers := {}, contentType := none, started := false, hasSender := true }

/-- A renderer is found for what is sent, if it is a model. -/
def Sending.Negotiated (c : Context) : Sending → Prop
  | .model m => ∃ rendered, c.rendered m = .ok rendered
  | _ => True

theorem Sending.negotiated_congr {c d : Context} (h : d.unstaged = c.unstaged) {x : Sending}
    (hx : x.Negotiated c) : x.Negotiated d := by
  cases x with
  | model m =>
    have hrendered : d.unstaged.rendered m = c.unstaged.rendered m := by rw [h]
    obtain ⟨rendered, hr⟩ := hx
    exact ⟨rendered, hrendered.trans hr⟩
  | _ => trivial

namespace Session

/-- Sends one thing after the other: what each send is told, and the exchange behind them. -/
def sendAll (s : Session) : List Sending → List (Except Error Unit) × Session
  | [] => ([], s)
  | x :: xs => ((s.send x).1 :: ((s.send x).2.sendAll xs).1, ((s.send x).2.sendAll xs).2)

/-- What a send is told if nobody waits for an answer. -/
def refusal (s : Session) : Error :=
  if s.context.started then .responseStarted else .io .connectionAborted

/-- A send for which nobody waits: it is refused, leaves the channel as it is and starts the
context. -/
structure Refused (s : Session) (sent : Except Error Unit × Session) : Prop where
  refused : sent.1 = .error s.refusal
  started : sent.2.context.started = true
  channel : sent.2.channel = s.channel
  unstaged : sent.2.context.unstaged = s.context.unstaged

theorem complete_of_started {s : Session} (h : s.context.started = true) (response : Response) :
    s.complete response = (.error .responseStarted, s) := by
  rw [complete, if_pos h]

theorem complete_of_gone {s : Session} (hgone : s.channel.receiver = .gone)
    (hstarted : s.context.started = false) (hsender : s.context.hasSender = true)
    (response : Response) :
    s.complete response = (.error (.io .connectionAborted), s.withContext fun c =>
      { c with started := true, hasSender := false, headers := {} }) := by
  rw [complete, if_neg (by simp [hstarted]), if_neg (by simp [hsender])]
  dsimp only
  rw [if_pos (by exact hgone)]

theorem refused_complete {s : Session} (hs : Coherent s) (hgone : s.channel.receiver = .gone)
    (response : Response) : Refused s (s.complete response) := by
  cases hstarted : s.context.started with
  | true =>
    rw [complete_of_started hstarted]
    exact ⟨by rw [refusal, if_pos hstarted], hstarted, rfl, rfl⟩
  | false =>
    have hsender : s.context.hasSender = true := by
      cases hsender : s.context.hasSender with
      | true => rfl
      | false => simp [hs.started_iff.2 hsender] at hstarted
    rw [complete_of_gone hgone hstarted hsender]
    exact ⟨by simp [refusal, hstarted], rfl, rfl, rfl⟩

/-- Staging does not keep a send from being refused. -/
theorem Refused.of_staged {s t : Session} {sent : Except Error Unit × Session}
    (h : Refused t sent) (hstarted : t.context.started = s.context.started)
    (hchannel : t.channel = s.channel) (hunstaged : t.context.unstaged = s.context.unstaged) :
    Refused s sent := by
  refine ⟨?_, h.started, h.channel.trans hchannel, h.unstaged.trans hunstaged⟩
  rw [h.refused, refusal, hstarted, refusal]

theorem refused_send {s : Session} (hs : Coherent s) (hgone : s.channel.receiver = .gone)
    {x : Sending} (hx : x.Negotiated s.context) : Refused s (s.send x) := by
  have hbytes : ∀ m body, Refused s (s.sendBytes m body) := by
    intro m body
    have htaken : Coherent (s.takeContentType m).2 :=
      ⟨hs.started_iff, hs.started_of_answer, hs.delivered⟩
    exact (refused_complete htaken hgone _).of_staged rfl rfl rfl
  have hstatus : ∀ {t : Session} (status : Status), Coherent t → t.channel.receiver = .gone →
      Refused t (t.sendStatus status) := by
    intro t status ht hgone
    have hstaged : Coherent (t.stage (.status status)) :=
      (Step.perform t (.stage (.status status))).coherent ht
    exact (refused_complete hstaged hgone _).of_staged rfl rfl rfl
  cases x with
  | model m =>
    obtain ⟨rendered, hrendered⟩ := hx
    rw [send, hrendered]
    exact hbytes _ _
  | text body => exact hbytes _ _
  | bytes body => exact hbytes _ _
  | status status => exact hstatus status hs hgone
  | redirect status location =>
    have hkeeps := keeps_stageHeader s "location" location
    have hstaged : Coherent (s.stageHeader "location" location) :=
      (Step.perform s (.stage (.header "location" location))).coherent hs
    have hsame : (s.stageHeader "location" location).channel = s.channel ∧
        (s.stageHeader "location" location).context.unstaged = s.context.unstaged := by
      unfold stageHeader
      split <;> exact ⟨rfl, rfl⟩
    exact (hstatus status hstaged (hkeeps.gone hgone)).of_staged hkeeps.started hsame.1 hsame.2

/-- Once a context is started, every send is refused as the second one of an exchange. -/
theorem sendAll_of_started {s : Session} (hs : Coherent s) (hgone : s.channel.receiver = .gone)
    (hstarted : s.context.started = true) {xs : List Sending}
    (hxs : ∀ x ∈ xs, x.Negotiated s.context) :
    (s.sendAll xs).1 = List.replicate xs.length (.error .responseStarted) ∧
      (s.sendAll xs).2.context.started = true ∧ (s.sendAll xs).2.channel = s.channel := by
  induction xs generalizing s with
  | nil => exact ⟨rfl, hstarted, rfl⟩
  | cons x xs ih =>
    have hx := refused_send hs hgone (hxs x List.mem_cons_self)
    have hrefusal : s.refusal = .responseStarted := by rw [refusal, if_pos hstarted]
    have hnext : Coherent (s.send x).2 := (Step.perform s (.send x)).coherent hs
    obtain ⟨hreplies, hlast, hchannel⟩ := ih hnext (hx.channel ▸ hgone) hx.started fun y hy =>
        Sending.negotiated_congr hx.unstaged (hxs y (List.mem_cons_of_mem x hy))
    refine ⟨?_, hlast, hchannel.trans hx.channel⟩
    rw [sendAll, hreplies, hx.refused, hrefusal]
    rfl

/-- Sends for which nobody waits.  Where the receiver is gone before anything was sent, the first
send fails because the connection was aborted, and yet it starts the context: every send behind it
fails as if an answer had been sent.  Nothing comes into the channel. -/
theorem sends_refused (s : Session) (hs : Coherent s) (hgone : s.channel.receiver = .gone)
    (hunstarted : s.context.started = false) (x : Sending) (xs : List Sending)
    (hxs : ∀ y ∈ x :: xs, y.Negotiated s.context) :
    (s.sendAll (x :: xs)).1 = .error (.io .connectionAborted) ::
        List.replicate xs.length (.error .responseStarted) ∧
      (s.send x).2.context.started = true ∧
      (s.sendAll (x :: xs)).2.context.started = true ∧
      (s.sendAll (x :: xs)).2.channel.answer = none := by
  have hx := refused_send hs hgone (hxs x List.mem_cons_self)
  have hrefusal : s.refusal = .io .connectionAborted := by simp [refusal, hunstarted]
  have hunanswered : s.channel.answer = none := by
    cases hanswer : s.channel.answer with
    | none => rfl
    | some response => simp [hs.started_of_answer (by rw [hanswer]; rfl)] at hunstarted
  have hnext : Coherent (s.send x).2 := (Step.perform s (.send x)).coherent hs
  obtain ⟨hreplies, hlast, hchannel⟩ :=
    sendAll_of_started hnext (hx.channel ▸ hgone) hx.started fun y hy =>
      Sending.negotiated_congr hx.unstaged (hxs y (List.mem_cons_of_mem x hy))
  refine ⟨?_, hx.started, hlast, ?_⟩
  · rw [sendAll, hreplies, hx.refused, hrefusal]
  · rw [sendAll, hchannel, hx.channel, hunanswered]

/-- An exchange whose receiver went away at once. -/
def departed : Session where
  context := { request := { method := .get, path := "/" }, renderers := [.text] }
  channel := { receiver := .gone }

theorem coherent_departed : Coherent departed :=
  ⟨by simp [departed], by simp [departed], by simp [departed]⟩

/-- Three sends of different kinds, the last one by a renderer that is found. -/
theorem sends_refused_departed :
    Coherent departed ∧ departed.channel.receiver = .gone ∧ departed.context.started = false ∧
      (∃ rendered, departed.context.rendered (.text "c") = .ok rendered) ∧
      (departed.sendAll [.text "a", .redirect .found "/b", .model (.text "c")]).1 =
        [.error (.io .connectionAborted), .error .responseStarted, .error .responseStarted] := by
  have hrendered : departed.context.rendered (.text "c") = .ok ⟨.text, Bytes.ofText "c"⟩ := rfl
  refine ⟨coherent_departed, rfl, rfl, ⟨_, hrendered⟩, ?_⟩
  refine (sends_refused departed coherent_departed rfl rfl (.text "a")
    [.redirect .found "/b", .model (.text "c")] fun y hy => ?_).1
  simp only [List.mem_cons, List.not_mem_nil, or_false] at hy
  rcases hy with rfl | rfl | rfl
  · trivial
  · trivial
  · exact ⟨_, hrendered⟩

/-- Not every send for which nobody waits fails because the connection was aborted: the second one
does not, and the context is started although nothing was sent. -/
theorem not_aborted_again :
    Coherent departed ∧ departed.channel.receiver = .gone ∧ departed.context.started = false ∧
      (¬∀ reply ∈ (departed.sendAll [.text "a", .text "b"]).1,
        reply = .error (.io .connectionAborted)) ∧
      (departed.sendAll [.text "a", .text "b"]).2.context.started = true ∧
      (departed.sendAll [.text "a", .text "b"]).2.channel.answer = none := by
  refine ⟨coherent_departed, rfl, rfl, fun hall => ?_, rfl, rfl⟩
  have hsecond := hall (.error .responseStarted) (.tail _ (.head _))
  simp at hsecond

end Session

end HttpApp
