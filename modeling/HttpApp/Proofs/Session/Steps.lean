/-
  HttpApp/Proofs/Session/Steps.lean --- what can be done to an exchange.

  A step is one thing that is done to an exchange: by a script, by the framework, or
  by the caller, who can stop waiting at any moment.  `Reaches` allows steps in any
  order, so what it leaves fixed is fixed in every run.  Main statements: the context
  counts as started exactly when the sending end of its channel is used up, and a
  response that is in the channel stays there as it is.
-/
import HttpApp.App
import Mathlib.Logic.Relation

set_option autoImplicit false

namespace HttpApp.Session

/-! ## Steps -/

/-- One thing that is done to an exchange. -/
inductive Step : Session → Session → Prop where
  /-- a step of a script, or a send of the framework -/
  | perform (s : Session) (op : Op) : Step s (s.perform op).2
  /-- the framework sends a response of its own -/
  | complete (s : Session) (response : Response) : Step s (s.complete response).2
  | add (s : Session) (e : Entry) : Step s (s.add e)
  /-- a route takes the request -/
  | bound (s : Session) (r : Route) (captures : Pattern.Captures) : Step s (s.bound r captures)
  /-- the context leaves the thread that accepted the request -/
  | leave (s : Session) : Step s (s.withContext fun c => { c with inIoThread := false })
  /-- the caller begins to wait -/
  | handOff (s : Session) : Step s s.handOff
  /-- the default pool of workers starts -/
  | startPool (s : Session) : Step s { s with poolStarted := true }
  /-- who owns the context gives it up or keeps it for good -/
  | keep (s : Session) (kept : Bool) : Step s { s with kept }
  /-- the caller stops waiting -/
  | depart (s : Session) : Step s { s with channel := { s.channel with receiver := .gone } }

/-- What a relation holds across, where the run is known by its result. -/
theorem rel_of_run {ε : Type} {R : Session → Session → Prop} {s t : Session}
    {run : ε × Session} {ending : ε} (h : R s run.2) (hrun : run = (ending, t)) : R s t := by
  rw [hrun] at h
  exact h

/-- What steps in any order can make of an exchange. -/
abbrev Reaches : Session → Session → Prop := Relation.ReflTransGen Step

/-! ## What a step can change -/

/-- Nothing is sent between two states of an exchange. -/
structure Keeps (s t : Session) : Prop where
  started : t.context.started = s.context.started
  hasSender : t.context.hasSender = s.context.hasSender
  answer : t.channel.answer = s.channel.answer
  /-- a caller that stopped waiting does not come back -/
  gone : s.channel.receiver = .gone → t.channel.receiver = .gone
  /-- what is recorded stays recorded -/
  record : s.record <+: t.record

/-- The one send of an exchange lies between two states. -/
structure Sends (s t : Session) : Prop where
  unstarted : s.context.started = false
  started : t.context.started = true
  taken : t.context.hasSender = false
  delivered : t.channel.answer.isSome = true ∨ t.channel.receiver = .gone
  gone : s.channel.receiver = .gone → t.channel.receiver = .gone
  record : s.record <+: t.record

theorem Keeps.refl (s : Session) : Keeps s s := ⟨rfl, rfl, rfl, id, List.prefix_rfl⟩

theorem Keeps.trans {s t u : Session} (h : Keeps s t) (h' : Keeps t u) : Keeps s u :=
  ⟨h'.started.trans h.started, h'.hasSender.trans h.hasSender, h'.answer.trans h.answer,
    fun hg => h'.gone (h.gone hg), h.record.trans h'.record⟩

theorem Keeps.trans_sends {s t u : Session} (h : Keeps s t) (h' : Sends t u) : Sends s u :=
  ⟨h.started.symm.trans h'.unstarted, h'.started, h'.taken, h'.delivered,
    fun hg => h'.gone (h.gone hg), h.record.trans h'.record⟩

theorem keeps_add (s : Session) (e : Entry) : Keeps s (s.add e) :=
  ⟨rfl, rfl, rfl, id, List.prefix_append _ _⟩

theorem keeps_stageHeader (s : Session) (name value : String) :
    Keeps s (s.stageHeader name value) := by
  unfold stageHeader
  split
  · exact ⟨rfl, rfl, rfl, id, List.prefix_rfl⟩
  · exact keeps_add s _

theorem keeps_stage (s : Session) (x : Staging) : Keeps s (s.stage x) := by
  cases x with
  | header name value => exact keeps_stageHeader s name value
  | _ => exact ⟨rfl, rfl, rfl, id, List.prefix_rfl⟩

theorem keeps_sleep (s : Session) (milliseconds : Nat) : Keeps s (s.sleep milliseconds) := by
  unfold sleep
  dsimp only
  split
  · split
    · exact ⟨rfl, rfl, rfl, fun _ => rfl, List.prefix_append _ _⟩
    · exact ⟨rfl, rfl, rfl, id, List.prefix_rfl⟩
  · exact ⟨rfl, rfl, rfl, id, List.prefix_rfl⟩

theorem keeps_handOff (s : Session) : Keeps s s.handOff := by
  unfold handOff
  split <;> exact ⟨rfl, rfl, rfl, id, List.prefix_rfl⟩

theorem keeps_hangUp (s : Session) : Keeps s s.hangUp.2 := by
  unfold hangUp
  split
  · exact ⟨rfl, rfl, rfl, fun _ => rfl, List.prefix_rfl⟩
  · exact .refl s

/-- Completing an exchange sends its one response, or nothing if one was sent before. -/
theorem complete_keeps_or_sends (s : Session) (response : Response) :
    Keeps s (s.complete response).2 ∨ Sends s (s.complete response).2 := by
  unfold complete
  split
  · exact .inl (.refl s)
  · next hstarted =>
    have hunstarted : s.context.started = false := by simpa using hstarted
    split
    · exact .inl (.refl s)
    · dsimp only
      split
      · next hgone => exact .inr ⟨hunstarted, rfl, rfl, .inr hgone, id, List.prefix_rfl⟩
      · exact .inr ⟨hunstarted, rfl, rfl, .inl rfl, id, List.prefix_rfl⟩

theorem sendBytes_keeps_or_sends (s : Session) (m : MediaType) (body : Bytes) :
    Keeps s (s.sendBytes m body).2 ∨ Sends s (s.sendBytes m body).2 := by
  have htaken : Keeps s (s.takeContentType m).2 := ⟨rfl, rfl, rfl, id, List.prefix_rfl⟩
  exact (complete_keeps_or_sends (s.takeContentType m).2 _).imp htaken.trans htaken.trans_sends

theorem sendStatus_keeps_or_sends (s : Session) (status : Status) :
    Keeps s (s.sendStatus status).2 ∨ Sends s (s.sendStatus status).2 := by
  have hstaged := keeps_stage s (.status status)
  exact (complete_keeps_or_sends (s.stage (.status status)) _).imp hstaged.trans hstaged.trans_sends

theorem send_keeps_or_sends (s : Session) (x : Sending) :
    Keeps s (s.send x).2 ∨ Sends s (s.send x).2 := by
  cases x with
  | model m =>
    rw [send]
    split
    · exact sendBytes_keeps_or_sends s _ _
    · exact .inl (.refl s)
  | text body => exact sendBytes_keeps_or_sends s _ _
  | bytes body => exact sendBytes_keeps_or_sends s _ _
  | status status => exact sendStatus_keeps_or_sends s status
  | redirect status location =>
    have hstaged := keeps_stageHeader s "location" location
    exact (sendStatus_keeps_or_sends (s.stageHeader "location" location) status).imp
      hstaged.trans hstaged.trans_sends

/-- A step sends the one response of the exchange or nothing at all. -/
theorem Step.keeps_or_sends {s t : Session} (h : Step s t) : Keeps s t ∨ Sends s t := by
  cases h with
  | perform op =>
    cases op with
    | stage x => exact .inl (keeps_stage s x)
    | send x => exact send_keeps_or_sends s x
    | log e => exact .inl (keeps_add s _)
    | note text => exact .inl (keeps_add s _)
    | hangUp => exact .inl (keeps_hangUp s)
    | sleep milliseconds => exact .inl (keeps_sleep s milliseconds)
    | _ => exact .inl (.refl s)
  | complete response => exact complete_keeps_or_sends s response
  | add e => exact .inl (keeps_add s e)
  | handOff => exact .inl (keeps_handOff s)
  | depart => exact .inl ⟨rfl, rfl, rfl, fun _ => rfl, List.prefix_rfl⟩
  | _ => exact .inl ⟨rfl, rfl, rfl, id, List.prefix_rfl⟩

/-! ## What every run leaves fixed -/

theorem Step.gone {s t : Session} (h : Step s t) (hs : s.channel.receiver = .gone) :
    t.channel.receiver = .gone := by
  rcases h.keeps_or_sends with hkeeps | hsends
  · exact hkeeps.gone hs
  · exact hsends.gone hs

theorem Step.record {s t : Session} (h : Step s t) : s.record <+: t.record := by
  rcases h.keeps_or_sends with hkeeps | hsends
  · exact hkeeps.record
  · exact hsends.record

theorem Step.started {s t : Session} (h : Step s t) (hs : s.context.started = true) :
    t.context.started = true := by
  rcases h.keeps_or_sends with hkeeps | hsends
  · rw [hkeeps.started, hs]
  · exact hsends.started

/-- A context that is started stays so. -/
theorem Reaches.started {s t : Session} (h : Reaches s t) (hs : s.context.started = true) :
    t.context.started = true := by
  induction h with
  | refl => exact hs
  | tail _ step ih => exact step.started ih

/-- A caller that stopped waiting does not come back. -/
theorem Reaches.gone {s t : Session} (h : Reaches s t) (hs : s.channel.receiver = .gone) :
    t.channel.receiver = .gone := by
  induction h with
  | refl => exact hs
  | tail _ step ih => exact step.gone ih

/-- The record of an exchange only grows. -/
theorem Reaches.record {s t : Session} (h : Reaches s t) : s.record <+: t.record := by
  induction h with
  | refl => exact List.prefix_rfl
  | tail _ step ih => exact ih.trans step.record

/-- The context, its sending end and the channel agree on whether a response was sent. -/
structure Coherent (s : Session) : Prop where
  started_iff : s.context.started = true ↔ s.context.hasSender = false
  started_of_answer : s.channel.answer.isSome = true → s.context.started = true
  delivered : s.context.started = true →
    s.channel.answer.isSome = true ∨ s.channel.receiver = .gone

theorem Step.coherent {s t : Session} (h : Step s t) (hs : Coherent s) : Coherent t := by
  rcases h.keeps_or_sends with hkeeps | hsends
  · refine ⟨?_, ?_, ?_⟩
    · rw [hkeeps.started, hkeeps.hasSender]
      exact hs.started_iff
    · rw [hkeeps.started, hkeeps.answer]
      exact hs.started_of_answer
    · rw [hkeeps.started, hkeeps.answer]
      intro hstarted
      exact (hs.delivered hstarted).imp id hkeeps.gone
  · exact ⟨by simp [hsends.started, hsends.taken], fun _ => hsends.started,
      fun _ => hsends.delivered⟩

theorem Reaches.coherent {s t : Session} (h : Reaches s t) (hs : Coherent s) : Coherent t := by
  induction h with
  | refl => exact hs
  | tail _ step ih => exact step.coherent ih

/-- A step changes no response that is in the channel. -/
theorem Step.answer_eq {s t : Session} (h : Step s t) (hs : Coherent s) {x : Response}
    (hx : s.channel.answer = some x) : t.channel.answer = some x := by
  rcases h.keeps_or_sends with hkeeps | hsends
  · rw [hkeeps.answer, hx]
  · have hstarted : s.context.started = true := hs.started_of_answer (by rw [hx]; rfl)
    rw [hsends.unstarted] at hstarted
    exact absurd hstarted (by simp)

/-- A response that is in the channel stays there as it is. -/
theorem Reaches.answer_eq {s t : Session} (h : Reaches s t) (hs : Coherent s) {x : Response}
    (hx : s.channel.answer = some x) : t.channel.answer = some x := by
  induction h with
  | refl => exact hx
  | tail before step ih => exact step.answer_eq (Reaches.coherent before hs) ih

/-- Once a context is started, the answer stays as it is. -/
theorem Reaches.answer_eq_of_started {s t : Session} (h : Reaches s t) (hs : s.context.started = true) :
    t.channel.answer = s.channel.answer := by
  induction h with
  | refl => rfl
  | @tail u t before step ih =>
    rcases step.keeps_or_sends with hkeeps | hsends
    · exact hkeeps.answer.trans ih
    · exact absurd ((Reaches.started before hs).symm.trans hsends.unstarted) (by decide)

/-- Completing an exchange leaves it started. -/
theorem Coherent.started_complete {s : Session} (hs : Coherent s) (response : Response) :
    (s.complete response).2.context.started = true := by
  unfold complete
  split
  · next hstarted => exact hstarted
  · next hstarted =>
    split
    · next hsender => exact absurd (hs.started_iff.2 (by simpa using hsender)) hstarted
    · dsimp only
      split <;> rfl

/-- A send that fails for want of a receiver fails because the receiver is gone: a sending end
that is missing was used up by the send that started the answer. -/
theorem Coherent.gone_of_complete {s : Session} (hs : Coherent s) {response : Response}
    (h : (s.complete response).1 = .error (.io .connectionAborted)) :
    s.channel.receiver = .gone := by
  unfold complete at h
  split at h
  · simp at h
  · next hstarted =>
    split at h
    · next hsender => exact absurd (hs.started_iff.2 (by simpa using hsender)) hstarted
    · dsimp only at h
      split at h
      · next hgone => exact hgone
      · simp at h

end HttpApp.Session
