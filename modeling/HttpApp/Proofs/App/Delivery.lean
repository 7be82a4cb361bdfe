/-
  HttpApp/Proofs/App/Delivery.lean --- each request has one answer.

  An exchange is over when its answer was sent or nobody waits for it any more.
  Answering an error gets an exchange over, and so does every outcome but a callback
  that takes the context.  Main statement: whatever hooks, handlers, tasks and error
  handlers do, at most one response is sent, and one is sent where nothing but a panic
  after the handler, a callback or a dropped job could prevent it.
-/
import HttpApp.Proofs.App.Progress

set_option autoImplicit false

namespace HttpApp

open Session (Reaches Coherent)

/-! ## Exchanges that are over -/

/-- The answer was sent, or nobody waits for it any more. -/
def Session.Over (s : Session) : Prop := s.context.started = true ∨ s.channel.receiver = .gone

theorem Session.Reaches.over {s t : Session} (h : Reaches s t) (hs : s.Over) : t.Over :=
  hs.imp h.started h.gone

/-- An exchange that is over, and whose caller still waits, has its answer. -/
theorem Session.Over.exists_answer {s : Session} (hover : s.Over) (hs : Coherent s)
    (hwaits : s.channel.receiver ≠ .gone) : ∃ x, s.channel.answer = some x := by
  have hstarted : s.context.started = true := hover.resolve_right hwaits
  exact Option.isSome_iff_exists.1 ((hs.delivered hstarted).resolve_right hwaits)

namespace ErrorBoundary

theorem over_of_discard? {f : Failure} {status : Status} {s t : Session} (hs : Coherent s)
    (h : discard? f status s = some t) : t.Over := by
  refine (reaches_of_discard? h).over ?_
  unfold discard? at h
  split at h
  · next hstarted => exact .inl hstarted
  · split at h
    · next hclosed =>
      rw [Session.isClosed, Bool.or_eq_true] at hclosed
      refine hclosed.imp (fun hsender => ?_) fun hgone => by simpa using hgone
      exact hs.started_iff.2 (by simpa using hsender)
    · simp at h

theorem over_conclude (f : Failure) (status : Status) (ending : Ending (Except Failure Unit))
    {s : Session} (hs : Coherent s) : (conclude f status ending s).Over := by
  have hbare : ∀ t : Session, Coherent t →
      (if t.context.started then t else (t.complete (.bare status)).2).Over := by
    intro t ht
    split
    · next hstarted => exact .inl hstarted
    · exact .inl (ht.started_complete _)
  unfold conclude
  cases handlerFailure? ending with
  | none => exact hbare s hs
  | some reason => exact hbare _ ((Session.Step.add s _).coherent hs)

/-- Answering an error gets an exchange over. -/
theorem over_answerWithin (b : ErrorBoundary) (limit : Nat) (f : Failure) (status : Option Status)
    {s : Session} (hs : Coherent s) : (b.answerWithin limit f status s).2.Over := by
  have hhandling : ∀ status, Coherent (handling f status s) := fun status =>
    (reaches_handling f status s).coherent hs
  cases limit with
  | zero =>
    rw [answerWithin]
    split
    · next t h => exact (reaches_reraise f t).over (over_of_discard? hs h)
    · exact (reaches_reraise ..).over (over_conclude f _ _ (hhandling _))
  | succ limit =>
    have hrun := Script.reaches_run (b.reaches_answerWithin limit)
      (b.handler f (status.getD (b.classify f)))
    rw [answerWithin]
    split
    · next t h => exact (reaches_reraise f t).over (over_of_discard? hs h)
    · exact (reaches_reraise ..).over (over_conclude f _ _ ((hrun _).coherent (hhandling _)))

theorem over_answer (b : ErrorBoundary) (f : Failure) (status : Option Status) {s : Session}
    (hs : Coherent s) : (b.answer f status s).2.Over :=
  b.over_answerWithin b.nesting f status hs

end ErrorBoundary

namespace Session

theorem over_sendBytes {s : Session} (hs : Coherent s) (m : MediaType) (body : Bytes) :
    (s.sendBytes m body).2.Over :=
  have htaken : Coherent (s.takeContentType m).2 :=
    ⟨hs.started_iff, hs.started_of_answer, hs.delivered⟩
  .inl (htaken.started_complete _)

/-- A model that is rendered is sent, and one that is not is answered as an error. -/
theorem over_sendModel (b : ErrorBoundary) (m : Model) {s : Session} (hs : Coherent s) :
    (s.sendModel b m).2.Over := by
  have hsend : Reaches s (s.send (.model m)).2 := .single (.perform s (.send (.model m)))
  unfold sendModel
  split
  · next t heq =>
    rw [send] at heq
    split at heq
    · next rendered _ =>
      have hover := over_sendBytes hs rendered.mediaType rendered.body
      rw [heq] at hover
      exact hover
    · simp at heq
  · next e t heq => exact b.over_answer _ _ ((hsend.of_run heq).coherent hs)

theorem over_sendImplied {s : Session} (hs : Coherent s) : s.sendImplied.Over := by
  have hsent : (s.sendStatus s.context.status).2.Over :=
    .inl (((Step.perform s (.stage (.status s.context.status))).coherent hs).started_complete _)
  unfold sendImplied
  split
  · next hstarted => exact .inl hstarted
  · split
    · next t heq =>
      rw [heq] at hsent
      exact hsent
    · next e t heq =>
      rw [heq] at hsent
      exact (Reaches.over (.single (.add t _)) hsent)

end Session

/-- An executor that runs its jobs gets an exchange over if the job does. -/
theorem Executor.over_execute {x : Executor} (hx : x.placement ≠ .nowhere)
    {job : Session → Ending Unit × Session} {s : Session}
    (hjob : (job (if x.placement = .caller then s else s.handOff)).2.Over) :
    (x.execute job s).2.Over := by
  unfold execute
  split
  · next hplacement => simpa [hplacement] using hjob
  · next name hplacement =>
    simp only [hplacement, reduceCtorEq, if_false] at hjob
    split
    · next t heq =>
      rw [heq] at hjob
      exact hjob
    · next p t heq =>
      rw [heq] at hjob
      exact Session.Reaches.over (.single (.add t _)) hjob
  · next hplacement => simpa [hplacement] using hjob
  · next hplacement => exact absurd hplacement hx

/-! ## Outcomes and requests -/

namespace App

variable {a : App} {s : Session} {r : Route}

/-- What a work of a request ends with gets the exchange over. -/
theorem over_settle {here : Bool} {w : Work} {u v : Session}
    {ending : Ending (Except Failure Verdict)} {result : Except Failure Outcome}
    (hs : Coherent s) (hbegins : a.Begins s here r w u) (hrun : w.run a r u = (ending, v))
    (hresult : ending.result? = some result)
    (hresolve : ∀ o, result = .ok o → a.ComesTo s here r o v → (o.resolve a r v).2.Over) :
    (settle a r result v).2.Over := by
  have hreaches : Reaches s v := hbegins.reaches.trans ((Work.reaches_run a r w u).of_run hrun)
  match ending, hresult with
  | .returned (.ok (.respond o)), rfl => exact hresolve o rfl ⟨w, u, hbegins, hrun⟩
  | .returned (.error f), rfl => exact (a.boundaryOf r).over_answer f none (hreaches.coherent hs)
  | .panicked p, rfl =>
    exact (a.boundaryOf r).over_answer (.ofPanic p) none (hreaches.coherent hs)

/-- Every outcome that a request comes to gets the exchange over, where no callback takes the
context. -/
theorem over_resolve (hs : Coherent s) (hjobs : a.JobsRun s) (hdetach : a.NeverDetaches s)
    (hafter : a.AfterHooksReturn s) {here : Bool} {o : Outcome} {v : Session}
    (hcomes : a.ComesTo s here r o v) : (o.resolve a r v).2.Over := by
  induction o using Outcome.induction generalizing here v with
  | render m =>
    have hrun : Reaches s (Hook.runAfter (a.boundaryOf r) 0 r.hooks v).2 :=
      hcomes.reaches.trans (Hook.reaches_runAfter (a.boundaryOf r) r.hooks 0 v)
    rw [Outcome.resolve]
    split
    · next p t heq => exact absurd (congrArg Prod.fst heq) (hafter _ _ _ _ hcomes (.inr ⟨m, rfl⟩) p)
    · next t heq =>
      exact Session.over_sendModel _ m ((hrun.of_run heq).coherent hs)
  | done =>
    have hrun : Reaches s (Hook.runAfter (a.boundaryOf r) 0 r.hooks v).2 :=
      hcomes.reaches.trans (Hook.reaches_runAfter (a.boundaryOf r) r.hooks 0 v)
    rw [Outcome.resolve]
    split
    · next p t heq => exact absurd (congrArg Prod.fst heq) (hafter _ _ _ _ hcomes (.inl rfl) p)
    · next t heq => exact Session.over_sendImplied ((hrun.of_run heq).coherent hs)
  | dispatch executor task ih =>
    rw [Outcome.resolve]
    split
    · exact (a.boundaryOf r).over_answer _ none (hcomes.reaches.coherent hs)
    · next x hx =>
      have hplacement := hjobs _ _ _ _ _ _ hcomes hx
      have hbegins := hcomes.begins hx hplacement
      refine Executor.over_execute hplacement ?_
      change (runTask a r task ((v.handedTo a executor x).entering x)).2.Over
      rw [runTask_eq]
      refine over_settle hs hbegins rfl (Ending.result?_toVerdict _) fun o ho hcomes' => ?_
      exact ih _ _ o _ (Prod.ext (Ending.eq_of_guard_eq_ok ho) rfl) hcomes'
  | detach ownThread callback => exact absurd hcomes (hdetach _ _ _ _ _)

theorem over_answer (hs : Coherent s) (hjobs : a.JobsRun s) (hdetach : a.NeverDetaches s)
    (hafter : a.AfterHooksReturn s) : (a.answer s).2.Over := by
  unfold App.answer
  dsimp only
  split
  · next r captures hlookup =>
    obtain ⟨w, u, v, ending, result, hbegins, hrun, hresult⟩ :=
      r.exists_begins_result a (s.bound r captures)
    rw [hbegins.answer_eq hrun hresult]
    exact over_settle hs ⟨captures, hlookup, hbegins⟩ hrun hresult fun o _ hcomes =>
      over_resolve hs hjobs hdetach hafter hcomes
  · exact a.boundary.over_answer _ none hs
  · exact a.boundary.over_answer _ none ((Session.Step.perform s (.stage (.header _ _))).coherent hs)

theorem coherent_session (a : App) (request : Request) (receiver : Receiver) (limit : Option Nat)
    (poolStarted : Bool) : Coherent (a.session request receiver limit poolStarted) :=
  ⟨by simp [session], by simp [session], by simp [session]⟩

/-- Each request has one answer.  In whatever state steps bring the exchange, departures of the
caller included, the context is started exactly when its sending end is used up, so that a send
fails for want of a receiver only if the receiver is gone; and a response that is in the channel
stays there as it is.  Every script is made of such steps, whatever its error handlers are, and
so is the run of an application.  That run leaves a response in the channel if the caller still
waits then, executors ran what they were handed, no callback took the context, and no hook
panicked after the handler: however it ended, by raising a fatal error again or not. -/
theorem answered_once (a : App) (request : Request) (receiver : Receiver) (limit : Option Nat)
    (poolStarted : Bool) :
    let s := a.session request receiver limit poolStarted
    (∀ t, Reaches s t →
      (t.context.started = true ↔ t.context.hasSender = false) ∧
      ∀ response, (t.complete response).1 = .error (.io .connectionAborted) →
        t.channel.receiver = .gone) ∧
    (∀ t u x, Reaches s t → Reaches t u → t.channel.answer = some x → u.channel.answer = some x) ∧
    (∀ (α : Type) (b : ErrorBoundary) (x : Script α) t, Reaches s t →
      Reaches s (x.run b.answer t).2) ∧
    (∀ here r w u, a.Begins s here r w u → Reaches s u) ∧
    Reaches s (a.answer s).2 ∧
    (a.JobsRun s → a.NeverDetaches s → a.AfterHooksReturn s →
      (a.answer s).2.channel.receiver ≠ .gone → ∃ x, (a.answer s).2.channel.answer = some x) := by
  intro s
  have hs : Coherent s := a.coherent_session request receiver limit poolStarted
  have hrun : Reaches s (a.answer s).2 := a.reaches_answer s
  refine ⟨?_, ?_, ?_, ?_, hrun, ?_⟩
  · intro t ht
    exact ⟨(ht.coherent hs).started_iff, fun _ => (ht.coherent hs).gone_of_complete⟩
  · intro t u x ht hu
    exact hu.answer_eq (ht.coherent hs)
  · intro α b x t ht
    exact ht.trans (Script.reaches_run b.reaches_answer x t)
  · intro here r w u hbegins
    exact hbegins.reaches
  · intro hjobs hdetach hafter hwaits
    have hover : (a.answer s).2.Over := over_answer hs hjobs hdetach hafter
    exact hover.exists_answer (hrun.coherent hs) hwaits

/-- A handler that hands over a task that panics. -/
def relayHandler : Handler := .ret (.ok (.dispatch none (.panic .other)))

/-- An application with that handler, where tasks run at once. -/
def relay : App where
  table := .plain relayHandler
  workers := { default := some .immediate }

/-- A request for that handler. -/
def relaySession : Session := relay.session .plain .held none false

theorem relay_begins {s u : Session} {here : Bool} {w : Work}
    (h : (Route.plain relayHandler).Begins relay s here w u) :
    w = .handler ∨ ∃ x, w = .task x (.panic .other) := by
  induction h with
  | first => exact .inl rfl
  | next _ _ ih => simp at ih
  | task _ hrun _ _ ih =>
    rcases ih with rfl | ⟨x, rfl⟩
    · simp [Work.run, Route.plain, relayHandler, Script.run, Ending.toVerdict, Except.map] at hrun
      exact .inr ⟨_, by rw [hrun.1.2]⟩
    · simp [Work.run, Script.run, Ending.toVerdict] at hrun

theorem relay_comesTo {v : Session} {here : Bool} {r : Route} {o : Outcome}
    (h : relay.ComesTo relaySession here r o v) : o = .dispatch none (.panic .other) := by
  obtain ⟨w, u, ⟨captures, hlookup, hbegins⟩, hrun⟩ := h
  obtain ⟨rfl, -⟩ := Lookup.matched.inj ((RouteTable.lookup_plain _).symm.trans hlookup)
  rcases relay_begins hbegins with rfl | ⟨x, rfl⟩
  · simp [Work.run, Route.plain, relayHandler, Script.run, Ending.toVerdict, Except.map] at hrun
    exact hrun.1.symm
  · simp [Work.run, Script.run, Ending.toVerdict] at hrun

/-- The task panics, and so the request ends with that panic, but only after its answer. -/
theorem answered_once_relay :
    relay.JobsRun relaySession ∧ relay.NeverDetaches relaySession ∧
      relay.AfterHooksReturn relaySession ∧
      (relay.answer relaySession).2.channel.receiver ≠ .gone ∧
      (relay.answer relaySession).1 = .panicked .other ∧
      ∃ x, (relay.answer relaySession).2.channel.answer = some x := by
  have hjobs : relay.JobsRun relaySession := by
    intro here r executor task v x hcomes hx
    obtain ⟨rfl, rfl⟩ := Outcome.dispatch.inj (relay_comesTo hcomes)
    obtain rfl := Option.some.inj hx
    simp [Workers.defaultExecutor, relay, Executor.immediate]
  have hdetach : relay.NeverDetaches relaySession := by
    intro here r ownThread callback v hcomes
    cases relay_comesTo hcomes
  have hafter : relay.AfterHooksReturn relaySession := by
    intro here r o v hcomes ho
    simp [relay_comesTo hcomes] at ho
  have hwaits : (relay.answer relaySession).2.channel.receiver ≠ .gone := by decide +kernel
  exact ⟨hjobs, hdetach, hafter, hwaits, by rfl,
    (answered_once relay .plain .held none false).2.2.2.2.2 hjobs hdetach hafter hwaits⟩

end App

end HttpApp
