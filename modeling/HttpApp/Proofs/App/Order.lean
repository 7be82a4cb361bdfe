/-
  HttpApp/Proofs/App/Order.lean --- the order of calls in a request.

  The hooks before the handler are called from the first one on, then the handler, then
  tasks, and at the end the hooks after the handler, from the last one back.  Main
  statements: these are all the calls of a request, in this order and each once, where
  no hook panics after the handler (`App.calls_in_order`); and a panic there leaves the
  request at once, without an answer (`App.escapes_of_runAfter`).
-/
import HttpApp.Proofs.App.Course
import HttpApp.Proofs.App.Delivery
import HttpApp.Proofs.App.Unwinding

set_option autoImplicit false

namespace HttpApp

open Session (Quiet Coherent)

/-! ## Calls at the end of a course -/

theorem Hook.exists_runAfter_of_idle {hooks : List Hook} (hhooks : ∀ h ∈ hooks, h.after = .ret ())
    (b : ErrorBoundary) (place : Nat) (s : Session) :
    ∃ t, Hook.runAfter b place hooks s = (.returned (), t) := by
  induction hooks generalizing place with
  | nil => exact ⟨s, rfl⟩
  | cons h hooks ih =>
    obtain ⟨hafter, hhooks⟩ := List.forall_mem_cons.1 hhooks
    obtain ⟨t, hrun⟩ := ih hhooks (place + 1)
    rw [Hook.runAfter, hrun, hafter]
    exact ⟨_, rfl⟩

/-- A callback that takes the context is called, and nothing else is. -/
theorem Script.quiet_detach (b : ErrorBoundary) (ownThread : Bool) (callback : Script Custody)
    (s : Session) : Quiet (s.called .detached) (callback.detach b ownThread s).2 := by
  have hrun : ∀ t : Session, Quiet t (callback.run b.answer t).2 :=
    fun t => (Script.acts_run b.acts_answer callback t).quiet
  have hoff := (Session.quiet_handOff (s.called .detached)).trans (hrun _)
  have hhere := hrun (s.called .detached)
  unfold detach
  dsimp only
  split
  · split
    · next custody t heq =>
      rw [heq] at hoff
      exact ⟨hoff.calls, hoff.inIoThread⟩
    · next p t heq =>
      rw [heq] at hoff
      exact hoff
  · split
    · next custody t heq =>
      rw [heq] at hhere
      exact ⟨hhere.calls, hhere.inIoThread⟩
    · next p t heq =>
      rw [heq] at hhere
      exact hhere.trans (Session.quiet_add t rfl)

section
variable {a : App} {r : Route}

/-- The calls that the last result of a course is followed by: the hooks after the handler, if
there is an answer for which the handler is done, or a callback that takes the context. -/
def Route.closingCalls (r : Route) : Except Failure Outcome → List Call
  | .ok (.render _) | .ok .done => (List.range r.hooks.length).reverse.map .after
  | .ok (.detach ..) => [.detached]
  | .ok (.dispatch ..) | .error _ => []

/-- No hook panics after the handler, if the handler is done with a result. -/
def Route.AfterReturns (a : App) (r : Route) (result : Except Failure Outcome) (s : Session) :
    Prop :=
  (result = .ok .done ∨ ∃ m, result = .ok (.render m)) →
    ∃ t, Hook.runAfter (a.boundaryOf r) 0 r.hooks s = (.returned (), t)

theorem calls_settle {result : Except Failure Outcome} {s : Session} (hstops : a.Stops result)
    (hafter : r.AfterReturns a result s) :
    (settle a r result s).2.calls = s.calls ++ r.closingCalls result := by
  have hanswered : ∀ f, ((a.boundaryOf r).answer f none s).2.calls = s.calls := fun f =>
    ((a.boundaryOf r).acts_answer f none s).quiet.calls
  match result with
  | .error f => simpa [settle, Route.closingCalls] using hanswered f
  | .ok (.render m) =>
    obtain ⟨t, hrun⟩ := hafter (.inr ⟨m, rfl⟩)
    simp only [settle, Outcome.resolve, hrun]
    rw [(t.acts_sendModel (a.boundaryOf r) m).quiet.calls, (Hook.calls_of_runAfter hrun).1,
      ← List.range_eq_range']
    rfl
  | .ok .done =>
    obtain ⟨t, hrun⟩ := hafter (.inl rfl)
    simp only [settle, Outcome.resolve, hrun]
    rw [t.acts_sendImplied.quiet.calls, (Hook.calls_of_runAfter hrun).1, ← List.range_eq_range']
    rfl
  | .ok (.dispatch executor task) =>
    simp only [settle, Outcome.resolve, Route.closingCalls, List.append_nil]
    split
    · exact hanswered _
    · next x hx =>
      have hdispatching := s.quiet_dispatching a.workers executor x
      rw [Executor.execute, hstops executor task x rfl hx]
      exact (hdispatching.trans (Session.quiet_add _ rfl)).calls
  | .ok (.detach ownThread callback) =>
    rw [settle, Outcome.resolve, (callback.quiet_detach _ ownThread s).calls, Session.calls_called]
    rfl

end

/-! ## Routes with hooks -/

def Route.hooked (hooks : List Hook) (handler : Handler) : Route :=
  { Route.plain handler with hooks }

def RouteTable.hooked (hooks : List Hook) (handler : Handler) : RouteTable :=
  ⟨[(.get, [.hooked hooks handler])]⟩

theorem RouteTable.lookup_hooked (hooks : List Hook) (handler : Handler) :
    (hooked hooks handler).lookup .get "/" = .matched (.hooked hooks handler) [] := by
  rfl

/-! ## The calls of a request -/

theorem Ending.eq_of_result?_eq_ok {ending : Ending (Except Failure Verdict)} {o : Outcome}
    (h : ending.result? = some (.ok o)) : ending = .returned (.ok (.respond o)) := by
  match ending, h with
  | .returned (.ok (.respond _)), rfl => rfl

namespace App

variable {a : App} {s : Session} {r : Route} {captures : Pattern.Captures}

/-- A request comes to the first outcome of its course. -/
theorem comesTo_of_enters {first : List Call} {result : Except Failure Outcome} {v : Session}
    (hlookup : a.table.lookup s.context.request.method s.context.request.path = .matched r captures)
    (h : r.Enters a (s.bound r captures) first result v) {o : Outcome} (ho : result = .ok o) :
    a.ComesTo s true r o v := by
  subst ho
  generalize hok : Except.ok o = result at h
  cases h with
  | halted hbegins hrun hresult =>
    subst hok
    obtain rfl := Ending.eq_of_result?_eq_ok hresult
    exact ⟨_, _, ⟨captures, hlookup, hbegins⟩, hrun⟩
  | @handled u v ending hbegins hrun =>
    obtain rfl := Ending.eq_of_guard_eq_ok hok.symm
    refine ⟨_, _, ⟨captures, hlookup, hbegins⟩, ?_⟩
    rw [Work.run, hrun]
    rfl

/-- A request comes to every outcome that is reached on its course. -/
theorem exists_comesTo_of_hops {result final : Except Failure Outcome} {v t : Session}
    {xs : List Executor} (h : r.Hops a result v xs final t)
    (hcomes : ∀ o, result = .ok o → ∃ here, a.ComesTo s here r o v) :
    ∀ o, final = .ok o → ∃ here, a.ComesTo s here r o t := by
  induction h with
  | here => exact hcomes
  | @task executor task x v u t ending xs final hx hplacement hrun hhops ih =>
    refine ih fun o ho => ?_
    obtain ⟨here, hcomes⟩ := hcomes _ rfl
    obtain rfl := Ending.eq_of_guard_eq_ok ho
    refine ⟨_, _, _, hcomes.begins hx hplacement, ?_⟩
    rw [Work.run, hrun]
    rfl

/-- On the course of a request the hooks return after the handler, if they do in that request. -/
theorem AfterHooksReturn.afterReturns {first : List Call} {result final : Except Failure Outcome}
    {v t : Session} {xs : List Executor} (hafter : a.AfterHooksReturn s)
    (hlookup : a.table.lookup s.context.request.method s.context.request.path = .matched r captures)
    (henters : r.Enters a (s.bound r captures) first result v) (hhops : r.Hops a result v xs final t) :
    r.AfterReturns a final t := by
  intro hfinal
  obtain ⟨o, rfl, ho⟩ : ∃ o, final = .ok o ∧ (o = .done ∨ ∃ m, o = .render m) := by
    rcases hfinal with rfl | ⟨m, rfl⟩
    · exact ⟨.done, rfl, .inl rfl⟩
    · exact ⟨.render m, rfl, .inr ⟨m, rfl⟩⟩
  obtain ⟨here, hcomes⟩ := exists_comesTo_of_hops hhops
    (fun o ho => ⟨true, comesTo_of_enters hlookup henters ho⟩) o rfl
  rcases hrun : Hook.runAfter (a.boundaryOf r) 0 r.hooks t with ⟨ending | p, u⟩
  · exact ⟨u, rfl⟩
  · exact absurd (congrArg Prod.fst hrun) (hafter _ _ _ _ hcomes ho p)

theorem answer_of_lookup
    (hlookup : a.table.lookup s.context.request.method s.context.request.path =
      .matched r captures) : a.answer s = r.answer a (s.bound r captures) := by
  rw [App.answer, hlookup]

/-- The calls of a request that a route takes, where no hook panics after the handler, are these,
in this order and each once: the hooks before the handler, from the first one on, up to the first
one that does not let the request proceed; the handler, if all of them do; the tasks, each of
which an outcome has handed to an executor that the application has and that does not drop it;
and then, just when the last outcome is a model to render or that nothing is left to do, the hooks
after the handler, from the last one back, before the model or the implicit answer is sent.  A
callback that takes the context is called in their place, and nothing is where the last result is
a failure, an executor that the application does not have, or one that drops the task. -/
theorem calls_in_order (a : App) (s : Session) {r : Route} {captures : Pattern.Captures}
    (hlookup : a.table.lookup s.context.request.method s.context.request.path = .matched r captures)
    (hafter : a.AfterHooksReturn s) :
    ∃ first result v xs final t,
      r.Enters a (s.bound r captures) first result v ∧ r.Hops a result v xs final t ∧
      a.Stops final ∧
      (a.answer s).2.calls =
        s.calls ++ first ++ xs.map (fun x => .task x.name) ++ r.closingCalls final ∧
      (∀ m, final = .ok (.render m) →
        ∃ u, Hook.runAfter (a.boundaryOf r) 0 r.hooks t = (.returned (), u) ∧
          u.calls = (a.answer s).2.calls ∧ a.answer s = u.sendModel (a.boundaryOf r) m) ∧
      (final = .ok .done →
        ∃ u, Hook.runAfter (a.boundaryOf r) 0 r.hooks t = (.returned (), u) ∧
          u.calls = (a.answer s).2.calls ∧ a.answer s = (.returned (), u.sendImplied)) := by
  obtain ⟨first, result, v, henters⟩ := r.exists_enters a (s.bound r captures)
  obtain ⟨xs, final, t, hhops, hstops⟩ := r.exists_hops a result v
  have hreturns := hafter.afterReturns hlookup henters hhops
  have hanswer := (answer_of_lookup hlookup).trans (henters.answer_eq hhops)
  -- The way back through executors calls nothing.
  have hcalls : (a.answer s).2.calls = t.calls ++ r.closingCalls final := by
    rw [← calls_settle hstops hreturns, hanswer]
    exact Executor.absorbAll_congr (fun u e => (Session.quiet_add u rfl).calls) xs _
  refine ⟨first, result, v, xs, final, t, henters, hhops, hstops, ?_, ?_, ?_⟩
  · have hbound : (s.bound r captures).calls = s.calls := rfl
    rw [hcalls, hhops.calls_eq.1, henters.calls_eq.1, hbound]
  · rintro m rfl
    obtain ⟨u, hrun⟩ := hreturns (.inr ⟨m, rfl⟩)
    have hsend : a.answer s = u.sendModel (a.boundaryOf r) m := by
      have hsent : u.sendModel (a.boundaryOf r) m =
          (.returned (), (u.sendModel (a.boundaryOf r) m).2) :=
        Prod.ext (Session.sendModel_returned _ m u) rfl
      rw [hanswer, settle, Outcome.resolve, hrun]
      dsimp only
      rw [hsent, Executor.absorbAll_returned]
    refine ⟨u, hrun, ?_, hsend⟩
    rw [hsend, (u.acts_sendModel (a.boundaryOf r) m).quiet.calls]
  · rintro rfl
    obtain ⟨u, hrun⟩ := hreturns (.inl rfl)
    have hsend : a.answer s = (.returned (), u.sendImplied) := by
      rw [hanswer, settle, Outcome.resolve, hrun]
      exact Executor.absorbAll_returned xs _
    refine ⟨u, hrun, ?_, hsend⟩
    rw [hsend, u.acts_sendImplied.quiet.calls]

/-- No hook panics after the handler if none of them does anything then. -/
theorem afterHooksReturn_of_hooked {hooks : List Hook} {handler : Handler}
    (htable : a.table = .hooked hooks handler) (hrequest : s.context.request = .plain)
    (hhooks : ∀ h ∈ hooks, h.after = .ret ()) : a.AfterHooksReturn s := by
  intro here r o v hcomes ho p
  obtain ⟨w, u, ⟨captures, hlookup, -⟩, -⟩ := hcomes
  rw [htable, hrequest] at hlookup
  obtain ⟨rfl, -⟩ := Lookup.matched.inj ((RouteTable.lookup_hooked _ _).symm.trans hlookup)
  obtain ⟨t, hrun⟩ := Hook.exists_runAfter_of_idle hhooks
    (a.boundaryOf (.hooked hooks handler)) 0 v
  change (Hook.runAfter _ 0 hooks v).1 ≠ _
  rw [hrun]
  simp

/-- Hooks that do nothing. -/
def twoHooks : List Hook := [{ name := "outer" }, { name := "inner" }]

/-- A handler that hands a task over, which hands over another one. -/
def twoHops : Handler :=
  .ret (.ok (.dispatch none (.ret (.ok (.dispatch (some "pool") (.ret (.ok .done)))))))

/-- An application with those hooks and that handler, where the first task runs at once and the
second one in a pool. -/
def relayTwice : App where
  table := .hooked twoHooks twoHops
  workers := { default := some .immediate, named := [("pool", .pool "pool")] }

def relayTwiceSession : Session := relayTwice.session .plain .held none false

/-- All hooks, the handler and both tasks are called, and nothing is called twice. -/
theorem calls_in_order_relayTwice :
    relayTwice.AfterHooksReturn relayTwiceSession ∧
      ∃ (first : List Call) (xs : List Executor) (final : Except Failure Outcome),
        relayTwice.Stops final ∧
        (relayTwice.answer relayTwiceSession).2.calls =
          first ++ xs.map (fun x => .task x.name) ++
            (Route.hooked twoHooks twoHops).closingCalls final ∧
        (relayTwice.answer relayTwiceSession).2.calls =
          [.before 0, .before 1, .handler, .task "inline", .task "pool", .after 1, .after 0] := by
  have hafter : relayTwice.AfterHooksReturn relayTwiceSession :=
    afterHooksReturn_of_hooked rfl rfl (by simp [twoHooks])
  obtain ⟨first, result, v, xs, final, t, -, -, hstops, hcalls, -⟩ :=
    calls_in_order relayTwice relayTwiceSession (RouteTable.lookup_hooked _ _) hafter
  exact ⟨hafter, first, xs, final, hstops, hcalls, rfl⟩

/-- The same application, where the pool is shut down. -/
def relayStopped : App := { relayTwice with
  workers := { default := some .immediate, named := [("pool", .stopped "pool")] } }

/-- It is not enough that an application has the executor to which an outcome hands a task: a pool
that is shut down drops it, so that the task is never called, nor are the hooks after the
handler. -/
theorem not_called_relayStopped :
    relayStopped.AfterHooksReturn relayTwiceSession ∧
      relayStopped.workers.get? (some "pool") = some (.stopped "pool") ∧
      (∃ v, relayStopped.ComesTo relayTwiceSession true (.hooked twoHooks twoHops)
        (.dispatch (some "pool") (.ret (.ok .done))) v) ∧
      (relayStopped.answer relayTwiceSession).2.calls =
        [.before 0, .before 1, .handler, .task "inline"] := by
  refine ⟨afterHooksReturn_of_hooked rfl rfl (by simp [twoHooks]), rfl, ?_, rfl⟩
  have hlookup := RouteTable.lookup_hooked twoHooks twoHops
  have hbegins := (Route.Begins.first (a := relayStopped) (r := .hooked twoHooks twoHops)
    (s := relayTwiceSession.bound (.hooked twoHooks twoHops) [])).next rfl |>.next rfl
  have htask := hbegins.task (x := .immediate) rfl rfl (by decide)
  exact ⟨_, _, _, ⟨[], hlookup, htask⟩, rfl⟩

/-! ## Panics after the handler -/

/-- A panic of a hook after the handler is not answered as an error.  Where the last outcome of a
request is a model to render or that nothing is left to do, and a hook panics then, the request
ends with the session in which that hook left it, whether or not an answer was sent: no error
handler is called, nor any other hook, and nothing is sent, so that there is an answer only if one
was sent before the panic.  On the thread of the caller the panic is raised as it is. -/
theorem escapes_of_runAfter (a : App) (request : Request) (receiver : Receiver)
    (limit : Option Nat) (poolStarted : Bool) {r : Route} {captures : Pattern.Captures}
    {first : List Call} {result final : Except Failure Outcome} {v t u : Session}
    {xs : List Executor} {p : Payload}
    (hlookup : a.table.lookup request.method request.path = .matched r captures)
    (henters : r.Enters a ((a.session request receiver limit poolStarted).bound r captures)
      first result v)
    (hhops : r.Hops a result v xs final t)
    (hfinal : final = .ok .done ∨ ∃ m, final = .ok (.render m))
    (hpanic : Hook.runAfter (a.boundaryOf r) 0 r.hooks t = (.panicked p, u)) :
    let s := a.session request receiver limit poolStarted
    a.answer s = Executor.absorbAll xs (.panicked p, u) ∧
      ((∀ x ∈ xs, x.placement = .caller) → a.answer s = (.panicked p, u)) ∧
      (a.answer s).2.channel = u.channel ∧
      Session.callsOf (a.answer s).2.record = Session.callsOf u.record ∧
      ((a.answer s).2.channel.answer.isSome = true → u.context.started = true) := by
  intro s
  have hanswer : a.answer s = Executor.absorbAll xs (.panicked p, u) := by
    rw [answer_of_lookup hlookup, henters.answer_eq hhops]
    rcases hfinal with rfl | ⟨m, rfl⟩ <;> rw [settle, Outcome.resolve, hpanic]
  have hchannel : (a.answer s).2.channel = u.channel := by
    rw [hanswer]
    exact Executor.absorbAll_congr (fun _ _ => rfl) xs _
  refine ⟨hanswer, fun hxs => ?_, hchannel, ?_, fun hsome => ?_⟩
  · rw [hanswer, Executor.absorbAll_caller hxs]
  · rw [hanswer]
    refine Executor.absorbAll_congr (f := fun w => Session.callsOf w.record) (fun w e => ?_) xs _
    simp [Session.add, Session.callsOf]
  · -- An answer in the channel was sent before the panic, and then the context is started.
    obtain ⟨o, rfl⟩ : ∃ o, final = .ok o := by
      rcases hfinal with rfl | ⟨m, rfl⟩ <;> exact ⟨_, rfl⟩
    obtain ⟨here, hcomes⟩ := exists_comesTo_of_hops hhops
      (fun o ho => ⟨true, comesTo_of_enters (s := s) hlookup henters ho⟩) o rfl
    have hreaches : Session.Reaches s u := hcomes.reaches.trans
      ((Hook.reaches_runAfter (a.boundaryOf r) r.hooks 0 t).of_run hpanic)
    have hcoherent : Coherent u := hreaches.coherent (a.coherent_session ..)
    exact hcoherent.started_of_answer (hchannel ▸ hsome)

/-- A hook that panics after the handler. -/
def brittleHook : Hook := { name := "brittle", after := .panic (.fixed "boom") }

/-- A route with that hook, whose handler does nothing. -/
def brittleRoute : Route := .hooked [brittleHook] (.ret (.ok .done))

/-- An application with that route, whose error handler sends a text. -/
def brittleAfter : App where
  table := .hooked [brittleHook] (.ret (.ok .done))
  errorHandler := fun _ _ => (Script.send (.text "sorry")).bind fun _ => .ret (.ok ())

def brittleAfterSession : Session := brittleAfter.session .plain .held none false

/-- The handler is done, the hook panics, and this is what the request ends with. -/
theorem escapes_of_runAfter_brittleAfter :
    ∃ v u, brittleRoute.Enters brittleAfter (brittleAfterSession.bound brittleRoute [])
        [.before 0, .handler] (.ok .done) v ∧
      Hook.runAfter (brittleAfter.boundaryOf brittleRoute) 0 brittleRoute.hooks v =
        (.panicked (.fixed "boom"), u) ∧
      brittleAfter.answer brittleAfterSession = (.panicked (.fixed "boom"), u) := by
  have hbegins := (Route.Begins.first (a := brittleAfter) (r := brittleRoute)
    (s := brittleAfterSession.bound brittleRoute [])).next rfl
  have henters := Route.Enters.handled hbegins rfl
  refine ⟨_, _, henters, rfl, ?_⟩
  exact (escapes_of_runAfter brittleAfter .plain .held none false (RouteTable.lookup_hooked _ _)
    henters .here (.inl rfl) rfl).2.1 (by simp)

/-- The panic is raised, but the error handler was not called, and no answer was sent, though none
was sent before and the caller waits. -/
theorem not_answered_brittleAfter :
    (brittleAfter.answer brittleAfterSession).1 = .panicked (.fixed "boom") ∧
      Session.callsOf (brittleAfter.answer brittleAfterSession).2.record =
        [.before 0, .handler, .after 0] ∧
      (brittleAfter.answer brittleAfterSession).2.isClosed = false ∧
      (brittleAfter.answer brittleAfterSession).2.context.started = false ∧
      (brittleAfter.answer brittleAfterSession).2.channel.answer = none :=
  ⟨rfl, rfl, rfl, rfl, rfl⟩

end App

end HttpApp
