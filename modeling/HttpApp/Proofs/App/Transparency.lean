/-
  HttpApp/Proofs/App/Transparency.lean --- handing a task over changes nothing.

  A handler that hands a task to an executor is compared with one that does what the
  task does.  Main statement: the caller of either gets the same answer, by the same
  calls of hooks and error handlers, if nothing that is run looks at its thread and the
  caller's time is not up before the task is done; where the executor runs jobs at
  once, the request ends in the same way, too (`App.dispatch_transparent`).
-/
import HttpApp.Proofs.App.Mirrors
import HttpApp.Proofs.App.Order
import HttpApp.Proofs.App.Threads
import HttpApp.Server.Respond

set_option autoImplicit false

namespace HttpApp

open Session (Alike Patient Reaches)

/-! ## Handlers in two parts -/

/-- A handler that goes on with what its first part comes to. -/
def Handler.followedBy {α : Type} (first : Fallible α) (next : α → Handler) : Handler :=
  first.bind fun
    | .ok v => next v
    | .error f => .ret (.error f)

theorem Script.run_bind {α β : Type}
    (answer : Failure → Option Status → Session → Ending Unit × Session) (y : Script α)
    (f : α → Script β) (s : Session) :
    (y.bind f).run answer s =
      match y.run answer s with
      | (.returned v, t) => (f v).run answer t
      | (.panicked p, t) => (.panicked p, t) := by
  induction y generalizing s with
  | ret a => rfl
  | panic p => rfl
  | ask op next ih => exact ih _ _
  | sendError f status next ih =>
    rw [Script.bind, Script.run, Script.run]
    rcases answer f status s with ⟨_ | p, t⟩
    · exact ih t
    · rfl

section
variable {a a' : App} {r r' : Route}

theorem runTask_bind {α : Type} (y : Script α) (f : α → Handler) (s : Session) :
    runTask a r (y.bind f) s =
      match y.run (a.boundaryOf r).answer s with
      | (.returned v, t) => runTask a r (f v) t
      | (.panicked p, t) => settle a r (.error (.ofPanic p)) t := by
  rw [runTask_eq, Script.run_bind]
  rcases y.run (a.boundaryOf r).answer s with ⟨v | p, t⟩
  · exact (runTask_eq a r (f v) t).symm
  · rfl

/-! ## What settling depends on -/

theorem Outcome.resolve_congr (hworkers : a'.workers = a.workers)
    (hboundary : a'.boundaryOf r' = a.boundaryOf r) (hhooks : r'.hooks = r.hooks) (o : Outcome)
    (s : Session) : o.resolve a' r' s = o.resolve a r s := by
  induction o using Outcome.induction generalizing s with
  | render m => rw [Outcome.resolve, Outcome.resolve, hboundary, hhooks]
  | done => rw [Outcome.resolve, Outcome.resolve, hboundary, hhooks]
  | detach ownThread callback => rw [Outcome.resolve, Outcome.resolve, hboundary]
  | dispatch executor task ih =>
    have htask : runTask a' r' task = runTask a r task := by
      funext u
      rw [runTask_eq, runTask_eq, hboundary]
      cases hguard : (task.run (a.boundaryOf r).answer u).1.guard with
      | error f => rw [settle, settle, hboundary]
      | ok o => exact ih _ u o _ (Prod.ext (Ending.eq_of_guard_eq_ok hguard) rfl) _
    rw [Outcome.resolve, Outcome.resolve, hboundary, hworkers, htask]

/-- Settling a result depends on the executors and the error boundary of an application, and on
the hooks of a route. -/
theorem settle_congr (hworkers : a'.workers = a.workers)
    (hboundary : a'.boundaryOf r' = a.boundaryOf r) (hhooks : r'.hooks = r.hooks) :
    settle a' r' = settle a r := by
  funext result s
  cases result with
  | ok o => exact Outcome.resolve_congr hworkers hboundary hhooks o s
  | error f => rw [settle, settle, hboundary]

/-- A route with one handler or another. -/
theorem Route.answer_withHandler (a : App) (r : Route) (table : RouteTable) (handler : Handler)
    (s : Session) :
    ({ r with handler } : Route).answer { a with table } s =
      match Hook.runBefore (a.boundaryOf r) 0 r.hooks s with
      | (.returned (.ok .proceed), u) => runTask a r handler (u.called .handler)
      | (.returned (.ok (.respond o)), u) => settle a r (.ok o) u
      | (.returned (.error f), u) => settle a r (.error f) u
      | (.panicked p, u) => settle a r (.error (.ofPanic p)) u := by
  have hsettle : settle { a with table } { r with handler } = settle a r := settle_congr rfl rfl rfl
  have hboundary : ({ a with table } : App).boundaryOf { r with handler } = a.boundaryOf r := rfl
  rw [Route.answer, hsettle, Route.runFrom, hboundary, List.drop_zero]
  rcases Hook.runBefore (a.boundaryOf r) 0 r.hooks s with ⟨(f | _ | o) | p, u⟩
  · rfl
  · exact (runTask_eq a r handler _).symm
  · rfl
  · rfl

/-! ## Handing over -/

/-- A task that is handed over to an executor that runs its jobs ends like the task itself, but for
a panic that the executor keeps from the caller. -/
theorem alike_settle_dispatch {x : Executor} {executor : Option String} {task : Handler}
    {s : Session} (hs : s.Waited) (hx : a.workers.get? executor = some x)
    (hplacement : x.placement ≠ .nowhere) (hr : x.inline = true ∨ r.Unaware a)
    (htask : x.inline = true ∨ task.Unaware Outcome.UnawareResult)
    (hpatient : Patient x (settle a r (.ok (.dispatch executor task)) s).2) :
    (x.placement = .caller →
      (settle a r (.ok (.dispatch executor task)) s).1 = (runTask a r task s).1) ∧
    Alike x (runTask a r task s).2 (settle a r (.ok (.dispatch executor task)) s).2 := by
  have hsettle : settle a r (.ok (.dispatch executor task)) s =
      x.absorb (runTask a r task ((s.handedTo a executor x).entering x)) := by
    rw [settle, Outcome.resolve, hx]
    dsimp only
    rw [Executor.execute_eq_absorb hplacement]
    rfl
  rw [hsettle] at hpatient ⊢
  have hrun : Mirrors x (runTask a r task) := by
    refine mirrors_runTask hr htask fun answer s o t hends => ?_
    exact Outcome.mirrors_resolve hr (htask.imp id fun htask => htask.only.of_run hends o rfl)
  have hstart : Alike x s ((s.handedTo a executor x).entering x) :=
    hs.alike.entering_handedTo a executor
  obtain ⟨hending, hafter⟩ := hrun _ _ hstart ((x.reaches_absorb _).patient hpatient)
  refine ⟨fun hcaller => ?_, ?_⟩
  · rw [Executor.absorb_caller hcaller]
    exact hending
  · rcases x.absorb_snd (runTask a r task ((s.handedTo a executor x).entering x)) with heq | ⟨e, heq⟩
    · rw [heq]
      exact hafter
    · rw [heq]
      exact hafter.add_right rfl

/-- A route whose handler hands a task over, and one whose handler does what the task does. -/
theorem Route.alike_answer {x : Executor} {executor : Option String} {α : Type}
    {first : Fallible α} {task : α → Handler} {s : Session} (hs : s.Waited)
    (hx : a.workers.get? executor = some x) (hplacement : x.placement ≠ .nowhere)
    (hr : x.inline = true ∨ r.Unaware a)
    (htask : ∀ v, x.inline = true ∨ (task v).Unaware Outcome.UnawareResult)
    (table table' : RouteTable) {here there : Ending Unit × Session}
    (hhere : ({ r with handler := .followedBy first task } : Route).answer { a with table } s = here)
    (hthere : ({ r with handler := .followedBy first fun v => .ret (.ok (.dispatch executor (task v))) }
      : Route).answer { a with table := table' } s = there)
    (hpatient : Patient x there.2) :
    (x.placement = .caller → there.1 = here.1) ∧ Alike x here.2 there.2 := by
  have hbefore := Hook.reaches_runBefore (a.boundaryOf r) r.hooks 0 s
  rw [Route.answer_withHandler] at hhere hthere
  -- Both requests are one up to the end of the first part of the handler.
  have hsame : here = there → here.2.Waited →
      (x.placement = .caller → there.1 = here.1) ∧ Alike x here.2 there.2 := by
    rintro rfl hwaited
    exact ⟨fun _ => rfl, hwaited.alike⟩
  have hreaches : ∀ {u : Session} (result : Except Failure Outcome), Reaches s u →
      (settle a r result u).2.Waited := by
    intro u result hu
    exact Reaches.waited (hu.trans (reaches_settle a r result u)) hs
  rcases hrun : Hook.runBefore (a.boundaryOf r) 0 r.hooks s with ⟨(f | _ | o) | p, u⟩ <;>
    rw [hrun] at hhere hthere hbefore <;> dsimp only at hhere hthere hbefore
  · exact hsame (hhere.symm.trans hthere) (hhere ▸ hreaches _ hbefore)
  · have hfirst : Reaches s (first.run (a.boundaryOf r).answer (u.called .handler)).2 :=
      (hbefore.tail (.add u _)).trans (Script.reaches_run (a.boundaryOf r).reaches_answer first _)
    unfold Handler.followedBy at hhere hthere
    rw [runTask_bind] at hhere hthere
    rcases hfirstRun : first.run (a.boundaryOf r).answer (u.called .handler) with ⟨(f | v) | p, w⟩ <;>
      rw [hfirstRun] at hhere hthere hfirst <;> dsimp only at hhere hthere hfirst
    · exact hsame (hhere.symm.trans hthere) (hhere ▸ hreaches (.error f) hfirst)
    · subst hhere
      subst hthere
      exact alike_settle_dispatch (Reaches.waited hfirst hs) hx hplacement hr (htask v) hpatient
    · exact hsame (hhere.symm.trans hthere) (hhere ▸ hreaches _ hfirst)
  · exact hsame (hhere.symm.trans hthere) (hhere ▸ hreaches _ hbefore)
  · exact hsame (hhere.symm.trans hthere) (hhere ▸ hreaches _ hbefore)

end

namespace App

/-- The session of a request begins before anyone waits. -/
theorem waited_session (a : App) (request : Request) (receiver : Receiver) (limit : Option Nat)
    (poolStarted : Bool) : (a.session request receiver limit poolStarted).Waited := by
  intro c hc
  cases hc

/-- Handing a task over is transparent.  The handler of a route may do what a task does, or hand
the task over to an executor that the application has and that runs its jobs.  Then the request
gets the same answer, by the same calls of hooks, error handlers and callbacks, and what is raised
is the same where the executor runs jobs at once.  It is assumed that neither the task nor what is
run behind it sees its thread, unless the executor is inline, and that the caller does not stop
waiting, unless the executor runs jobs at once.  And wherever a script of a request is, its
context is on the first thread exactly if all executors that were used are inline. -/
theorem dispatch_transparent (a : App) (request : Request) (receiver : Receiver)
    (limit : Option Nat) (poolStarted : Bool) (r : Route) (captures : Pattern.Captures) :
    let s := a.session request receiver limit poolStarted
    (∀ {α : Type} (first : Fallible α) (task : α → Handler) (executor : Option String)
      (x : Executor) (direct dispatched : RouteTable),
      direct.lookup request.method request.path =
        .matched { r with handler := .followedBy first task } captures →
      dispatched.lookup request.method request.path =
        .matched { r with
          handler := .followedBy first fun v => .ret (.ok (.dispatch executor (task v))) } captures →
      a.workers.get? executor = some x → x.placement ≠ .nowhere →
      (x.inline = true ∨ r.Unaware a ∧ ∀ v, (task v).Unaware Outcome.UnawareResult) →
      let here := ({ a with table := direct } : App).answer s
      let there := ({ a with table := dispatched } : App).answer s
      (x.placement = .caller ∨ there.2.expired = false) →
        there.2.channel = here.2.channel ∧ there.2.delivery = here.2.delivery ∧
        there.2.record.filter Entry.isShared = here.2.record.filter Entry.isShared ∧
        (x.placement = .caller → there.1 = here.1)) ∧
    ∀ (xs : List Executor) (p : Session), r.Point a (s.bound r captures) xs p →
      p.context.inIoThread = xs.all (·.inline) := by
  intro s
  refine ⟨?_, fun xs p hpoint => hpoint.inIoThread_eq⟩
  intro α first task executor x direct dispatched hdirect hdispatched hx hplacement hunaware here
    there hpatient
  have hhere : here = _ := answer_of_lookup (a := { a with table := direct }) (s := s) hdirect
  have hthere : there = _ :=
    answer_of_lookup (a := { a with table := dispatched }) (s := s) hdispatched
  have hwaited : (s.bound r captures).Waited := a.waited_session request receiver limit poolStarted
  obtain ⟨hending, halike⟩ := Route.alike_answer hwaited hx hplacement (hunaware.imp id And.left)
    (fun v => hunaware.imp id fun h => h.2 v) direct dispatched hhere.symm hthere.symm hpatient
  refine ⟨halike.channel, ?_, halike.record, hending⟩
  rw [Session.delivery, Session.delivery, halike.channel, halike.kept]

theorem defaultPool_runs : Executor.defaultPool.placement ≠ .nowhere := by
  simp [Executor.defaultPool, Executor.pool]

/-- A task that stages a status if the request asks for the root, and is done then. -/
def creatingTask : Handler :=
  .ask .look fun c =>
    if c.request.path = "/" then .ask (.stage (.status .created)) fun _ => .ret (.ok .done)
    else .ret (.error (.ofError (.routeNotFound c.request.path)))

theorem unaware_creatingTask : creatingTask.Unaware Outcome.UnawareResult := by
  have hdone : Outcome.UnawareResult (.ok .done) := by
    rintro o ⟨⟩
    exact .done
  refine .look (fun c => ?_) fun c here => rfl
  by_cases hpath : c.request.path = "/"
  · rw [if_pos hpath]
    exact .ask (by simp) fun _ => .ret hdone
  · rw [if_neg hpath]
    exact .ret fun o ho => nomatch ho

/-- An application that reports its requests, where a task is done by the handler. -/
def createsHere : App where
  table := .hooked [.logging false] (.followedBy (.ret (.ok ())) fun _ => creatingTask)

/-- The same application, where the task is handed over to the default pool. -/
def createsThere : App where
  table := .hooked [.logging false]
    (.followedBy (.ret (.ok ())) fun _ => .ret (.ok (.dispatch none creatingTask)))

def creatingSession : Session := createsHere.session .plain .held (some 30) false

/-- Both of them give the same answer. -/
theorem dispatch_transparent_creatingTask :
    (Route.hooked [.logging false] creatingTask).Unaware createsHere ∧
      creatingTask.Unaware Outcome.UnawareResult ∧
      (createsThere.answer creatingSession).2.expired = false ∧
      (createsThere.answer creatingSession).2.delivery =
        (createsHere.answer creatingSession).2.delivery ∧
      (createsHere.answer creatingSession).2.delivery = .answered (.ofStatus .created) := by
  have hroute : (Route.hooked [.logging false] creatingTask).Unaware createsHere := by
    refine Route.unaware_of_library rfl rfl fun h hmem => .inl ⟨false, ?_⟩
    exact List.mem_singleton.1 hmem
  obtain ⟨-, hdelivery, -⟩ := (dispatch_transparent createsHere .plain .held (some 30) false
    (.hooked [.logging false] creatingTask) []).1 (.ret (.ok ())) (fun _ => creatingTask) none
    .defaultPool createsHere.table createsThere.table (RouteTable.lookup_hooked ..)
    (RouteTable.lookup_hooked ..) rfl defaultPool_runs (.inr ⟨hroute, fun _ => unaware_creatingTask⟩)
    (.inr rfl)
  exact ⟨hroute, unaware_creatingTask, rfl, hdelivery, by decide +kernel⟩

/-- A task that takes a while, and sends a text then. -/
def lateTask : Handler :=
  .ask (.sleep 120) fun _ => .ask (.send (.text "late")) fun _ => .ret (.ok .done)

theorem unaware_lateTask : lateTask.Unaware Outcome.UnawareResult := by
  refine .ask (by simp) fun _ => .ask (by simp) fun _ => .ret ?_
  rintro o ⟨⟩
  exact .done

def lateHere : App where
  table := .plain lateTask

def lateThere : App where
  table := .plain (.ret (.ok (.dispatch none lateTask)))

/-- A hook that stages a status which depends on the thread. -/
def threadHook : Hook where
  name := "thread"
  after := .ask .look fun c =>
    .ask (.stage (.status (if c.inIoThread then .ok else .created))) fun _ => .ret ()

def doneHere : App where
  table := .hooked [threadHook] (.ret (.ok .done))

def doneThere : App where
  table := .hooked [threadHook] (.ret (.ok (.dispatch none (.ret (.ok .done)))))

/-- It is not enough that a task does not see its thread.  A server that waits for a while takes
the answer of a handler that takes longer, but it does not wait for a task that does; and a hook
after the handler can see where the task was run. -/
theorem not_transparent_lateTask :
    lateTask.Unaware Outcome.UnawareResult ∧
      lateThere.workers.get? none = some .defaultPool ∧ Executor.defaultPool.placement ≠ .nowhere ∧
      (Server.respond lateHere .plain 30 "1" false).1.status = .ok ∧
      (Server.respond lateThere .plain 30 "1" false).1.status = .serviceUnavailable ∧
      (doneHere.handle .plain false).1 = .returned (some (.ofStatus .ok)) ∧
      (doneThere.handle .plain false).1 = .returned (some (.ofStatus .created)) :=
  ⟨unaware_lateTask, rfl, defaultPool_runs, by decide +kernel, by decide +kernel, rfl, rfl⟩

end App

end HttpApp
