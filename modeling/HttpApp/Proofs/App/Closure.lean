/-
  HttpApp/Proofs/App/Closure.lean --- what runs come to if scripts do.

  Outcomes hold tasks that end with outcomes.  `Outcome.induction` is the induction
  that this gives: a fact about every outcome that a task can end with may be used
  for the outcome that hands the task over.  `Session.Closed` says that a relation
  between exchanges holds across all that is done between scripts.  Main statement: if it
  holds across the scripts of an application, too, it holds across the whole answer to a
  request (`App.answer_closed`).
-/
import HttpApp.Proofs.Session.Steps

set_option autoImplicit false

namespace HttpApp

/-! ## Induction on outcomes -/

mutual

/-- What holds of an outcome if it holds of all that its task can end with, holds of every
outcome. -/
theorem Outcome.induction {motive : Outcome → Prop} (render : ∀ m, motive (.render m))
    (done : motive .done)
    (dispatch : ∀ executor (task : Script (Except Failure Outcome)),
      (∀ answer s o t, task.run answer s = (.returned (.ok o), t) → motive o) →
        motive (.dispatch executor task))
    (detach : ∀ ownThread callback, motive (.detach ownThread callback)) :
    ∀ o : Outcome, motive o
  | .render m => render m
  | .done => done
  | .dispatch executor task =>
    dispatch executor task (Script.induction_of_run render done dispatch detach task)
  | .detach ownThread callback => detach ownThread callback

/-- The same for whatever a script can end with. -/
theorem Script.induction_of_run {motive : Outcome → Prop} (render : ∀ m, motive (.render m))
    (done : motive .done)
    (dispatch : ∀ executor (task : Script (Except Failure Outcome)),
      (∀ answer s o t, task.run answer s = (.returned (.ok o), t) → motive o) →
        motive (.dispatch executor task))
    (detach : ∀ ownThread callback, motive (.detach ownThread callback)) :
    ∀ (x : Script (Except Failure Outcome)) answer s o t,
      x.run answer s = (.returned (.ok o), t) → motive o
  | .ret (.ok o'), _, _, _, _, h => by
    obtain rfl : o' = _ := by simpa [Script.run] using congrArg Prod.fst h
    exact Outcome.induction render done dispatch detach o'
  | .ret (.error f), _, _, _, _, h => by simp [Script.run] at h
  | .panic p, _, _, _, _, h => by simp [Script.run] at h
  | .ask op next, answer, s, o, t, h =>
    Script.induction_of_run render done dispatch detach (next (s.perform op).1) answer
      (s.perform op).2 o t h
  | .sendError f status next, answer, s, o, t, h => by
    rw [Script.run] at h
    match hanswer : answer f status s with
    | (.returned _, u) =>
      rw [hanswer] at h
      exact Script.induction_of_run render done dispatch detach next answer u o t h
    | (.panicked p, u) => simp [hanswer] at h

end

/-- Only an ending with a value has one under the guard against panics. -/
theorem Ending.eq_of_guard_eq_ok {α : Type} {ending : Ending (Except Failure α)} {a : α}
    (h : ending.guard = .ok a) : ending = .returned (.ok a) := by
  cases ending with
  | returned result => exact congrArg _ h
  | panicked p => simp [guard] at h

/-! ## The operations of scripts -/

/-- A script performs no operations but those that are allowed, whatever it is told, and what it ends
with has some property. -/
inductive Script.Only {α : Type} (allowed : Op → Prop) (P : α → Prop) : Script α → Prop where
  | ret {a : α} : P a → Only allowed P (.ret a)
  | panic {p : Payload} : Only allowed P (.panic p)
  | ask {op : Op} {next : op.Reply → Script α} : allowed op →
      (∀ reply, Only allowed P (next reply)) → Only allowed P (.ask op next)
  | sendError {f : Failure} {status : Option Status} {next : Script α} :
      Only allowed P next → Only allowed P (.sendError f status next)

section
variable {allowed : Op → Prop} {α : Type} {P : α → Prop} {y : Script α}

theorem Script.Only.of_run (h : y.Only allowed P)
    {answer : Failure → Option Status → Session → Ending Unit × Session} {s t : Session} {v : α}
    (hrun : y.run answer s = (.returned v, t)) : P v := by
  induction h generalizing s with
  | @ret a ha =>
    obtain rfl : a = v := by simpa [Script.run] using congrArg Prod.fst hrun
    exact ha
  | panic => simp [Script.run] at hrun
  | ask _ _ ih => exact ih _ hrun
  | @sendError f status next _ ih =>
    rw [Script.run] at hrun
    rcases hanswer : answer f status s with ⟨_ | p, u⟩
    · rw [hanswer] at hrun
      exact ih hrun
    · simp [hanswer] at hrun

theorem Script.Only.mono {allowed' : Op → Prop} (h : y.Only allowed P)
    (hop : ∀ op, allowed op → allowed' op) : y.Only allowed' P := by
  induction h with
  | ret ha => exact .ret ha
  | panic => exact .panic
  | ask ha _ ih => exact .ask (hop _ ha) ih
  | sendError _ ih => exact .sendError ih

end

/-! ## Relations between exchanges -/

/-- A relation holds across whatever is done to an exchange, scripts and answers to errors
apart. -/
structure Session.Closed (R : Session → Session → Prop) : Prop where
  refl : ∀ s, R s s
  trans : ∀ {s t u}, R s t → R t u → R s u
  event : ∀ s e, R s (s.add (.event e))
  called : ∀ s c, R s (s.called c)
  /-- a route takes the request -/
  bound : ∀ s r captures, R s (s.bound r captures)
  /-- the methods of other routes are staged -/
  allow : ∀ s value, R s (s.stageHeader "allow" value)
  /-- the context leaves the thread that accepted the request -/
  leave : ∀ s, R s (s.withContext fun c => { c with inIoThread := false })
  handOff : ∀ s, R s s.handOff
  startPool : ∀ s, R s { s with poolStarted := true }
  keep : ∀ s kept, R s { s with kept }
  /-- the model of an outcome is sent -/
  model : ∀ s m, R s (s.send (.model m)).2
  /-- the staged status is sent -/
  implied : ∀ s, R s (s.sendStatus s.context.status).2

/-- A relation holds across a run, which returns results of some kind. -/
def Session.Across {α : Type} (R : Session → Session → Prop) (P : α → Prop)
    (run : Session → Ending α × Session) : Prop :=
  ∀ s, R s (run s).2 ∧ ∀ a, (run s).1 = .returned a → P a

open Session (Across rel_of_run)

section
variable {R : Session → Session → Prop} {α : Type} {P : α → Prop}
  {run : Session → Ending α × Session} {s t : Session}

theorem Session.Across.of_run (h : Across R P run) {ending : Ending α}
    (hrun : run s = (ending, t)) : R s t :=
  rel_of_run (h s).1 hrun

theorem Session.Across.of_returned (h : Across R P run) {a : α}
    (hrun : run s = (.returned a, t)) : P a :=
  (h s).2 a (by rw [hrun])

end

section
variable {R : Session → Session → Prop} (hR : Session.Closed R) {b : ErrorBoundary}
include hR

theorem Session.Closed.log (s : Session) (level : Level) (message : String)
    (fields : List (String × EventValue)) : R s (s.log level message fields) :=
  hR.event s ⟨level, message, fields⟩

/-! ## Hooks and executors -/

theorem Hook.runFirst_across {P : Except Failure Verdict → Prop} {h : Hook}
    (hbefore : Across R P (h.before.run b.answer)) (place : Nat) :
    Across R P (h.runFirst b place) := by
  intro s
  have hcalled : R s (s.called (.before place)) := hR.called s _
  unfold runFirst
  split
  · next o t heq =>
    refine ⟨hR.trans hcalled (hR.trans (hbefore.of_run heq) (hR.log t _ _ _)),
      fun result hresult => ?_⟩
    obtain rfl : .ok (.respond o) = result := Ending.returned.inj hresult
    exact hbefore.of_returned heq
  · next ending t _ heq =>
    refine ⟨hR.trans hcalled (hbefore.of_run heq), fun result hresult => ?_⟩
    exact hbefore.of_returned (heq.trans (Prod.ext hresult rfl))

theorem Hook.runBefore_across {P : Except Failure Verdict → Prop} (hproceed : P (.ok .proceed))
    {hooks : List Hook} (hbefore : ∀ h ∈ hooks, Across R P (h.before.run b.answer)) (place : Nat) :
    Across R P (Hook.runBefore b place hooks) := by
  induction hooks generalizing place with
  | nil =>
    refine fun s => ⟨hR.refl s, fun result hresult => ?_⟩
    exact Ending.returned.inj hresult ▸ hproceed
  | cons h hs ih =>
    intro s
    have hfirst := Hook.runFirst_across hR (hbefore h List.mem_cons_self) place
    have hrest := ih (fun h hh => hbefore h (List.mem_cons_of_mem _ hh)) (place + 1)
    rw [Hook.runBefore]
    split
    · next t heq => exact ⟨hR.trans (hfirst.of_run heq) (hrest t).1, (hrest t).2⟩
    · next ending t _ heq =>
      exact ⟨hfirst.of_run heq, fun result hresult =>
        hfirst.of_returned (heq.trans (Prod.ext hresult rfl))⟩

theorem Hook.runAfter_closed {hooks : List Hook}
    (hafter : ∀ h ∈ hooks, ∀ s, R s (h.after.run b.answer s).2) (place : Nat) (s : Session) :
    R s (Hook.runAfter b place hooks s).2 := by
  induction hooks generalizing place s with
  | nil => exact hR.refl s
  | cons h hs ih =>
    have hrest := ih (fun h hh => hafter h (List.mem_cons_of_mem _ hh)) (place + 1) s
    rw [Hook.runAfter]
    split
    · next p t heq => exact rel_of_run hrest heq
    · next t heq =>
      exact hR.trans (rel_of_run hrest heq)
        (hR.trans (hR.called t _) (hafter h List.mem_cons_self _))

theorem Executor.execute_closed (x : Executor) {job : Session → Ending Unit × Session}
    (hjob : ∀ s, R s (job s).2) (s : Session) : R s (x.execute job s).2 := by
  have hoff : R s (job s.handOff).2 := hR.trans (hR.handOff s) (hjob _)
  unfold execute
  split
  · exact hjob s
  · split
    · next t heq => exact rel_of_run hoff heq
    · next p t heq => exact hR.trans (rel_of_run hoff heq) (hR.log t _ _ _)
  · exact hoff
  · exact hR.event s _

namespace Session

theorem dispatching_closed (s : Session) (w : Workers) (executor : Option String) (x : Executor) :
    R s (s.dispatching w executor x) := by
  have hpool : R s (s.startPool w executor) := by
    unfold startPool
    split
    · exact hR.trans (hR.startPool s) (hR.event _ _)
    · exact hR.refl s
  exact hR.trans hpool (hR.log _ _ _ _)

theorem entering_closed (s : Session) (x : Executor) : R s (s.entering x) := by
  unfold entering
  dsimp only
  split
  · exact hR.called s _
  · exact hR.trans (hR.leave s) (hR.called _ _)

theorem sendModel_closed (hanswer : ∀ f status s, R s (b.answer f status s).2) (m : Model)
    (s : Session) : R s (s.sendModel b m).2 := by
  have hsend := hR.model s m
  unfold sendModel
  split
  · next t heq => exact rel_of_run hsend heq
  · next e t heq => exact hR.trans (rel_of_run hsend heq) (hanswer _ _ _)

theorem sendImplied_closed (s : Session) : R s s.sendImplied := by
  have hsend := hR.implied s
  unfold sendImplied
  split
  · exact hR.refl s
  · split
    · next t heq => exact rel_of_run hsend heq
    · next e t heq => exact hR.trans (rel_of_run hsend heq) (hR.log t _ _ _)

end Session

theorem Script.detach_closed {callback : Script Custody}
    (hcallback : ∀ s, R s (callback.run b.answer s).2) (ownThread : Bool) (s : Session) :
    R s (callback.detach b ownThread s).2 := by
  have hcalled : R s (s.called .detached) := hR.called s _
  unfold detach
  dsimp only
  split
  · have hoff : R s (callback.run b.answer (s.called .detached).handOff).2 :=
      hR.trans (hR.trans hcalled (hR.handOff _)) (hcallback _)
    split
    · next custody t heq => exact hR.trans (rel_of_run hoff heq) (hR.keep t _)
    · next p t heq => exact rel_of_run hoff heq
  · have hhere : R s (callback.run b.answer (s.called .detached)).2 :=
      hR.trans hcalled (hcallback _)
    split
    · next custody t heq => exact hR.trans (rel_of_run hhere heq) (hR.keep t _)
    · next p t heq => exact hR.trans (rel_of_run hhere heq) (hR.log t _ _ _)

end

/-! ## Routes and applications -/

/-- A relation holds across the scripts of a route and the answers to its errors.  The outcomes to
which they lead are all of some kind. -/
structure Route.Across (a : App) (R : Session → Session → Prop) (P : Outcome → Prop) (r : Route) :
    Prop where
  answer : ∀ f status s, R s ((a.boundaryOf r).answer f status s).2
  before : ∀ h ∈ r.hooks, Session.Across R
    (fun result : Except Failure Verdict => ∀ o, result = .ok (.respond o) → P o)
    (h.before.run (a.boundaryOf r).answer)
  handler : Session.Across R (fun result : Except Failure Outcome => ∀ o, result = .ok o → P o)
    (r.handler.run (a.boundaryOf r).answer)
  after : ∀ h ∈ r.hooks, ∀ s, R s (h.after.run (a.boundaryOf r).answer s).2
  task : ∀ executor task, P (.dispatch executor task) →
    Session.Across R (fun result : Except Failure Outcome => ∀ o, result = .ok o → P o)
      (task.run (a.boundaryOf r).answer)
  callback : ∀ ownThread callback, P (.detach ownThread callback) →
    ∀ s, R s (callback.run (a.boundaryOf r).answer s).2

section
variable {R : Session → Session → Prop} {P : Outcome → Prop} (hR : Session.Closed R) {a : App}
  {r : Route}

theorem settle_closed_of_resolve (h : r.Across a R P) {result : Except Failure Outcome}
    (hresolve : ∀ o, result = .ok o → ∀ s, R s (o.resolve a r s).2) (s : Session) :
    R s (settle a r result s).2 := by
  cases result with
  | ok o => exact hresolve o rfl s
  | error f => exact h.answer f none s

include hR

theorem Outcome.resolve_closed (h : r.Across a R P) {o : Outcome} (ho : P o) (s : Session) :
    R s (o.resolve a r s).2 := by
  have hafter := Hook.runAfter_closed hR h.after 0
  induction o using Outcome.induction generalizing s with
  | render m =>
    rw [Outcome.resolve]
    split
    · next p t heq => exact rel_of_run (hafter s) heq
    · next t heq =>
      exact hR.trans (rel_of_run (hafter s) heq) (Session.sendModel_closed hR h.answer m t)
  | done =>
    rw [Outcome.resolve]
    split
    · next p t heq => exact rel_of_run (hafter s) heq
    · next t heq => exact hR.trans (rel_of_run (hafter s) heq) (Session.sendImplied_closed hR t)
  | dispatch executor task ih =>
    have htask : ∀ t : Session, R t (runTask a r task t).2 := by
      intro t
      have hrun := h.task executor task ho
      rw [runTask_eq]
      refine hR.trans (hrun t).1 (settle_closed_of_resolve h (fun o' ho' => ?_) _)
      have hends : task.run (a.boundaryOf r).answer t =
          (.returned (.ok o'), (task.run (a.boundaryOf r).answer t).2) :=
        Prod.ext (Ending.eq_of_guard_eq_ok ho') rfl
      exact ih _ t o' _ hends (hrun.of_returned hends o' rfl)
    rw [Outcome.resolve]
    split
    · exact h.answer _ none s
    · next x _ =>
      exact hR.trans (Session.dispatching_closed hR s a.workers executor x)
        (Executor.execute_closed hR x
          (fun t => hR.trans (Session.entering_closed hR t x) (htask _)) _)
  | detach ownThread callback =>
    exact Script.detach_closed hR (h.callback ownThread callback ho) ownThread s

theorem settle_closed (h : r.Across a R P) {result : Except Failure Outcome}
    (hresult : ∀ o, result = .ok o → P o) (s : Session) : R s (settle a r result s).2 :=
  settle_closed_of_resolve h (fun o ho => Outcome.resolve_closed hR h (hresult o ho)) s

/-- A relation holds across the run of a route up to its first result. -/
theorem Route.runFrom_across (h : r.Across a R P) (place : Nat) :
    Session.Across R (fun result : Except Failure Outcome => ∀ o, result = .ok o → P o)
      (r.runFrom a place) := by
  intro s
  have hbefore : Session.Across R
      (fun result : Except Failure Verdict => ∀ o, result = .ok (.respond o) → P o)
      (Hook.runBefore (a.boundaryOf r) place (r.hooks.drop place)) :=
    Hook.runBefore_across hR (fun o ho => by cases ho)
      (fun h' hh' => h.before h' (List.mem_of_mem_drop hh')) place
  rw [Route.runFrom]
  split
  · next t heq =>
    exact ⟨hR.trans (hbefore.of_run heq) (hR.trans (hR.called t _) (h.handler _).1),
      (h.handler _).2⟩
  · next o t heq =>
    refine ⟨hbefore.of_run heq, fun result hresult o' ho' => ?_⟩
    obtain rfl : o = o' := Except.ok.inj ((Ending.returned.inj hresult).trans ho')
    exact hbefore.of_returned heq o rfl
  · next f t heq =>
    refine ⟨hbefore.of_run heq, fun result hresult o ho => ?_⟩
    cases (Ending.returned.inj hresult).trans ho
  · next p t heq => exact ⟨hbefore.of_run heq, fun result hresult => by cases hresult⟩

theorem Route.answer_closed (h : r.Across a R P) (s : Session) : R s (r.answer a s).2 := by
  obtain ⟨hrun, hresult⟩ := Route.runFrom_across hR h 0 s
  refine hR.trans hrun (settle_closed hR h (fun o ho => ?_) _)
  exact hresult _ (Ending.eq_of_guard_eq_ok ho) o rfl

/-- A relation that holds across the scripts of an application, and across all that is done between
them, holds across the answer to a request. -/
theorem App.answer_closed (hanswer : ∀ f status s, R s (a.boundary.answer f status s).2)
    (hroute : ∀ m path r captures, a.table.lookup m path = .matched r captures → r.Across a R P)
    (s : Session) : R s (a.answer s).2 := by
  unfold App.answer
  dsimp only
  split
  · next r captures hlookup =>
    exact hR.trans (hR.bound s r captures)
      (Route.answer_closed hR (hroute _ _ r captures hlookup) _)
  · exact hanswer _ none s
  · exact hR.trans (hR.allow s _) (hanswer _ none _)

end

end HttpApp
