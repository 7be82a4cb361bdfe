/-
  HttpApp/Proofs/App/Course.lean --- the course of a request.

  The hooks before the handler, and the handler, come to a first result.  A result
  that hands over a task is followed by the result of that task, and so on, until one
  is reached that nothing follows.  Main statements: every request of a route has such
  a course (`Route.exists_enters`, `Route.exists_hops`), and it ends as settling the
  last result of the course does, but that executors keep panics from the caller
  (`Route.Enters.answer_eq`).
-/
import HttpApp.Proofs.App.Progress

set_option autoImplicit false

namespace HttpApp

open Session (Acts Quiet)

/-! ## What executors keep from the caller -/

/-- The way on which the ending of a job comes back through the executor that ran it: only an
executor that runs jobs on the thread of the caller lets a panic through. -/
def Executor.absorb (x : Executor) (run : Ending Unit × Session) : Ending Unit × Session :=
  match x.placement with
  | .caller | .nowhere => run
  | .background => (.returned (), run.2)
  | .worker name =>
    match run with
    | (.returned _, s) => (.returned (), s)
    | (.panicked p, s) =>
      (.returned (),
        s.log .error "Worker job panicked"
          [Event.textField "worker" name, Event.textField "panic" p.report])

theorem Executor.execute_eq_absorb {x : Executor} (hx : x.placement ≠ .nowhere)
    (job : Session → Ending Unit × Session) (s : Session) :
    x.execute job s = x.absorb (job (if x.placement = .caller then s else s.handOff)) := by
  by_cases hcaller : x.placement = .caller
  · simp only [execute, absorb, hcaller, if_true]
  · rw [if_neg hcaller]
    unfold execute absorb
    cases hplacement : x.placement with
    | caller => exact absurd hplacement hcaller
    | worker name => rcases job s.handOff with ⟨_ | p, t⟩ <;> rfl
    | background => rfl
    | nowhere => exact absurd hplacement hx

@[simp] theorem Executor.absorb_returned (x : Executor) (s : Session) :
    x.absorb (.returned (), s) = (.returned (), s) := by
  unfold absorb
  split <;> rfl

theorem Executor.absorb_caller {x : Executor} (hx : x.placement = .caller)
    (run : Ending Unit × Session) : x.absorb run = run := by
  simp only [absorb, hx]

/-- The way back through an executor adds nothing but an event. -/
theorem Executor.absorb_snd (x : Executor) (run : Ending Unit × Session) :
    (x.absorb run).2 = run.2 ∨ ∃ e, (x.absorb run).2 = run.2.add (.event e) := by
  unfold absorb
  split
  · exact .inl rfl
  · exact .inl rfl
  · exact .inl rfl
  · split
    · exact .inl rfl
    · exact .inr ⟨_, rfl⟩

/-- The way back through executors, the one that was used last first. -/
def Executor.absorbAll (xs : List Executor) (run : Ending Unit × Session) : Ending Unit × Session :=
  xs.foldr absorb run

@[simp] theorem Executor.absorbAll_cons (x : Executor) (xs : List Executor)
    (run : Ending Unit × Session) : absorbAll (x :: xs) run = x.absorb (absorbAll xs run) := rfl

@[simp] theorem Executor.absorbAll_returned (xs : List Executor) (s : Session) :
    absorbAll xs (.returned (), s) = (.returned (), s) := by
  induction xs with
  | nil => rfl
  | cons x xs ih => rw [absorbAll_cons, ih, absorb_returned]

theorem Executor.absorbAll_caller {xs : List Executor} (hxs : ∀ x ∈ xs, x.placement = .caller)
    (run : Ending Unit × Session) : absorbAll xs run = run := by
  induction xs with
  | nil => rfl
  | cons x xs ih =>
    obtain ⟨hx, hxs⟩ := List.forall_mem_cons.1 hxs
    rw [absorbAll_cons, ih hxs, absorb_caller hx]

/-- What an event does not change is as the job left it. -/
theorem Executor.absorbAll_congr {β : Type} {f : Session → β}
    (hf : ∀ s e, f (s.add (.event e)) = f s) (xs : List Executor) (run : Ending Unit × Session) :
    f (absorbAll xs run).2 = f run.2 := by
  induction xs with
  | nil => rfl
  | cons x xs ih =>
    rw [absorbAll_cons, ← ih]
    rcases x.absorb_snd (absorbAll xs run) with heq | ⟨e, heq⟩
    · rw [heq]
    · rw [heq, hf]

/-! ## Courses -/

/-- Nothing follows a result: it hands over no task, or to no executor, or to one that drops it. -/
def App.Stops (a : App) (result : Except Failure Outcome) : Prop :=
  ∀ executor task x, result = .ok (.dispatch executor task) → a.workers.get? executor = some x →
    x.placement = .nowhere

section
variable (a : App) (r : Route)

/-- The calls up to the first result of a request, that result, and the session then: the result
of the first hook that does not let the request proceed, or else of the handler. -/
inductive Route.Enters (s : Session) : List Call → Except Failure Outcome → Session → Prop where
  | halted {place : Nat} {h : Hook} {u v : Session} {ending : Ending (Except Failure Verdict)}
      {result : Except Failure Outcome} :
      r.Begins a s true (.before place h) u → h.runFirst (a.boundaryOf r) place u = (ending, v) →
      ending.result? = some result →
      Enters s ((List.range (place + 1)).map .before) result v
  | handled {u v : Session} {ending : Ending (Except Failure Outcome)} :
      r.Begins a s true .handler u →
      r.handler.run (a.boundaryOf r).answer (u.called .handler) = (ending, v) →
      Enters s ((List.range r.hooks.length).map .before ++ [.handler]) ending.guard v

/-- From a result, in a session, one task after the other is run, on the executors of a list,
each for the outcome that hands it over; then a result is reached, in a session. -/
inductive Route.Hops : Except Failure Outcome → Session → List Executor →
    Except Failure Outcome → Session → Prop where
  | here {result : Except Failure Outcome} {s : Session} : Hops result s [] result s
  | task {executor : Option String} {task : Script (Except Failure Outcome)} {x : Executor}
      {s t u : Session} {ending : Ending (Except Failure Outcome)} {xs : List Executor}
      {final : Except Failure Outcome} :
      a.workers.get? executor = some x → x.placement ≠ .nowhere →
      task.run (a.boundaryOf r).answer ((s.handedTo a executor x).entering x) = (ending, t) →
      Hops ending.guard t xs final u →
      Hops (.ok (.dispatch executor task)) s (x :: xs) final u

/-! ## Every request has a course -/

/-- A work that is begun is a hook or the handler, or else the request entered its course. -/
theorem Route.Begins.enters {s : Session} {here : Bool} {w : Work} {u : Session}
    (h : r.Begins a s here w u) :
    (here = true ∧ ∀ x task, w ≠ .task x task) ∨
      ∃ first result v, r.Enters a s first result v := by
  induction h with
  | first => exact .inl ⟨rfl, Route.work_ne_task 0⟩
  | next => exact .inl ⟨rfl, Route.work_ne_task _⟩
  | @task here w u v executor task x hbegins hrun hx hplacement ih =>
    refine .inr (ih.elim (fun ⟨hhere, hw⟩ => ?_) id)
    subst hhere
    -- The work that handed the task over is the one whose result is the first.
    cases w with
    | before place h => exact ⟨_, _, _, .halted hbegins hrun rfl⟩
    | handler => exact ⟨_, _, _, .handled hbegins rfl⟩
    | task x task => exact absurd rfl (hw x task)

/-- Every request comes to a first result. -/
theorem Route.exists_enters (s : Session) : ∃ first result v, r.Enters a s first result v := by
  obtain ⟨w, u, v, ending, result, hbegins, hrun, hresult⟩ := r.exists_begins_result a s
  rcases hbegins.enters with ⟨-, hw⟩ | henters
  · cases w with
    | before place h => exact ⟨_, _, _, .halted hbegins hrun hresult⟩
    | handler => exact ⟨_, _, _, .handled hbegins rfl⟩
    | task x task => exact absurd rfl (hw x task)
  · exact henters

/-- From every result, tasks lead to one that nothing follows. -/
theorem Route.exists_hops (result : Except Failure Outcome) (s : Session) :
    ∃ xs final t, r.Hops a result s xs final t ∧ a.Stops final := by
  have hends : ∀ result : Except Failure Outcome, (∀ executor task, result ≠ .ok (.dispatch executor task)) →
      ∀ s, ∃ xs final t, r.Hops a result s xs final t ∧ a.Stops final := by
    intro result hresult s
    exact ⟨[], result, s, .here, fun executor task x heq => absurd heq (hresult executor task)⟩
  cases result with
  | error f => exact hends _ (by simp) s
  | ok o =>
    induction o using Outcome.induction generalizing s with
    | render m => exact hends _ (by simp) s
    | done => exact hends _ (by simp) s
    | detach ownThread callback => exact hends _ (by simp) s
    | dispatch executor task ih =>
      by_cases hruns : ∃ x, a.workers.get? executor = some x ∧ x.placement ≠ .nowhere
      · obtain ⟨x, hx, hplacement⟩ := hruns
        obtain ⟨ending, t, hrun⟩ : ∃ ending t, task.run (a.boundaryOf r).answer
            ((s.handedTo a executor x).entering x) = (ending, t) := ⟨_, _, rfl⟩
        cases hguard : ending.guard with
        | error f =>
          obtain ⟨xs, final, u, hhops, hstops⟩ := hends (.error f) (by simp) t
          rw [← hguard] at hhops
          exact ⟨_, _, _, .task hx hplacement hrun hhops, hstops⟩
        | ok o =>
          obtain rfl := Ending.eq_of_guard_eq_ok hguard
          obtain ⟨xs, final, u, hhops, hstops⟩ := ih _ _ o t hrun t
          exact ⟨_, _, _, .task hx hplacement hrun hhops, hstops⟩
      · refine ⟨[], _, s, .here, fun executor' task' x heq hx => ?_⟩
        obtain ⟨rfl, rfl⟩ := Outcome.dispatch.inj (Except.ok.inj heq)
        exact Classical.not_not.1 fun hplacement => hruns ⟨x, hx, hplacement⟩

variable {a r}

/-! ## The course decides the answer -/

/-- Settling a result comes to the same as settling the last result of its course. -/
theorem Route.Hops.settle_eq {result final : Except Failure Outcome} {s t : Session}
    {xs : List Executor} (h : r.Hops a result s xs final t) :
    settle a r result s = Executor.absorbAll xs (settle a r final t) := by
  induction h with
  | here => rfl
  | @task executor task x s t u ending xs final hx hplacement hrun hhops ih =>
    rw [Executor.absorbAll_cons, ← ih, settle, Outcome.resolve, hx]
    dsimp only
    rw [Executor.execute_eq_absorb hplacement, runTask_eq]
    have hsession : (if x.placement = .caller then s.dispatching a.workers executor x
        else (s.dispatching a.workers executor x).handOff) = s.handedTo a executor x := rfl
    rw [hsession, hrun]

/-- A request ends as settling the last result of its course does, but for the panics that
executors keep from the caller. -/
theorem Route.Enters.answer_eq {s v t : Session} {first : List Call}
    {result final : Except Failure Outcome} {xs : List Executor}
    (h : r.Enters a s first result v) (hhops : r.Hops a result v xs final t) :
    r.answer a s = Executor.absorbAll xs (settle a r final t) := by
  rw [← hhops.settle_eq]
  cases h with
  | halted hbegins hrun hresult => exact hbegins.answer_eq hrun hresult
  | @handled u v ending hbegins hrun =>
    have hwork : Work.run a r .handler u = (ending.toVerdict, v) := by rw [Work.run, hrun]
    exact hbegins.answer_eq hwork (Ending.result?_toVerdict _)

/-! ## Calls and threads along the course -/

/-- The first part of a hook does only what scripts do, once it is called. -/
theorem Hook.acts_of_runFirst {b : ErrorBoundary} {place : Nat} {h : Hook} {s t : Session}
    {ending : Ending (Except Failure Verdict)} (hrun : h.runFirst b place s = (ending, t)) :
    Acts (s.called (.before place)) t := by
  have hbefore := Script.acts_run b.acts_answer h.before (s.called (.before place))
  have hfirst : Acts (s.called (.before place)) (h.runFirst b place s).2 := by
    unfold runFirst
    split
    · next o t heq => exact (hbefore.of_run heq).tail (.log t _ _ _)
    · next ending t _ heq => exact hbefore.of_run heq
  exact hfirst.of_run hrun

theorem Hook.quiet_of_runFirst {b : ErrorBoundary} {place : Nat} {h : Hook} {s t : Session}
    {ending : Ending (Except Failure Verdict)} (hrun : h.runFirst b place s = (ending, t)) :
    Quiet (s.called (.before place)) t :=
  (acts_of_runFirst hrun).quiet

/-- Hooks that all return after the handler are called from the last one back, each once, and the
context stays on its thread. -/
theorem Hook.calls_of_runAfter {b : ErrorBoundary} {place : Nat} {hooks : List Hook}
    {s t : Session} (h : Hook.runAfter b place hooks s = (.returned (), t)) :
    t.calls = s.calls ++ (List.range' place hooks.length).reverse.map .after ∧
      t.context.inIoThread = s.context.inIoThread := by
  induction hooks generalizing place s t with
  | nil =>
    obtain rfl : s = t := congrArg Prod.snd h
    simp
  | cons hook hooks ih =>
    rw [Hook.runAfter] at h
    rcases hrest : Hook.runAfter b (place + 1) hooks s with ⟨ending | p, u⟩
    · rw [hrest] at h
      have hquiet : Quiet (u.called (.after place)) t :=
        ((Script.acts_run b.acts_answer hook.after _).of_run h).quiet
      refine ⟨?_, hquiet.inIoThread.trans (ih hrest).2⟩
      rw [hquiet.calls, Session.calls_called, (ih hrest).1, List.length_cons, List.range'_succ,
        List.reverse_cons, List.map_append, List.append_assoc]
      rfl
    · rw [hrest] at h
      simp at h

/-- The hook at a place is called behind those in front of it. -/
theorem Session.Quiet.calls_before {s u v : Session} {place : Nat}
    (h : Quiet (u.called (.before place)) v)
    (hu : u.calls = s.calls ++ (List.range place).map .before) :
    v.calls = s.calls ++ (List.range (place + 1)).map .before := by
  rw [h.calls, calls_called, hu, List.range_succ, List.map_append, List.append_assoc]
  rfl

/-- Before a hook or the handler is begun, the hooks in front of it are called, each once. -/
theorem Route.Begins.exists_place {s : Session} {here : Bool} {w : Work} {u : Session}
    (h : r.Begins a s here w u) (hw : ∀ x task, w ≠ .task x task) :
    ∃ place ≤ r.hooks.length, w = r.work place ∧
      u.calls = s.calls ++ (List.range place).map .before ∧
      u.context.inIoThread = s.context.inIoThread := by
  induction h with
  | first => exact ⟨0, Nat.zero_le _, rfl, by simp, rfl⟩
  | @next place h u v hbegins hrun ih =>
    obtain ⟨place, -, hwork, hcalls, hthread⟩ := ih (by simp)
    obtain ⟨rfl, hhook⟩ := Route.work_eq_before_iff.1 hwork.symm
    have hquiet : Quiet (u.called (.before place)) v := Hook.quiet_of_runFirst hrun
    refine ⟨place + 1, ?_, rfl, hquiet.calls_before hcalls, hquiet.inIoThread.trans hthread⟩
    exact (List.getElem?_eq_some_iff.1 hhook).1
  | task => exact absurd rfl (hw _ _)

theorem Route.Enters.calls_eq {s v : Session} {first : List Call}
    {result : Except Failure Outcome} (h : r.Enters a s first result v) :
    v.calls = s.calls ++ first ∧ v.context.inIoThread = s.context.inIoThread := by
  cases h with
  | halted hbegins hrun hresult =>
    obtain ⟨place, -, hwork, hcalls, hthread⟩ := hbegins.exists_place (by simp)
    obtain ⟨rfl, -⟩ := Route.work_eq_before_iff.1 hwork.symm
    have hquiet := Hook.quiet_of_runFirst hrun
    exact ⟨hquiet.calls_before hcalls, hquiet.inIoThread.trans hthread⟩
  | @handled u v ending hbegins hrun =>
    obtain ⟨place, hle, hwork, hcalls, hthread⟩ := hbegins.exists_place (by simp)
    obtain rfl := Nat.le_antisymm hle (Route.work_eq_handler_iff.1 hwork.symm)
    have hquiet : Quiet (u.called .handler) v :=
      ((Script.acts_run (a.boundaryOf r).acts_answer r.handler _).of_run hrun).quiet
    refine ⟨?_, hquiet.inIoThread.trans hthread⟩
    rw [hquiet.calls, Session.calls_called, hcalls, List.append_assoc]
    rfl

theorem Session.quiet_dispatching (s : Session) (w : Workers) (executor : Option String)
    (x : Executor) : Quiet s (s.dispatching w executor x) := by
  have hstart : Quiet s (s.startPool w executor) := by
    unfold startPool
    split
    · have hpool : Quiet s { s with poolStarted := true } := ⟨rfl, rfl⟩
      exact hpool.trans (quiet_add _ rfl)
    · exact .refl s
  exact hstart.trans (quiet_add _ rfl)

/-- Handing a task over calls nothing, and entering it calls the task; the context leaves its
thread unless the executor is inline. -/
theorem Session.entering_handedTo (s : Session) (executor : Option String) (x : Executor) :
    ((s.handedTo a executor x).entering x).calls = s.calls ++ [.task x.name] ∧
      ((s.handedTo a executor x).entering x).context.inIoThread =
        (s.context.inIoThread && x.inline) := by
  have hquiet : Quiet s (s.handedTo a executor x) := by
    have hdispatching := s.quiet_dispatching a.workers executor x
    unfold handedTo
    dsimp only
    split
    · exact hdispatching
    · exact hdispatching.trans (quiet_handOff _)
  unfold entering
  dsimp only
  split
  · next hinline =>
    rw [calls_called, hquiet.calls, hinline, Bool.and_true]
    exact ⟨rfl, hquiet.inIoThread⟩
  · next hinline =>
    rw [calls_called, eq_false_of_ne_true hinline, Bool.and_false, ← hquiet.calls]
    exact ⟨rfl, rfl⟩

/-- Along the course, the tasks are called in turn, each once, and the context stays on its thread
as long as executors are inline. -/
theorem Route.Hops.calls_eq {result final : Except Failure Outcome} {s t : Session}
    {xs : List Executor} (h : r.Hops a result s xs final t) :
    t.calls = s.calls ++ xs.map (fun x => .task x.name) ∧
      t.context.inIoThread = (s.context.inIoThread && xs.all (·.inline)) := by
  induction h with
  | here => simp
  | @task executor task x s t u ending xs final hx hplacement hrun hhops ih =>
    have hquiet : Quiet ((s.handedTo a executor x).entering x) t :=
      ((Script.acts_run (a.boundaryOf r).acts_answer task _).of_run hrun).quiet
    obtain ⟨hcalls, hthread⟩ := Session.entering_handedTo (a := a) s executor x
    rw [ih.1, ih.2, hquiet.calls, hquiet.inIoThread, hcalls, hthread]
    simp [Bool.and_assoc]

end

end HttpApp
