/-
  HttpApp/Proofs/App/Threads.lean --- on which thread a request runs.

  `ErrorBoundary.Visits` says which sessions a script comes through, those of the error
  handlers included that it calls, and `Route.Point` says which sessions the scripts of a
  request come through, and which executors were used before.  Main statement: at each
  of them the context is on its first thread exactly if those executors are all inline
  (`Route.Point.inIoThread_eq`).
-/
import HttpApp.Proofs.App.Course

set_option autoImplicit false

namespace HttpApp

open Session (Acts Quiet)

/-! ## The points of a script -/

/-- A script that begins in a session comes through another one: before one of its steps or of the
steps of an error handler that it calls, or at an end. -/
inductive ErrorBoundary.Visits (b : ErrorBoundary) :
    {α : Type} → Nat → Script α → Session → Session → Prop where
  | here {α : Type} {limit : Nat} {y : Script α} {s : Session} : Visits b limit y s s
  | ask {α : Type} {limit : Nat} {op : Op} {next : op.Reply → Script α} {s p : Session} :
      Visits b limit (next (s.perform op).1) (s.perform op).2 p →
      Visits b limit (.ask op next) s p
  | answered {α : Type} {limit : Nat} {f : Failure} {status : Option Status} {next : Script α}
      {s t p : Session} :
      b.answerWithin limit f status s = (.returned (), t) → Visits b limit next t p →
      Visits b limit (.sendError f status next) s p
  | handling {α : Type} {limit : Nat} {f : Failure} {status : Option Status} {next : Script α}
      {s p : Session} :
      discard? f (status.getD (b.classify f)) s = none →
      Visits b limit (b.handler f (status.getD (b.classify f)))
        (handling f (status.getD (b.classify f)) s) p →
      Visits b (limit + 1) (.sendError f status next) s p

/-- A script comes through a session by acts. -/
theorem ErrorBoundary.Visits.acts {b : ErrorBoundary} {α : Type} {limit : Nat} {y : Script α}
    {s p : Session} (h : b.Visits limit y s p) : Acts s p := by
  induction h with
  | here => exact .refl
  | ask _ ih => exact .head (.perform _ _) ih
  | @answered α limit f status next s t p hanswer _ ih =>
    exact ((b.acts_answerWithin limit f status s).of_run hanswer).trans ih
  | handling _ _ ih => exact (acts_handling _ _ _).trans ih

/-- No script leaves the thread on which it begins. -/
theorem ErrorBoundary.Visits.quiet {b : ErrorBoundary} {α : Type} {limit : Nat} {y : Script α}
    {s p : Session} (h : b.Visits limit y s p) : Quiet s p :=
  h.acts.quiet

/-! ## The points of a request -/

section
variable (a : App) (r : Route)

/-- A request comes to a result, in a session, after executors were used. -/
def Route.Comes (s : Session) (xs : List Executor) (final : Except Failure Outcome) (t : Session) :
    Prop :=
  ∃ first result v, r.Enters a s first result v ∧ r.Hops a result v xs final t

/-- Settling a result, in a session, begins with answering an error, in a session. -/
inductive Route.Fails : Except Failure Outcome → Session → Failure → Session → Prop where
  | failure {f : Failure} {s : Session} : Fails (.error f) s f s
  | unknown {executor : Option String} {task : Script (Except Failure Outcome)} {s : Session} :
      a.workers.get? executor = none →
      Fails (.ok (.dispatch executor task)) s (.ofError (.unknownExecutor (executor.getD ""))) s
  | unsent {m : Model} {s t u : Session} {e : Error} :
      Hook.runAfter (a.boundaryOf r) 0 r.hooks s = (.returned (), t) →
      t.send (.model m) = (.error e, u) → Fails (.ok (.render m)) s (.ofError e) u

/-- A script of a request comes through a session after executors were used. -/
inductive Route.Point (s : Session) : List Executor → Session → Prop where
  | before {place : Nat} {h : Hook} {u p : Session} :
      r.Begins a s true (.before place h) u →
      (a.boundaryOf r).Visits a.nesting h.before (u.called (.before place)) p → Point s [] p
  | handler {u p : Session} :
      r.Begins a s true .handler u →
      (a.boundaryOf r).Visits a.nesting r.handler (u.called .handler) p → Point s [] p
  | task {xs : List Executor} {executor : Option String} {task : Script (Except Failure Outcome)}
      {x : Executor} {t p : Session} :
      r.Comes a s xs (.ok (.dispatch executor task)) t → a.workers.get? executor = some x →
      x.placement ≠ .nowhere →
      (a.boundaryOf r).Visits a.nesting task ((t.handedTo a executor x).entering x) p →
      Point s (xs ++ [x]) p
  | after {xs : List Executor} {final : Except Failure Outcome} {place : Nat} {h : Hook}
      {t u p : Session} :
      r.Comes a s xs final t → (final = .ok .done ∨ ∃ m, final = .ok (.render m)) →
      r.hooks[place]? = some h →
      Hook.runAfter (a.boundaryOf r) (place + 1) (r.hooks.drop (place + 1)) t = (.returned (), u) →
      (a.boundaryOf r).Visits a.nesting h.after (u.called (.after place)) p → Point s xs p
  | callback {xs : List Executor} {ownThread : Bool} {callback : Script Custody}
      {t p : Session} :
      r.Comes a s xs (.ok (.detach ownThread callback)) t →
      (a.boundaryOf r).Visits a.nesting callback
        (if ownThread then (t.called .detached).handOff else t.called .detached) p →
      Point s xs p
  | answer {xs : List Executor} {final : Except Failure Outcome} {f : Failure} {t u p : Session} :
      r.Comes a s xs final t → r.Fails a final t f u →
      (a.boundaryOf r).Visits a.nesting (Script.fail f none) u p → Point s xs p

variable {a r}

theorem Route.Comes.inIoThread_eq {s t : Session} {xs : List Executor}
    {final : Except Failure Outcome} (h : r.Comes a s xs final t) :
    t.context.inIoThread = (s.context.inIoThread && xs.all (·.inline)) := by
  obtain ⟨first, result, v, henters, hhops⟩ := h
  rw [hhops.calls_eq.2, henters.calls_eq.2]

theorem Route.Fails.inIoThread_eq {final : Except Failure Outcome} {f : Failure} {s t : Session}
    (h : r.Fails a final s f t) : t.context.inIoThread = s.context.inIoThread := by
  cases h with
  | failure => rfl
  | unknown => rfl
  | @unsent m s t u e hafter hsend =>
    have hquiet := Session.quiet_send t (.model m)
    rw [hsend] at hquiet
    exact hquiet.inIoThread.trans (Hook.calls_of_runAfter hafter).2

/-- Wherever a script of a request is, the context is on the thread where the request began
exactly if it began there and all executors that were used are inline. -/
theorem Route.Point.inIoThread_eq {s p : Session} {xs : List Executor} (h : r.Point a s xs p) :
    p.context.inIoThread = (s.context.inIoThread && xs.all (·.inline)) := by
  cases h with
  | before hbegins hvisits =>
    obtain ⟨place, -, -, -, hthread⟩ := hbegins.exists_place (by simp)
    exact (hvisits.quiet.inIoThread.trans hthread).trans (Bool.and_true _).symm
  | handler hbegins hvisits =>
    obtain ⟨place, -, -, -, hthread⟩ := hbegins.exists_place (by simp)
    exact (hvisits.quiet.inIoThread.trans hthread).trans (Bool.and_true _).symm
  | @task xs executor task x t p hcomes hx hplacement hvisits =>
    rw [hvisits.quiet.inIoThread, (Session.entering_handedTo t executor x).2, hcomes.inIoThread_eq]
    simp [Bool.and_assoc]
  | after hcomes _ _ hafter hvisits =>
    rw [hvisits.quiet.inIoThread, ← hcomes.inIoThread_eq]
    exact (Hook.calls_of_runAfter hafter).2
  | @callback xs ownThread callback t p hcomes hvisits =>
    rw [hvisits.quiet.inIoThread, ← hcomes.inIoThread_eq]
    split
    · exact (Session.quiet_handOff (t.called .detached)).inIoThread
    · rfl
  | answer hcomes hfails hvisits =>
    rw [hvisits.quiet.inIoThread, hfails.inIoThread_eq, hcomes.inIoThread_eq]

end

end HttpApp
