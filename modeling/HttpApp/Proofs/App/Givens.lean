/-
  HttpApp/Proofs/App/Givens.lean --- the points of a request and what contexts are given there.

  `App.Point` says which sessions an application comes through where a context can render:
  before each step of its scripts, error handlers included, and where it sends the model of
  an outcome itself.  Main statement: at each of them the context has what it was given by
  its application, and by the route that took the request, if one did (`App.Point.given`).
-/
import HttpApp.Proofs.App.Rejection
import HttpApp.Proofs.App.Threads
import HttpApp.Proofs.Session.Givens

set_option autoImplicit false

namespace HttpApp

/-! ## Hooks and executors -/

/-- What a run of a script leaves, where the run is known by its result. -/
theorem Script.given_of_run {b : ErrorBoundary} {α : Type} {x : Script α} {s t : Session}
    {ending : Ending α} (h : x.run b.answer s = (ending, t)) :
    t.context.given = s.context.given :=
  ((acts_run b.acts_answer x s).of_run h).given

theorem Hook.given_of_runFirst {b : ErrorBoundary} {place : Nat} {h : Hook} {s t : Session}
    {ending : Ending (Except Failure Verdict)} (hrun : h.runFirst b place s = (ending, t)) :
    t.context.given = s.context.given := by
  have hacts := acts_of_runFirst hrun
  exact hacts.given

theorem Hook.given_of_runAfter {b : ErrorBoundary} {place : Nat} {hooks : List Hook}
    {s t : Session} (h : Hook.runAfter b place hooks s = (.returned (), t)) :
    t.context.given = s.context.given := by
  induction hooks generalizing place s t with
  | nil =>
    obtain rfl : s = t := congrArg Prod.snd h
    rfl
  | cons hook hooks ih =>
    rw [Hook.runAfter] at h
    rcases hrest : Hook.runAfter b (place + 1) hooks s with ⟨ending | p, u⟩
    · rw [hrest] at h
      have hafter := Script.given_of_run h
      have hlater := ih hrest
      exact hafter.trans hlater
    · rw [hrest] at h
      simp at h

theorem Session.given_entering (s : Session) (x : Executor) :
    (s.entering x).context.given = s.context.given := by
  unfold entering
  dsimp only
  split <;> rfl

theorem Session.given_handedTo (a : App) (s : Session) (executor : Option String) (x : Executor) :
    (s.handedTo a executor x).context.given = s.context.given := by
  have hstart : (s.startPool a.workers executor).context.given = s.context.given := by
    unfold startPool
    split <;> rfl
  have hdispatching : (s.dispatching a.workers executor x).context.given = s.context.given := hstart
  unfold handedTo
  dsimp only
  split
  · exact hdispatching
  · exact (given_handOff _).trans hdispatching

/-! ## The course of a request -/

section
variable {a : App} {r : Route}

theorem Work.given_of_run {w : Work} {s t : Session} {ending : Ending (Except Failure Verdict)}
    (h : w.run a r s = (ending, t)) : t.context.given = s.context.given := by
  have hrun : (w.run a r s).2.context.given = s.context.given := by
    cases w with
    | before place h => exact Hook.given_of_runFirst rfl
    | handler => exact (Script.acts_run (a.boundaryOf r).acts_answer r.handler _).given
    | task x script =>
      exact (Script.acts_run (a.boundaryOf r).acts_answer script _).given.trans
        (s.given_entering x)
  rwa [h] at hrun

theorem Route.Begins.given {s : Session} {here : Bool} {w : Work} {u : Session}
    (h : r.Begins a s here w u) : u.context.given = s.context.given := by
  induction h with
  | first => rfl
  | next _ hrun ih => exact (Work.given_of_run hrun).trans ih
  | task _ hrun _ _ ih =>
    exact (Session.given_handedTo a _ _ _).trans ((Work.given_of_run hrun).trans ih)

theorem Route.Hops.given {result final : Except Failure Outcome} {s t : Session}
    {xs : List Executor} (h : r.Hops a result s xs final t) :
    t.context.given = s.context.given := by
  induction h with
  | here => rfl
  | @task executor task x s t u ending xs final _ _ hrun _ ih =>
    rw [ih, Script.given_of_run hrun, Session.given_entering, Session.given_handedTo]

theorem Route.Comes.given {s t : Session} {xs : List Executor} {final : Except Failure Outcome}
    (h : r.Comes a s xs final t) : t.context.given = s.context.given := by
  obtain ⟨first, result, v, henters, hhops⟩ := h
  rw [hhops.given]
  cases henters with
  | halted hbegins hrun hresult => rw [Hook.given_of_runFirst hrun, hbegins.given]
  | handled hbegins hrun => exact (Script.given_of_run hrun).trans hbegins.given

theorem Route.Fails.given {final : Except Failure Outcome} {f : Failure} {s t : Session}
    (h : r.Fails a final s f t) : t.context.given = s.context.given := by
  cases h with
  | failure => rfl
  | unknown => rfl
  | @unsent m s t u e hafter hsend =>
    have hsent := Session.given_send t (.model m)
    rw [hsend] at hsent
    exact hsent.trans (Hook.given_of_runAfter hafter)

theorem Route.Point.given {s p : Session} {xs : List Executor} (h : r.Point a s xs p) :
    p.context.given = s.context.given := by
  cases h with
  | before hbegins hvisits => exact hvisits.acts.given.trans hbegins.given
  | handler hbegins hvisits => exact hvisits.acts.given.trans hbegins.given
  | @task xs executor task x t p hcomes _ _ hvisits =>
    rw [hvisits.acts.given, Session.given_entering, Session.given_handedTo, hcomes.given]
  | after hcomes _ _ hafter hvisits =>
    exact hvisits.acts.given.trans ((Hook.given_of_runAfter hafter).trans hcomes.given)
  | @callback xs ownThread callback t p hcomes hvisits =>
    rw [hvisits.acts.given, ← hcomes.given]
    split
    · exact Session.given_handOff _
    · rfl
  | answer hcomes hfails hvisits =>
    rw [hvisits.acts.given, hfails.given, hcomes.given]

end

/-! ## The points of an application -/

/-- An application comes through a session where the context of a request can render: a script of
the route that takes the request, the model of an outcome after the hooks, or the answer to a
request that no route takes. -/
inductive App.Point (a : App) (s : Session) : Session → Prop where
  | script {r : Route} {captures : Pattern.Captures} {xs : List Executor} {p : Session} :
      a.table.lookup s.context.request.method s.context.request.path = .matched r captures →
      r.Point a (s.bound r captures) xs p → Point a s p
  | outcome {r : Route} {captures : Pattern.Captures} {xs : List Executor} {m : Model}
      {t p : Session} :
      a.table.lookup s.context.request.method s.context.request.path = .matched r captures →
      r.Comes a (s.bound r captures) xs (.ok (.render m)) t →
      Hook.runAfter (a.boundaryOf r) 0 r.hooks t = (.returned (), p) → Point a s p
  | rejection {f : Failure} {u p : Session} :
      a.rejection? s = some (f, u) →
      a.boundary.Visits a.nesting (Script.fail f none) u p → Point a s p

theorem App.given_of_rejection? {a : App} {s u : Session} {f : Failure}
    (h : a.rejection? s = some (f, u)) : u.context.given = s.context.given := by
  unfold rejection? at h
  dsimp only at h
  generalize a.table.lookup s.context.request.method s.context.request.path = found at h
  cases found with
  | matched route captures => cases h
  | notFound | methodNotAllowed allowed =>
    obtain ⟨rfl, rfl⟩ := Prod.mk.inj (Option.some.inj h)
    simp

/-- Wherever an application comes to for a request, the context is given what it was given when
the request began, or when a route took it. -/
theorem App.Point.given {a : App} {s p : Session} (h : a.Point s p) :
    p.context.given = s.context.given ∨
      ∃ r captures, a.table.lookup s.context.request.method s.context.request.path =
          .matched r captures ∧ p.context.given = (s.bound r captures).context.given := by
  cases h with
  | script hlookup hpoint => exact .inr ⟨_, _, hlookup, hpoint.given⟩
  | outcome hlookup hcomes hafter =>
    exact .inr ⟨_, _, hlookup, (Hook.given_of_runAfter hafter).trans hcomes.given⟩
  | rejection hrejection hvisits =>
    exact .inl (hvisits.acts.given.trans (App.given_of_rejection? hrejection))

end HttpApp
