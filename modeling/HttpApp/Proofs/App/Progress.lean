/-
  HttpApp/Proofs/App/Progress.lean --- how a request goes on.

  Answering a request is a chain of works: the hooks before the handler, the handler,
  and tasks, each of which an outcome hands to an executor.  `Route.Begins` says which
  works are begun, and in which sessions.  Main statements: when a work on the thread
  of the caller ends with a result, all that is left of the request is to settle that
  result (`Route.Begins.answer_eq`), and some work does end with a result
  (`Route.exists_begins_result`).
-/
import HttpApp.Proofs.App.Runs

set_option autoImplicit false

namespace HttpApp

open Session (Reaches)

/-! ## Works -/

/-- What is run for a request where panics count as failures. -/
inductive Work where
  /-- the hook at a place, before the handler -/
  | before (place : Nat) (h : Hook)
  | handler
  /-- a task that an executor runs -/
  | task (x : Executor) (script : Script (Except Failure Outcome))

def Ending.toVerdict : Ending (Except Failure Outcome) → Ending (Except Failure Verdict)
  | .returned result => .returned (result.map .respond)
  | .panicked p => .panicked p

/-- What there is to settle after an ending, unless the request proceeds. -/
def Ending.result? : Ending (Except Failure Verdict) → Option (Except Failure Outcome)
  | .returned (.ok .proceed) => none
  | .returned (.ok (.respond o)) => some (.ok o)
  | .returned (.error f) => some (.error f)
  | .panicked p => some (.error (.ofPanic p))

@[simp] theorem Ending.result?_toVerdict (ending : Ending (Except Failure Outcome)) :
    ending.toVerdict.result? = some ending.guard := by
  match ending with
  | .returned (.ok o) => rfl
  | .returned (.error f) => rfl
  | .panicked p => rfl

section
variable (a : App) (r : Route)

def Work.run : Work → Session → Ending (Except Failure Verdict) × Session
  | .before place h, s => h.runFirst (a.boundaryOf r) place s
  | .handler, s =>
    let (ending, s) := r.handler.run (a.boundaryOf r).answer (s.called .handler)
    (ending.toVerdict, s)
  | .task x script, s =>
    let (ending, s) := script.run (a.boundaryOf r).answer (s.entering x)
    (ending.toVerdict, s)

/-- The work at a place: a hook, or the handler behind the last hook. -/
def Route.work (place : Nat) : Work :=
  match r.hooks[place]? with
  | some h => .before place h
  | none => .handler

/-- The session in which a job begins that an executor is handed. -/
def Session.handedTo (s : Session) (executor : Option String) (x : Executor) : Session :=
  let s := s.dispatching a.workers executor x
  if x.placement = .caller then s else s.handOff

/-- In answering a request, a work is begun in a session; the truth value says whether that is
on the thread of the caller. -/
inductive Route.Begins (s : Session) : Bool → Work → Session → Prop where
  | first : Begins s true (r.work 0) s
  | next {place : Nat} {h : Hook} {u v : Session} :
      Begins s true (.before place h) u →
      Work.run a r (.before place h) u = (.returned (.ok .proceed), v) →
      Begins s true (r.work (place + 1)) v
  | task {here : Bool} {w : Work} {u v : Session} {executor : Option String}
      {task : Script (Except Failure Outcome)} {x : Executor} :
      Begins s here w u →
      w.run a r u = (.returned (.ok (.respond (.dispatch executor task))), v) →
      a.workers.get? executor = some x → x.placement ≠ .nowhere →
      Begins s (here && decide (x.placement = .caller)) (.task x task) (v.handedTo a executor x)

/-! ## What is left of a request -/

/-- What is left of a request when a work is about to begin on the thread of the caller. -/
def Work.rest : Work → Session → Ending Unit × Session
  | .before place _, s => let (ending, s) := r.runFrom a place s; settle a r ending.guard s
  | .handler, s => let (ending, s) := r.runFrom a r.hooks.length s; settle a r ending.guard s
  | .task x script, s => runTask a r script (s.entering x)

/-- A hook stands where its route has it. -/
def Work.Placed : Work → Prop
  | .before place h => r.hooks[place]? = some h
  | _ => True

variable {a r}

theorem Route.work_eq_before_iff {place place' : Nat} {h : Hook} :
    r.work place = .before place' h ↔ place = place' ∧ r.hooks[place]? = some h := by
  unfold Route.work
  split <;> simp_all

theorem Route.work_eq_handler_iff {place : Nat} :
    r.work place = .handler ↔ r.hooks.length ≤ place := by
  rw [Route.work, ← List.getElem?_eq_none_iff]
  split <;> simp_all

theorem Route.work_ne_task (place : Nat) (x : Executor) (task : Script (Except Failure Outcome)) :
    r.work place ≠ .task x task := by
  unfold Route.work
  split <;> simp

theorem Route.placed_work (place : Nat) : (r.work place).Placed r := by
  unfold Route.work
  split
  · next h heq => exact heq
  · trivial

theorem Route.Begins.placed {s : Session} {here : Bool} {w : Work} {u : Session}
    (h : r.Begins a s here w u) : w.Placed r := by
  cases h with
  | first => exact Route.placed_work 0
  | next => exact Route.placed_work _
  | task => trivial

theorem Route.drop_hooks {place : Nat} {h : Hook} (hh : r.hooks[place]? = some h) :
    r.hooks.drop place = h :: r.hooks.drop (place + 1) := by
  obtain ⟨hlt, rfl⟩ := List.getElem?_eq_some_iff.1 hh
  exact List.drop_eq_getElem_cons hlt

theorem Route.rest_work (place : Nat) (s : Session) :
    (r.work place).rest a r s =
      settle a r (r.runFrom a place s).1.guard (r.runFrom a place s).2 := by
  unfold Route.work
  split
  · rfl
  · next heq =>
    have hle : r.hooks.length ≤ place := List.getElem?_eq_none_iff.1 heq
    simp only [Work.rest, Route.runFrom, List.drop_length, List.drop_eq_nil_of_le hle]
    rfl

/-- A hook that lets the request proceed leaves the work at the next place. -/
theorem Work.rest_of_proceed {place : Nat} {h : Hook} {s t : Session}
    (hplaced : (Work.before place h).Placed r)
    (hrun : Work.run a r (.before place h) s = (.returned (.ok .proceed), t)) :
    (Work.before place h).rest a r s = (r.work (place + 1)).rest a r t := by
  have hfirst : h.runFirst (a.boundaryOf r) place s = (.returned (.ok .proceed), t) := hrun
  have hfrom : r.runFrom a place s = r.runFrom a (place + 1) t := by
    unfold Route.runFrom
    rw [Route.drop_hooks hplaced, Hook.runBefore, hfirst]
  rw [Route.rest_work, ← hfrom]
  rfl

/-- A work that ends with a result leaves it to be settled. -/
theorem Work.rest_of_result {w : Work} {s t : Session} {ending : Ending (Except Failure Verdict)}
    {result : Except Failure Outcome} (hplaced : w.Placed r) (hrun : w.run a r s = (ending, t))
    (hresult : ending.result? = some result) : w.rest a r s = settle a r result t := by
  cases w with
  | before place h =>
    have hfirst : h.runFirst (a.boundaryOf r) place s = (ending, t) := hrun
    rw [Work.rest, Route.runFrom, Route.drop_hooks hplaced, Hook.runBefore, hfirst]
    cases ending with
    | panicked p =>
      obtain rfl := Option.some.inj hresult
      rfl
    | returned verdict =>
      rcases verdict with f | (_ | o)
      · obtain rfl := Option.some.inj hresult
        rfl
      · simp [Ending.result?] at hresult
      · obtain rfl := Option.some.inj hresult
        rfl
  | handler =>
    obtain ⟨rfl, rfl⟩ := Prod.mk.inj hrun
    rw [Ending.result?_toVerdict] at hresult
    obtain rfl := Option.some.inj hresult
    rw [Work.rest, Route.runFrom, List.drop_length]
    rfl
  | task x script =>
    obtain ⟨rfl, rfl⟩ := Prod.mk.inj hrun
    rw [Ending.result?_toVerdict] at hresult
    obtain rfl := Option.some.inj hresult
    exact runTask_eq a r script (s.entering x)

/-- Handing a task to an executor on the thread of the caller leaves that task. -/
theorem Outcome.resolve_dispatch {executor : Option String}
    {task : Script (Except Failure Outcome)} {x : Executor} {s : Session}
    (hx : a.workers.get? executor = some x) (hcaller : x.placement = .caller) :
    Outcome.resolve a r (.dispatch executor task) s =
      (Work.task x task).rest a r (s.handedTo a executor x) := by
  simp only [Outcome.resolve, hx, Executor.execute, hcaller, Session.handedTo, if_true, Work.rest]

/-- Whenever a work begins on the thread of the caller, what is left of the request is to answer
it from there on. -/
theorem Route.Begins.rest_eq {s : Session} {here : Bool} {w : Work} {u : Session}
    (h : r.Begins a s here w u) (hhere : here = true) : w.rest a r u = r.answer a s := by
  induction h with
  | first => exact Route.rest_work 0 s
  | next hbegins hrun ih => rw [← Work.rest_of_proceed hbegins.placed hrun, ih rfl]
  | task hbegins hrun hx _ ih =>
    obtain ⟨rfl, hcaller⟩ : _ = true ∧ decide (_ = Placement.caller) = true := by simpa using hhere
    rw [← ih rfl, Work.rest_of_result hbegins.placed hrun rfl]
    exact (Outcome.resolve_dispatch hx (of_decide_eq_true hcaller)).symm

/-- When a work on the thread of the caller ends with a result, the request ends as settling the
result does. -/
theorem Route.Begins.answer_eq {s : Session} {w : Work} {u v : Session}
    {ending : Ending (Except Failure Verdict)} {result : Except Failure Outcome}
    (h : r.Begins a s true w u) (hrun : w.run a r u = (ending, v))
    (hresult : ending.result? = some result) : r.answer a s = settle a r result v := by
  rw [← h.rest_eq rfl, Work.rest_of_result h.placed hrun hresult]

/-- Only a hook lets a request proceed. -/
theorem Work.exists_before_of_result? {w : Work} {s t : Session}
    {ending : Ending (Except Failure Verdict)} (hrun : w.run a r s = (ending, t))
    (hresult : ending.result? = none) :
    ∃ place h, w = .before place h ∧ ending = .returned (.ok .proceed) := by
  cases w with
  | before place h =>
    match ending, hresult with
    | .returned (.ok .proceed), _ => exact ⟨place, h, rfl, rfl⟩
  | handler =>
    obtain ⟨rfl, -⟩ := Prod.mk.inj hrun
    simp at hresult
  | task x script =>
    obtain ⟨rfl, -⟩ := Prod.mk.inj hrun
    simp at hresult

variable (a r)

/-- Some work on the thread of the caller ends with a result: at the latest the handler does. -/
theorem Route.exists_begins_result (s : Session) :
    ∃ w u v ending result, r.Begins a s true w u ∧ w.run a r u = (ending, v) ∧
      ending.result? = some result := by
  -- The induction is on the number of hooks from a place on.
  have hfrom : ∀ n place u, r.hooks.length ≤ place + n → r.Begins a s true (r.work place) u →
      ∃ w u v ending result, r.Begins a s true w u ∧ w.run a r u = (ending, v) ∧
        ending.result? = some result := by
    intro n
    induction n with
    | zero =>
      intro place u hlen hbegins
      have hwork : r.work place = .handler := Route.work_eq_handler_iff.2 hlen
      rw [hwork] at hbegins
      exact ⟨_, u, _, _, _, hbegins, rfl, Ending.result?_toVerdict _⟩
    | succ n ih =>
      intro place u hlen hbegins
      obtain ⟨ending, v, hrun⟩ : ∃ ending v, (r.work place).run a r u = (ending, v) := ⟨_, _, rfl⟩
      cases hresult : ending.result? with
      | some result => exact ⟨_, u, v, ending, result, hbegins, hrun, hresult⟩
      | none =>
        obtain ⟨place', h, hwork, rfl⟩ := Work.exists_before_of_result? hrun hresult
        obtain ⟨rfl, -⟩ := Route.work_eq_before_iff.1 hwork
        rw [hwork] at hbegins hrun
        exact ih (place + 1) v (by omega) (hbegins.next hrun)
  exact hfrom r.hooks.length 0 s (by omega) .first

theorem Work.reaches_run (w : Work) (s : Session) : Reaches s (w.run a r s).2 := by
  have hanswer := (a.boundaryOf r).reaches_answer
  cases w with
  | before place h => exact Hook.reaches_runFirst _ place h s
  | handler => exact .head (.add s _) (Script.reaches_run hanswer r.handler (s.called .handler))
  | task x script =>
    exact (s.reaches_entering x).trans (Script.reaches_run hanswer script (s.entering x))

theorem Session.reaches_handedTo (s : Session) (executor : Option String) (x : Executor) :
    Reaches s (s.handedTo a executor x) := by
  have hdispatching := s.reaches_dispatching a.workers executor x
  unfold Session.handedTo
  dsimp only
  split
  · exact hdispatching
  · exact hdispatching.tail (.handOff _)

variable {a r}

/-- A work begins in a session that steps lead to. -/
theorem Route.Begins.reaches {s : Session} {here : Bool} {w : Work} {u : Session}
    (h : r.Begins a s here w u) : Reaches s u := by
  induction h with
  | first => exact .refl
  | next _ hrun ih => exact ih.trans ((Work.reaches_run a r _ _).of_run hrun)
  | task _ hrun _ _ ih =>
    exact (ih.trans ((Work.reaches_run a r _ _).of_run hrun)).trans
      (Session.reaches_handedTo a _ _ _)

end

/-! ## The requests of an application -/

namespace App

/-- In answering the request of a session, a route takes it and begins a work. -/
def Begins (a : App) (s : Session) (here : Bool) (r : Route) (w : Work) (u : Session) : Prop :=
  ∃ captures, a.table.lookup s.context.request.method s.context.request.path =
      .matched r captures ∧ r.Begins a (s.bound r captures) here w u

/-- A work of a request ends with an outcome. -/
def ComesTo (a : App) (s : Session) (here : Bool) (r : Route) (o : Outcome) (v : Session) : Prop :=
  ∃ w u, a.Begins s here r w u ∧ w.run a r u = (.returned (.ok (.respond o)), v)

/-- No callback takes the context of a request. -/
def NeverDetaches (a : App) (s : Session) : Prop :=
  ∀ here r ownThread callback v, ¬a.ComesTo s here r (.detach ownThread callback) v

/-- Executors run what they are handed for a request. -/
def JobsRun (a : App) (s : Session) : Prop :=
  ∀ here r executor task v x, a.ComesTo s here r (.dispatch executor task) v →
    a.workers.get? executor = some x → x.placement ≠ .nowhere

/-- No hook of a request panics after the handler. -/
def AfterHooksReturn (a : App) (s : Session) : Prop :=
  ∀ here r o v, a.ComesTo s here r o v → (o = .done ∨ ∃ m, o = .render m) →
    ∀ p, (Hook.runAfter (a.boundaryOf r) 0 r.hooks v).1 ≠ .panicked p

/-- No callback that takes the context of a request panics. -/
def CallbacksReturn (a : App) (s : Session) : Prop :=
  ∀ here r ownThread callback v, a.ComesTo s here r (.detach ownThread callback) v →
    ∀ p, (callback.detach (a.boundaryOf r) ownThread v).1 ≠ .panicked p

theorem Begins.reaches {a : App} {s : Session} {here : Bool} {r : Route} {w : Work} {u : Session}
    (h : a.Begins s here r w u) : Reaches s u := by
  obtain ⟨captures, _, hbegins⟩ := h
  exact .head (.bound s r captures) hbegins.reaches

theorem ComesTo.reaches {a : App} {s : Session} {here : Bool} {r : Route} {o : Outcome}
    {v : Session} (h : a.ComesTo s here r o v) : Reaches s v := by
  obtain ⟨w, u, hbegins, hrun⟩ := h
  exact hbegins.reaches.trans ((Work.reaches_run a r w u).of_run hrun)

/-- A task that an outcome hands to an executor is begun. -/
theorem ComesTo.begins {a : App} {s : Session} {here : Bool} {r : Route} {v : Session}
    {executor : Option String} {task : Script (Except Failure Outcome)} {x : Executor}
    (h : a.ComesTo s here r (.dispatch executor task) v)
    (hx : a.workers.get? executor = some x) (hplacement : x.placement ≠ .nowhere) :
    a.Begins s (here && decide (x.placement = .caller)) r (.task x task) (v.handedTo a executor x) := by
  obtain ⟨w, u, ⟨captures, hlookup, hbegins⟩, hrun⟩ := h
  exact ⟨captures, hlookup, hbegins.task hrun hx hplacement⟩

end App

/-! ## Plain routes -/

/-- A route for the path of nothing but a slash, with nothing but a handler. -/
def Route.plain (handler : Handler) : Route where
  method := .get
  pattern := ⟨"/", [], {}⟩
  handler

def RouteTable.plain (handler : Handler) : RouteTable := ⟨[(.get, [.plain handler])]⟩

/-- A request for that route. -/
def Request.plain : Request := { method := .get, path := "/" }

theorem RouteTable.lookup_plain (handler : Handler) :
    (plain handler).lookup .get "/" = .matched (.plain handler) [] := by
  rfl

end HttpApp
