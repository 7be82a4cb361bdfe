/-
  HttpApp/App.lean --- applications, and how they answer requests.

  A request is looked up, and the hooks and the handler of its route are run.  The
  outcome says how the request goes on: a model is rendered, an executor takes a
  task, a callback takes the context, or nothing is left to do.  The hooks run
  once more, in reverse order, before the answer that an outcome implies is sent.
  Failures and panics up to then are answered as errors.
-/
import HttpApp.ErrorBoundary
import HttpApp.Route
import HttpApp.Worker.Executor

set_option autoImplicit false

namespace HttpApp

/-- An application. -/
structure App where
  table : RouteTable := {}
  parsers : List Parser := []
  renderers : List Renderer := []
  errorHandler : ErrorHandler := errorPage
  classify : Failure → Status := Failure.statusCode
  /-- how many error handlers can be at work inside of one another -/
  nesting : Nat := 64
  workers : Workers := {}
  deriving Inhabited

namespace App

/-- An application where records are shown. -/
def shown (a : App) : String :=
  Text.shownRecord "Dispatcher"
    [("routes", toString a.table.size), ("parsers", toString a.parsers.length),
      ("renderers", toString a.renderers.length), ("workers", a.workers.shown)] true

/-- Who answers errors where no route is matched. -/
def boundary (a : App) : ErrorBoundary := ⟨a.errorHandler, a.classify, a.nesting⟩

/-- Who answers the errors of a route. -/
def boundaryOf (a : App) (r : Route) : ErrorBoundary :=
  ⟨r.errorHandler.getD a.errorHandler, a.classify, a.nesting⟩

end App

/-! ## Hooks -/

/-- Runs the first part of the hook at a place. -/
def Hook.runFirst (b : ErrorBoundary) (place : Nat) (h : Hook) (s : Session) :
    Ending (Except Failure Verdict) × Session :=
  match h.before.run b.answer (s.called (.before place)) with
  | (.returned (.ok (.respond o)), s) =>
    (.returned (.ok (.respond o)),
      s.log .debug "Middleware halted the chain" [Event.textField "middleware" h.name])
  | (ending, s) => (ending, s)

/-- Runs the first parts of hooks from a place on, up to the first one that fails or responds. -/
def Hook.runBefore (b : ErrorBoundary) (place : Nat) :
    List Hook → Session → Ending (Except Failure Verdict) × Session
  | [], s => (.returned (.ok .proceed), s)
  | h :: hs, s =>
    match h.runFirst b place s with
    | (.returned (.ok .proceed), s) => runBefore b (place + 1) hs s
    | (ending, s) => (ending, s)

/-- Runs the second parts of hooks from a place on, the last hook first, up to the first one
that panics. -/
def Hook.runAfter (b : ErrorBoundary) (place : Nat) : List Hook → Session → Ending Unit × Session
  | [], s => (.returned (), s)
  | h :: hs, s =>
    match runAfter b (place + 1) hs s with
    | (.panicked p, s) => (.panicked p, s)
    | (.returned _, s) => h.after.run b.answer (s.called (.after place))

/-! ## Executors -/

/-- The text of a payload where workers report it. -/
def Payload.report (p : Payload) : String := p.text?.getD "job panicked"

/-- Runs a job where an executor places it. -/
def Executor.execute (x : Executor) (job : Session → Ending Unit × Session) (s : Session) :
    Ending Unit × Session :=
  match x.placement with
  | .caller => job s
  | .worker name =>
    match job s.handOff with
    | (.returned _, s) => (.returned (), s)
    | (.panicked p, s) =>
      (.returned (),
        s.log .error "Worker job panicked"
          [Event.textField "worker" name, Event.textField "panic" p.report])
  | .background => (.returned (), (job s.handOff).2)
  | .nowhere => (.returned (), s.add (.event (Executor.droppedEvent x.name)))

/-- Starts the default pool of workers if it is used for the first time. -/
def Session.startPool (s : Session) (w : Workers) (executor : Option String) : Session :=
  if !s.poolStarted && executor.isNone && w.default.isNone then
    { s with poolStarted := true }.add (.event (Executor.startedEvent Executor.defaultPool.name))
  else s

/-- Hands a task over to an executor. -/
def Session.dispatching (s : Session) (w : Workers) (executor : Option String) (x : Executor) :
    Session :=
  let s := s.startPool w executor
  s.log .debug "Dispatching to worker"
    [Event.textField "path" s.context.request.path, Event.textField "executor" x.name]

/-- Begins a task where an executor runs its jobs. -/
def Session.entering (s : Session) (x : Executor) : Session :=
  let s := if x.inline then s else s.withContext fun c => { c with inIoThread := false }
  s.called (.task x.name)

/-! ## Outcomes -/

/-- The session of a request that a route takes. -/
def Session.bound (s : Session) (r : Route) (captures : Pattern.Captures) : Session :=
  s.withContext fun c => { c with endpoint := some r.toEndpoint, captures }

/-- Lets a callback take the context. -/
def Script.detach (b : ErrorBoundary) (ownThread : Bool) (callback : Script Custody) (s : Session) :
    Ending Unit × Session :=
  let finish (custody : Custody) (s : Session) : Session := { s with kept := custody == .kept }
  let s := s.called .detached
  if ownThread then
    match callback.run b.answer s.handOff with
    | (.returned custody, s) => (.returned (), finish custody s)
    | (.panicked _, s) => (.returned (), s)
  else
    match callback.run b.answer s with
    | (.returned custody, s) => (.returned (), finish custody s)
    | (.panicked p, s) =>
      (.panicked p,
        s.log .error "Detached callback panicked; re-raising"
          [Event.textField "path" s.context.request.path])

/-- Sends the model of a handler. -/
def Session.sendModel (b : ErrorBoundary) (m : Model) (s : Session) : Ending Unit × Session :=
  match s.send (.model m) with
  | (.ok _, s) => (.returned (), s)
  | (.error e, s) => b.answer (.ofError e) none s

/-- Sends the staged status if nothing was sent. -/
def Session.sendImplied (s : Session) : Session :=
  if s.context.started then s
  else
    match s.sendStatus s.context.status with
    | (.ok _, s) => s
    | (.error e, s) =>
      s.log .debug "Implicit response not sent"
        [Event.textField "path" s.context.request.path, Event.textField "error" e.message]

section
variable (a : App) (r : Route)

mutual

/-- Goes on with a request as an outcome says. -/
def Outcome.resolve : Outcome → Session → Ending Unit × Session
  | .render m, s =>
    match Hook.runAfter (a.boundaryOf r) 0 r.hooks s with
    | (.panicked p, s) => (.panicked p, s)
    | (.returned _, s) => s.sendModel (a.boundaryOf r) m
  | .done, s =>
    match Hook.runAfter (a.boundaryOf r) 0 r.hooks s with
    | (.panicked p, s) => (.panicked p, s)
    | (.returned _, s) => (.returned (), s.sendImplied)
  | .dispatch executor task, s =>
    match a.workers.get? executor with
    | none => (a.boundaryOf r).answer (.ofError (.unknownExecutor (executor.getD ""))) none s
    | some x => x.execute (fun s => runTask task (s.entering x)) (s.dispatching a.workers executor x)
  | .detach ownThread callback, s => callback.detach (a.boundaryOf r) ownThread s

/-- Runs a task, or what is left of it, and goes on as it says. -/
def runTask : Script (Except Failure Outcome) → Session → Ending Unit × Session
  | .ret result, s => settle result s
  | .panic p, s => (a.boundaryOf r).answer (.ofPanic p) none s
  | .ask op next, s => runTask (next (s.perform op).1) (s.perform op).2
  | .sendError f status next, s =>
    match (a.boundaryOf r).answer f status s with
    | (.returned _, s) => runTask next s
    | (.panicked p, s) => (a.boundaryOf r).answer (.ofPanic p) none s

/-- Goes on as a result says: a failure is answered. -/
def settle : Except Failure Outcome → Session → Ending Unit × Session
  | .ok o, s => Outcome.resolve o s
  | .error f, s => (a.boundaryOf r).answer f none s

end

/-- Running a task is running its script and going on with the result, a panic being a
failure. -/
theorem runTask_eq (task : Script (Except Failure Outcome)) (s : Session) :
    runTask a r task s =
      settle a r (task.run (a.boundaryOf r).answer s).1.guard
        (task.run (a.boundaryOf r).answer s).2 := by
  match task with
  | .ret result => simp [runTask, Script.run, Ending.guard]
  | .panic p => simp [runTask, Script.run, Ending.guard, settle]
  | .ask op next => simpa [runTask, Script.run] using runTask_eq (next (s.perform op).1) (s.perform op).2
  | .sendError f status next =>
    rw [runTask, Script.run]
    match h : (a.boundaryOf r).answer f status s with
    | (.returned _, t) => simpa using runTask_eq next t
    | (.panicked p, t) => simp [Ending.guard, settle]

/-- Runs the hooks of a route from a place on, and then its handler. -/
def Route.runFrom (place : Nat) (s : Session) : Ending (Except Failure Outcome) × Session :=
  match Hook.runBefore (a.boundaryOf r) place (r.hooks.drop place) s with
  | (.returned (.ok .proceed), s) => r.handler.run (a.boundaryOf r).answer (s.called .handler)
  | (.returned (.ok (.respond o)), s) => (.returned (.ok o), s)
  | (.returned (.error f), s) => (.returned (.error f), s)
  | (.panicked p, s) => (.panicked p, s)

/-- Answers a request by a route. -/
def Route.answer (s : Session) : Ending Unit × Session :=
  let (ending, s) := r.runFrom a 0 s
  settle a r ending.guard s

end

namespace App

/-- The names of methods in one line. -/
def methodLine (ms : List Method) : String := ", ".intercalate (ms.map Method.name)

/-- Answers the request of a session. -/
def answer (a : App) (s : Session) : Ending Unit × Session :=
  let request := s.context.request
  match a.table.lookup request.method request.path with
  | .matched route captures => route.answer a (s.bound route captures)
  | .notFound => a.boundary.answer (.ofError (.routeNotFound request.path)) none s
  | .methodNotAllowed allowed =>
    a.boundary.answer (.ofError (.methodNotAllowed request.method request.path allowed)) none
      (s.stageHeader "allow" (methodLine allowed))

/-- The events of giving the application up, once all requests are answered: its pools stop.  A
context that is kept for good keeps the application, too. -/
def closing (a : App) (poolStarted kept : Bool) : List Event :=
  if kept then [] else (if poolStarted then (a.workers.used none).1 else a.workers).closing

/-- The session of a request before anything is done. -/
def session (a : App) (request : Request) (receiver : Receiver) (limit : Option Nat)
    (poolStarted : Bool) : Session where
  context := { request, parsers := a.parsers, renderers := a.renderers }
  channel := { receiver }
  patience := { limit }
  poolStarted

end App

end HttpApp
