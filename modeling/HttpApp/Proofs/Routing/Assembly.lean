/-
  HttpApp/Proofs/Routing/Assembly.lean --- assembling does not depend on the order of calls.

  An assembly is a list of calls: routes are asked for, the route that was asked for last
  is set, and things are set for all routes.  `Router.assemble` makes the calls one by
  one.  What the calls ask for is read off the list in two parts that do not see each
  other: the plans of the routes, and the settings for all routes.  Main statement: the
  application is made of these two parts, whatever the order of the calls is.
-/
import HttpApp.Hooks
import HttpApp.Proofs.Routing.Sealing
import HttpApp.Router

set_option autoImplicit false

namespace HttpApp

/-! ## Settings -/

/-- What can be set for one route. -/
inductive Route.Setting where
  | hook (h : Hook)
  | parser (p : Parser)
  | renderer (x : Renderer)
  | errorHandler (h : ErrorHandler)

namespace Route.Setting

def hook? : Setting → Option Hook
  | .hook h => some h
  | _ => none

def parser? : Setting → Option Parser
  | .parser p => some p
  | _ => none

def renderer? : Setting → Option Renderer
  | .renderer x => some x
  | _ => none

def errorHandler? : Setting → Option ErrorHandler
  | .errorHandler h => some h
  | _ => none

end Route.Setting

/-- A route with one thing set. -/
def Route.set (r : Route) : Route.Setting → Route
  | .hook h => r.withHook h
  | .parser p => r.withParser p
  | .renderer x => r.withRenderer x
  | .errorHandler h => r.withErrorHandler h

/-- What can be set for all routes. -/
inductive Router.Setting where
  | hook (h : Hook)
  | parser (p : Parser)
  | renderer (x : Renderer)
  | errorHandler (h : ErrorHandler)
  | classifier (f : Failure → Status)
  | worker (x : Executor)
  | executor (name : String) (x : Executor)

namespace Router.Setting

def hook? : Setting → Option Hook
  | .hook h => some h
  | _ => none

def parser? : Setting → Option Parser
  | .parser p => some p
  | _ => none

def renderer? : Setting → Option Renderer
  | .renderer x => some x
  | _ => none

end Router.Setting

/-- A router with one thing set for all routes. -/
def Router.set (r : Router) : Router.Setting → Router
  | .hook h => r.addHook h
  | .parser p => r.addParser p
  | .renderer x => r.addRenderer x
  | .errorHandler h => r.setErrorHandler h
  | .classifier f => r.setClassifier f
  | .worker x => r.setWorker x
  | .executor name x => r.addExecutor name x

/-! ## Calls -/

/-- A call of an assembly. -/
inductive Registration where
  /-- a route is asked for -/
  | route (method : Method) (text : String) (handler : Handler)
  /-- something is set for the route that was asked for last, if that one was registered -/
  | own (x : Route.Setting)
  /-- something is set for all routes -/
  | all (x : Router.Setting)

/-- An assembly under way. -/
structure Assembly where
  router : Router
  /-- whether the route that was asked for last was registered -/
  registered : Bool := false

namespace Assembly

/-- Makes a call.  A route whose pattern cannot be read is not registered, and there is none to
be set then. -/
def apply (s : Assembly) : Registration → Assembly
  | .route method text handler =>
    match s.router.addRoute method text handler with
    | .ok router => { router, registered := true }
    | .error _ => { s with registered := false }
  | .own x => if s.registered then { s with router := s.router.withLast (·.set x) } else s
  | .all x => { s with router := s.router.set x }

end Assembly

/-- The router after some calls. -/
def Router.assemble (options : MatchOptions) (calls : List Registration) : Router :=
  (calls.foldl Assembly.apply { router := { options } }).router

/-! ## What calls ask for -/

/-- A route that can be registered, with what is set for it alone. -/
structure Route.Plan where
  method : Method
  pattern : Pattern
  handler : Handler
  /-- its own settings in order -/
  settings : List Route.Setting

namespace Registration

/-- The settings for a route in the calls behind the one that asks for it. -/
def ownSettings : List Registration → List Route.Setting
  | [] => []
  | .own x :: calls => x :: ownSettings calls
  | .all _ :: calls => ownSettings calls
  | .route .. :: _ => []

/-- The calls without settings for a route that they do not ask for. -/
def withoutOwn : List Registration → List Registration
  | [] => []
  | .own _ :: calls => withoutOwn calls
  | .all x :: calls => .all x :: withoutOwn calls
  | .route method text handler :: calls => .route method text handler :: calls

/-- The routes that calls ask for and that can be registered, in order. -/
def plans (options : MatchOptions) : List Registration → List Route.Plan
  | [] => []
  | .route method text handler :: calls =>
    match Pattern.read text options with
    | .ok pattern => ⟨method, pattern, handler, ownSettings calls⟩ :: plans options calls
    | .error _ => plans options calls
  | _ :: calls => plans options calls

def forAll? : Registration → Option Router.Setting
  | .all x => some x
  | _ => none

/-- What calls set for all routes, in order. -/
def forAll (calls : List Registration) : List Router.Setting := calls.filterMap forAll?

end Registration

namespace Route.Plan

/-- The route that is planned, as it is registered. -/
def own (p : Plan) : Route :=
  p.settings.foldl Route.set { method := p.method, pattern := p.pattern, handler := p.handler }

/-- The route that is planned, in an application with these settings for all routes: hooks for all
routes run before its own ones, its own codecs are tried before those for all routes. -/
def finished (p : Plan) (forAll : List Router.Setting) : Route where
  method := p.method
  pattern := p.pattern
  handler := p.handler
  hooks := forAll.filterMap Router.Setting.hook? ++ p.settings.filterMap Setting.hook?
  parsers := p.settings.filterMap Setting.parser? ++
    .text :: forAll.filterMap Router.Setting.parser?
  renderers := p.settings.filterMap Setting.renderer? ++
    .text :: .json :: .bytes :: forAll.filterMap Router.Setting.renderer?
  errorHandler := (p.settings.filterMap Setting.errorHandler?).getLast?

end Route.Plan

/-! ## Settings of routes -/

theorem Route.foldl_set (xs : List Setting) (r : Route) :
    xs.foldl Route.set r =
      { r with
        hooks := r.hooks ++ xs.filterMap Setting.hook?
        parsers := r.parsers ++ xs.filterMap Setting.parser?
        renderers := r.renderers ++ xs.filterMap Setting.renderer?
        errorHandler := (xs.filterMap Setting.errorHandler?).getLast?.or r.errorHandler } := by
  induction xs generalizing r with
  | nil => simp
  | cons x xs ih =>
    rw [List.foldl_cons, ih]
    cases x with
    | errorHandler h =>
      -- The last of the handlers that are set counts, and this one if no other is set behind it.
      cases hlast : (xs.filterMap Setting.errorHandler?).getLast? <;>
        simp [set, withErrorHandler, List.filterMap_cons, Setting.hook?, Setting.parser?,
          Setting.renderer?, Setting.errorHandler?, List.getLast?_cons, hlast]
    | _ =>
      simp [set, withHook, withParser, withRenderer, List.filterMap_cons, Setting.hook?,
        Setting.parser?, Setting.renderer?, Setting.errorHandler?]

/-- What is set for all routes goes to a route that was registered by its plan. -/
theorem Route.Plan.inherit_own (p : Plan) (forAll : List Router.Setting) :
    p.own.inherit (forAll.filterMap Router.Setting.hook?)
      (.text :: forAll.filterMap Router.Setting.parser?)
      (.text :: .json :: .bytes :: forAll.filterMap Router.Setting.renderer?) =
      p.finished forAll := by
  rw [own, Route.foldl_set]
  simp [Route.inherit, finished]

namespace Router

/-! ## Steps of an assembly -/

theorem addRoute_eq_ok {r : Router} {method : Method} {text : String} {handler : Handler}
    {pattern : Pattern} (h : Pattern.read text r.options = .ok pattern) :
    r.addRoute method text handler =
      .ok { r with
        routes := r.routes ++ [{ method, pattern, handler }]
        record := r.record ++ [registeredEvent { method, pattern, handler }] } := by
  rw [addRoute, Router.pattern, h]
  rfl

theorem addRoute_eq_error {r : Router} {method : Method} {text : String} {handler : Handler}
    {raw : String} {fault : Pattern.Fault} (h : Pattern.read text r.options = .error (raw, fault)) :
    r.addRoute method text handler = .error (.invalidPattern raw fault.message) := by
  rw [addRoute, Router.pattern, h]
  rfl

/-- Setting the last route. -/
theorem routes_withLast {r : Router} {front : List Route} {last : Route}
    (h : r.routes = front ++ [last]) (f : Route → Route) :
    (r.withLast f).routes = front ++ [f last] := by
  simp [withLast, h]

/-- What is set for all routes, apart from the routes. -/
def common (r : Router) : Router := { r with routes := [], record := [] }

theorem common_withLast (r : Router) (f : Route → Route) : (r.withLast f).common = r.common := by
  unfold withLast
  split <;> rfl

theorem common_set (r : Router) (x : Setting) : (r.set x).common = (r.common.set x).common := by
  cases x <;> rfl

theorem common_foldl_set {r r' : Router} (h : r.common = r'.common) (xs : List Setting) :
    (xs.foldl set r).common = (xs.foldl set r').common := by
  induction xs generalizing r r' with
  | nil => exact h
  | cons x xs ih =>
    refine ih ?_
    rw [common_set, h, ← common_set]

theorem options_eq_of_common {r r' : Router} (h : r.common = r'.common) :
    r.options = r'.options := by
  have hoptions := congrArg Router.options h
  exact hoptions

/-- Only the routes are not common to what two routers build that have the same for all routes. -/
theorem build_of_common {r r' : Router} (h : r.common = r'.common) :
    r.build = { r' with routes := r.routes }.build := by
  have hbuild := congrArg (fun x : Router => { x with routes := r.routes }.build) h
  exact hbuild

theorem routes_set (r : Router) (x : Setting) : (r.set x).routes = r.routes := by
  cases x <;> rfl

/-- Hooks and codecs for all routes are kept in the order in which they are set. -/
theorem foldl_set (xs : List Setting) (r : Router) :
    (xs.foldl set r).hooks = r.hooks ++ xs.filterMap Setting.hook? ∧
    (xs.foldl set r).parsers = r.parsers ++ xs.filterMap Setting.parser? ∧
    (xs.foldl set r).renderers = r.renderers ++ xs.filterMap Setting.renderer? := by
  induction xs generalizing r with
  | nil => simp
  | cons x xs ih =>
    obtain ⟨hhooks, hparsers, hrenderers⟩ := ih (r.set x)
    rw [List.foldl_cons, hhooks, hparsers, hrenderers]
    cases x <;>
      simp [set, addHook, addParser, addRenderer, setErrorHandler, setClassifier, setWorker,
        addExecutor, withWorkers, List.filterMap_cons, Setting.hook?, Setting.parser?,
        Setting.renderer?]

end Router

/-! ## Whole assemblies -/

namespace Assembly

open Registration (forAll ownSettings plans)

variable {s : Assembly}

theorem common_apply_route (method : Method) (text : String) (handler : Handler) :
    (s.apply (.route method text handler)).router.common = s.router.common := by
  rw [apply]
  rcases h : Pattern.read text s.router.options with ⟨raw, fault⟩ | pattern
  · rw [Router.addRoute_eq_error h]
  · rw [Router.addRoute_eq_ok h]
    rfl

theorem common_apply_own (x : Route.Setting) :
    (s.apply (.own x)).router.common = s.router.common := by
  rw [apply]
  split
  · exact Router.common_withLast ..
  · rfl

/-- What calls set for all routes does not depend on the routes that they ask for. -/
theorem common_foldl_apply (calls : List Registration) (s : Assembly) :
    (calls.foldl apply s).router.common = ((forAll calls).foldl Router.set s.router).common := by
  induction calls generalizing s with
  | nil => rfl
  | cons c calls ih =>
    rw [List.foldl_cons, ih]
    cases c with
    | route method text handler =>
      exact Router.common_foldl_set (common_apply_route method text handler) _
    | own x => exact Router.common_foldl_set (common_apply_own x) _
    | all x => rfl

/-- The routes of an assembly are those that were registered before and those that are planned.
The last one of the former is set on the way, if it is the one that was asked for last. -/
theorem routes_foldl_apply (calls : List Registration) {s : Assembly} (front : List Route)
    (last : Option Route) (hlast : s.registered = last.isSome)
    (hroutes : s.router.routes = front ++ last.toList) :
    (calls.foldl apply s).router.routes =
      front ++ (last.map ((ownSettings calls).foldl Route.set)).toList ++
        (plans s.router.options calls).map Route.Plan.own := by
  induction calls generalizing s front last with
  | nil => simp [plans, ownSettings, hroutes]
  | cons c calls ih =>
    rw [List.foldl_cons]
    cases c with
    | route method text handler =>
      rcases h : Pattern.read text s.router.options with ⟨raw, fault⟩ | pattern
      · have happly : s.apply (.route method text handler) = { s with registered := false } := by
          rw [apply, Router.addRoute_eq_error h]
        rw [happly, ih (s := { s with registered := false }) (front ++ last.toList) none rfl
          (hroutes.trans (List.append_nil _).symm)]
        simp [plans, h, ownSettings]
      · have happly : s.apply (.route method text handler) =
            ⟨{ s.router with
              routes := s.router.routes ++ [{ method, pattern, handler }]
              record := s.router.record ++
                [Router.registeredEvent { method, pattern, handler }] }, true⟩ := by
          rw [apply, Router.addRoute_eq_ok h]
        rw [happly, ih (front ++ last.toList) (some { method, pattern, handler }) rfl
          (by rw [hroutes]; rfl)]
        simp [plans, h, ownSettings, Route.Plan.own]
    | own x =>
      cases last with
      | none =>
        have happly : s.apply (.own x) = s := by
          rw [apply, hlast]
          rfl
        rw [happly, ih front none hlast hroutes]
        rfl
      | some last =>
        have happly : s.apply (.own x) = { s with router := s.router.withLast (·.set x) } := by
          rw [apply, hlast]
          rfl
        have hoptions : (s.router.withLast (·.set x)).options = s.router.options :=
          Router.options_eq_of_common (Router.common_withLast ..)
        rw [happly, ih (s := { s with router := s.router.withLast (·.set x) }) front
          (some (last.set x)) hlast (Router.routes_withLast hroutes _), hoptions]
        rfl
    | all x =>
      have hoptions : (s.router.set x).options = s.router.options := by
        cases x <;> rfl
      rw [apply, ih (s := { s with router := s.router.set x }) front last hlast
        ((Router.routes_set _ x).trans hroutes), hoptions]
      rfl

/-- Without a route to be set, the settings for one have no effect. -/
theorem router_foldl_apply_unregistered (calls : List Registration) (s : Assembly) :
    (calls.foldl apply { s with registered := false }).router =
      ((Registration.withoutOwn calls).foldl apply s).router := by
  induction calls generalizing s with
  | nil => rfl
  | cons c calls ih =>
    cases c with
    | route method text handler =>
      have happly : ({ s with registered := false } : Assembly).apply (.route method text handler) =
          s.apply (.route method text handler) := rfl
      rw [List.foldl_cons, happly]
      rfl
    | own x => exact ih s
    | all x => exact ih { s with router := s.router.set x }

end Assembly

namespace Router

open Registration (forAll plans withoutOwn)

theorem routes_assemble (options : MatchOptions) (calls : List Registration) :
    (assemble options calls).routes = (plans options calls).map Route.Plan.own := by
  rw [assemble, Assembly.routes_foldl_apply calls [] none rfl rfl]
  rfl

theorem common_assemble (options : MatchOptions) (calls : List Registration) :
    (assemble options calls).common = ((forAll calls).foldl set { options }).common :=
  Assembly.common_foldl_apply calls _

/-- What is built is made of what is set for all routes and of the plans of the routes. -/
theorem build_assemble (options : MatchOptions) (calls : List Registration) :
    (assemble options calls).build =
      { (forAll calls).foldl set { options } with
        routes := (plans options calls).map Route.Plan.own }.build := by
  rw [build_of_common (common_assemble options calls), routes_assemble]

/-- The routes of an application that calls build: those that are planned, each with what is set
for all routes. -/
theorem table_build_assemble (options : MatchOptions) (calls : List Registration) :
    (assemble options calls).build.table =
      .ofRoutes ((plans options calls).map (·.finished (forAll calls))) := by
  obtain ⟨hhooks, hparsers, hrenderers⟩ := foldl_set (forAll calls) { options }
  have hfinished : ∀ p : Route.Plan,
      p.own.inherit ((forAll calls).foldl set { options }).hooks
        ((forAll calls).foldl set { options }).parsers
        ((forAll calls).foldl set { options }).renderers = p.finished (forAll calls) := by
    intro p
    rw [hhooks, hparsers, hrenderers]
    exact p.inherit_own (forAll calls)
  rw [build_assemble, build]
  simp only [List.map_map]
  exact congrArg (fun f => RouteTable.ofRoutes ((plans options calls).map f)) (funext hfinished)

theorem error_of_addRoute {r : Router} {method : Method} {text : String} {handler : Handler}
    {e : Error} (h : r.addRoute method text handler = .error e) :
    ∃ raw fault, Pattern.read text r.options = .error (raw, fault) ∧
      e = .invalidPattern raw fault.message := by
  rcases hread : Pattern.read text r.options with ⟨raw, fault⟩ | pattern
  · rw [addRoute_eq_error hread] at h
    exact ⟨raw, fault, rfl, (Except.error.inj h).symm⟩
  · rw [addRoute_eq_ok hread] at h
    cases h

/-- A call that asks for a route in vain is as good as not made. -/
theorem assemble_of_error {options : MatchOptions} {calls : List Registration} {method : Method}
    {text : String} {handler : Handler} {e : Error}
    (h : (assemble options calls).addRoute method text handler = .error e)
    (later : List Registration) :
    assemble options (calls ++ .route method text handler :: later) =
      assemble options (calls ++ withoutOwn later) := by
  rw [assemble, assemble, List.foldl_append, List.foldl_append, List.foldl_cons]
  rw [← Assembly.router_foldl_apply_unregistered, Assembly.apply]
  change (calls.foldl Assembly.apply { router := { options } }).router.addRoute
    method text handler = .error e at h
  rw [h]

/-- An application does not depend on how the calls of its assembly interleave.  Each route that can
be registered has the hooks for all routes before its own ones, its own parsers before the one for
texts and those for all routes, and its own renderers before those for texts, JSON and bytes and
those for all routes, each in the order of the calls, wherever these stand.  A call that asks for
a route in vain fails for its pattern, and is as good as not made.  And calls that set the same for
all routes, and plan the same routes, build the same application. -/
theorem assembly_exact (options : MatchOptions) :
    (∀ calls, (assemble options calls).build.table.Holds
      ((plans options calls).map (·.finished (forAll calls)))) ∧
    (∀ calls method text handler e,
      (assemble options calls).addRoute method text handler = .error e →
        (∃ raw reason, e = .invalidPattern raw reason) ∧
        ∀ later, assemble options (calls ++ .route method text handler :: later) =
          assemble options (calls ++ withoutOwn later)) ∧
    ∀ calls calls', forAll calls = forAll calls' → plans options calls = plans options calls' →
      (assemble options calls).build = (assemble options calls').build := by
  refine ⟨?_, ?_, ?_⟩
  · intro calls
    rw [table_build_assemble]
    exact RouteTable.holds_ofRoutes _
  · intro calls method text handler e h
    obtain ⟨raw, fault, -, rfl⟩ := error_of_addRoute h
    exact ⟨⟨raw, fault.message, rfl⟩, assemble_of_error h⟩
  · intro calls calls' hall hplans
    rw [build_assemble, build_assemble, hall, hplans]

/-- A route that is asked for, and set to take JSON. -/
def jsonRoute : List Registration :=
  [.route .get "/" (.ret (.ok .done)), .own (.parser .json)]

/-- A route that is asked for in vain, and set all the same. -/
def namelessRoute : List Registration :=
  [.route .get "/:" (.ret (.ok .done)), .own (.parser .form)]

def timed : Registration := .all (.hook .timing)

def indented : Registration := .all (.renderer .indentedJson)

/-- What is set for all routes can come before, between and after the routes. -/
theorem assembly_exact_shuffled :
    let shuffled := timed :: jsonRoute ++ namelessRoute ++ [indented]
    let ordered := jsonRoute ++ [timed, indented]
    (assemble {} (timed :: jsonRoute)).addRoute .get "/:" (.ret (.ok .done)) =
        .error (.invalidPattern "/:" "empty variable name") ∧
      assemble {} shuffled = assemble {} (timed :: jsonRoute ++ [indented]) ∧
      forAll shuffled = forAll ordered ∧ plans {} shuffled = plans {} ordered ∧
      (assemble {} shuffled).build = (assemble {} ordered).build := by
  intro shuffled ordered
  obtain ⟨-, hvain, hbuild⟩ := assembly_exact {}
  have hnameless : (assemble {} (timed :: jsonRoute)).addRoute .get "/:" (.ret (.ok .done)) =
      .error (.invalidPattern "/:" (Pattern.Fault.message .emptyName)) := addRoute_eq_error rfl
  exact ⟨hnameless, (hvain _ _ _ _ _ hnameless).2 [.own (.parser .form), indented], rfl, rfl,
    hbuild shuffled ordered rfl rfl⟩

end Router

end HttpApp
