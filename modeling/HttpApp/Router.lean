/-
  HttpApp/Router.lean --- assembling applications.

  Routes, hooks, codecs and executors are registered one by one, and then an
  application is built.  What is registered for all routes goes to every route, in
  whatever order it was registered: hooks for all routes run before those of a
  route, and the codecs of a route are tried before those for all routes.
-/
import HttpApp.App

set_option autoImplicit false

namespace HttpApp

namespace Route

/-- With one hook more. -/
def withHook (r : Route) (h : Hook) : Route := { r with hooks := r.hooks ++ [h] }

/-- With one parser more. -/
def withParser (r : Route) (p : Parser) : Route := { r with parsers := r.parsers ++ [p] }

/-- With one renderer more. -/
def withRenderer (r : Route) (x : Renderer) : Route := { r with renderers := r.renderers ++ [x] }

/-- With its own error handler. -/
def withErrorHandler (r : Route) (h : ErrorHandler) : Route := { r with errorHandler := some h }

/-- With what is registered for all routes. -/
def inherit (r : Route) (hooks : List Hook) (parsers : List Parser) (renderers : List Renderer) :
    Route :=
  { r with
    hooks := hooks ++ r.hooks
    parsers := r.parsers ++ parsers
    renderers := r.renderers ++ renderers }

end Route

/-- What is registered for an application. -/
structure Router where
  options : MatchOptions := {}
  /-- routes in the order of their registration, with what is registered for them alone -/
  routes : List Route := []
  hooks : List Hook := []
  parsers : List Parser := [.text]
  renderers : List Renderer := [.text, .json, .bytes]
  errorHandler : ErrorHandler := errorPage
  classify : Failure → Status := Failure.statusCode
  workers : Workers := {}
  /-- what was reported so far -/
  record : List Event := []
  deriving Inhabited

namespace Router

/-- The fields that tell a route apart. -/
def routeFields (r : Route) : List (String × EventValue) :=
  [Event.textField "method" r.method.name, Event.textField "pattern" r.pattern.raw]

/-- The event of a registration. -/
def registeredEvent (route : Route) : Event := ⟨.debug, "Route registered", routeFields route⟩

def pattern (r : Router) (text : String) : Except Error Pattern :=
  (Pattern.read text r.options).mapError fun e => .invalidPattern e.1 e.2.message

/-- Registers a route. -/
def addRoute (r : Router) (method : Method) (text : String) (handler : Handler) :
    Except Error Router := do
  let pattern ← r.pattern text
  let route : Route := { method, pattern, handler }
  .ok { r with routes := r.routes ++ [route], record := r.record ++ [registeredEvent route] }

/-- Registers something for the route that was registered last. -/
def withLast (r : Router) (f : Route → Route) : Router :=
  match r.routes.getLast? with
  | some last => { r with routes := r.routes.dropLast ++ [f last] }
  | none => r

/-- Registers a hook for all routes. -/
def addHook (r : Router) (h : Hook) : Router := { r with hooks := r.hooks ++ [h] }

/-- Registers a parser for all routes. -/
def addParser (r : Router) (p : Parser) : Router := { r with parsers := r.parsers ++ [p] }

/-- Registers a renderer for all routes. -/
def addRenderer (r : Router) (x : Renderer) : Router := { r with renderers := r.renderers ++ [x] }

/-- Sets the error handler of all routes that have none of their own. -/
def setErrorHandler (r : Router) (h : ErrorHandler) : Router := { r with errorHandler := h }

def setClassifier (r : Router) (f : Failure → Status) : Router := { r with classify := f }

/-- With other executors, and the events of the change. -/
def withWorkers (r : Router) (change : Workers × List Event) : Router :=
  { r with workers := change.1, record := r.record ++ change.2 }

def setWorker (r : Router) (x : Executor) : Router := r.withWorkers (r.workers.setDefault x)

/-- Registers an executor by name. -/
def addExecutor (r : Router) (name : String) (x : Executor) : Router :=
  r.withWorkers (r.workers.insert name x)

/-- The number of routes. -/
def size (r : Router) : Nat := r.routes.length

/-- The application. -/
def build (r : Router) : App where
  table := .ofRoutes (r.routes.map fun route => route.inherit r.hooks r.parsers r.renderers)
  parsers := r.parsers
  renderers := r.renderers
  errorHandler := r.errorHandler
  classify := r.classify
  workers := r.workers

/-- The events of the assembly: what was reported on the way, and every route that another one
shadows. -/
def events (r : Router) : List Event :=
  r.record ++ (RouteTable.repeated [] r.routes).map fun route =>
    ⟨.warn, "Duplicate route; the first registration wins", routeFields route⟩

end Router

end HttpApp
