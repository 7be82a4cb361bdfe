/-
  HttpApp/Route.lean --- routes and the table of routes.

  A table keeps the routes of each method from closed to open patterns, and those
  whose patterns leave equally much open in the order in which they were registered.
  Looking up a path takes the first route of the method that matches; if none does,
  the methods of the routes that match are given instead.
-/
import HttpApp.Script

set_option autoImplicit false

namespace HttpApp

structure Route extends Endpoint where
  handler : Handler
  /-- hooks in the order in which they run before the handler -/
  hooks : List Hook := []
  /-- who answers errors in place of the error handler of the application -/
  errorHandler : Option ErrorHandler := none

instance : Inhabited Route := ⟨{ toEndpoint := default, handler := .ret (.ok .done) }⟩

namespace Route

/-- A route where records are shown. -/
def shown (r : Route) : String :=
  Text.shownRecord "Route"
    [("method", r.method.shown), ("pattern", Text.quoted r.pattern.raw),
      ("middleware", toString r.hooks.length), ("parsers", toString r.parsers.length),
      ("renderers", toString r.renderers.length),
      ("error_handler", toString r.errorHandler.isSome)] true

/-- Whether a route matches a path. -/
def accepts (r : Route) (path : String) : Bool := r.pattern.accepts path

/-- What a route is told apart by when it is registered. -/
def key (r : Route) : Method × String := (r.method, r.pattern.raw)

end Route

structure RouteTable where
  /-- each method that has routes, with them in the order in which they are tried; the order of
  the methods means nothing -/
  groups : List (Method × List Route) := []
  deriving Inhabited

/-- What looking up a path finds. -/
inductive Lookup where
  /-- a route, and what the path binds -/
  | matched (route : Route) (captures : Pattern.Captures)
  /-- no route of any method -/
  | notFound
  /-- only routes of these other methods -/
  | methodNotAllowed (allowed : List Method)

namespace RouteTable

/-! ## Sealing -/

/-- Adds a route behind the others of its method. -/
def push (r : Route) : List (Method × List Route) → List (Method × List Route)
  | [] => [(r.method, [r])]
  | (m, rs) :: gs => if r.method = m then (m, rs ++ [r]) :: gs else (m, rs) :: push r gs

/-- Each method that has routes, with them in the order of their registration. -/
def grouped (routes : List Route) : List (Method × List Route) :=
  routes.foldl (fun gs r => push r gs) []

/-- Whether a route leaves no more open than another. -/
def closedFirst (r r' : Route) : Bool :=
  r.pattern.specificity.rank ≤ r'.pattern.specificity.rank

/-- Routes in the order in which they are tried: those that leave equally much open keep their
order. -/
def arranged (routes : List Route) : List Route := routes.mergeSort closedFirst

/-- The table of routes in the order of their registration. -/
def ofRoutes (routes : List Route) : RouteTable :=
  ⟨(grouped routes).map fun g => (g.1, arranged g.2)⟩

/-! ## Looking up -/

/-- The routes of a method in the order in which they are tried. -/
def ofMethod (t : RouteTable) (m : Method) : List Route := (t.groups.lookup m).getD []

/-- The first route that matches a path, and what the path binds. -/
def firstMatch? (path : String) : List Route → Option (Route × Pattern.Captures)
  | [] => none
  | r :: rs =>
    match r.pattern.match? path with
    | some captures => some (r, captures)
    | none => firstMatch? path rs

/-- The methods whose routes match a path, in canonical order. -/
def allowedMethods (t : RouteTable) (path : String) : List Method :=
  ((t.groups.filter fun g => g.2.any fun r => r.accepts path).map (·.1)).mergeSort
    fun m n => m.rank ≤ n.rank

/-- Looks a path up. -/
def lookup (t : RouteTable) (m : Method) (path : String) : Lookup :=
  match firstMatch? path (t.ofMethod m) with
  | some (route, captures) => .matched route captures
  | none =>
    match (t.allowedMethods path).filter (· ≠ m) with
    | [] => .notFound
    | allowed => .methodNotAllowed allowed

/-! ## Showing -/

/-- The number of routes. -/
def size (t : RouteTable) : Nat := t.groups.foldl (fun n g => n + g.2.length) 0

/-- The routes by method in canonical order, each method with its routes. -/
def byMethod (t : RouteTable) : List (Method × List Route) :=
  t.groups.mergeSort fun g g' => g.1.rank ≤ g'.1.rank

/-- A table where records are shown. -/
def shown (t : RouteTable) : String :=
  Text.shownList (t.byMethod.flatMap fun g => g.2.map Route.shown)

/-- The routes that a route registered before them shadows. -/
def repeated : List (Method × String) → List Route → List Route
  | _, [] => []
  | seen, r :: rs => (if r.key ∈ seen then [r] else []) ++ repeated (r.key :: seen) rs

end RouteTable

end HttpApp
