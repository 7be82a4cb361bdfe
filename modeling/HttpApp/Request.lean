/-
  HttpApp/Request.lean --- requests.

  A request has been received as a whole: its target is cut at the first question
  mark into a raw path and a query, and its body is complete.
-/
import HttpApp.Headers
import HttpApp.Method
import HttpApp.Net.Address
import HttpApp.Urlencoded

set_option autoImplicit false

namespace HttpApp

structure Request where
  method : Method
  /-- the raw path -/
  path : String
  /-- the raw query, if the target has a question mark -/
  query : Option String := none
  headers : Headers := {}
  body : Bytes := []
  /-- the address of the client, where it is known -/
  remote : Option Address := none
  deriving DecidableEq, Repr, Inhabited

namespace Request

/-- A request for a target, without headers and body. -/
def ofTarget (method : Method) (target : String) : Request :=
  match Text.cutAt? '?' target.toList with
  | some (path, query) => { method, path := String.ofList path, query := some (String.ofList query) }
  | none => { method, path := target }

/-- With one header more; a bad name or value changes nothing. -/
def withHeader (r : Request) (name value : String) : Request :=
  { r with headers := r.headers.appendText name value }

/-- The names and values of the query, in order. -/
def queryPairs (r : Request) : List (String × String) :=
  match r.query with
  | some q => Urlencoded.pairs (Bytes.ofText q)
  | none => []

/-- The first value of a header, if it is readable. -/
def header (r : Request) (name : String) : Option String := r.headers.text? name

end Request

end HttpApp
