/-
  HttpApp/Error.lean --- what can go wrong in the framework itself.

  Every error has one wording and one status, which a client gets when nothing
  else handles it.
-/
import HttpApp.Json.Shape
import HttpApp.Method
import HttpApp.Status

set_option autoImplicit false

namespace HttpApp

/-- Why input or output fails. -/
inductive IoFault where
  /-- the other side is gone before it got its answer -/
  | connectionAborted
  /-- any other reason, in the words of the system -/
  | other (reason : String)
  deriving DecidableEq, Repr, Inhabited

/-- The wording of a failure of input or output. -/
def IoFault.message : IoFault → String
  | .connectionAborted => "connection closed before the response was completed"
  | .other reason => reason

/-- Why a value does not pass from or into JSON. -/
inductive JsonFault where
  /-- it does not have the expected shape -/
  | mismatch (m : Json.Mismatch)
  /-- it has members whose names are no texts -/
  | keyNotText
  deriving Inhabited

/-- The wording of a failure about JSON. -/
def JsonFault.message : JsonFault → String
  | .mismatch m => m.message
  | .keyNotText => "key must be a string"

/-- What can go wrong in the framework. -/
inductive Error where
  /-- the server cannot listen at an address -/
  | bind (address : String) (fault : IoFault)
  /-- a route pattern breaks the rules -/
  | invalidPattern (pattern reason : String)
  /-- no route of any method matches a path -/
  | routeNotFound (path : String)
  /-- only routes of other methods match a path -/
  | methodNotAllowed (method : Method) (path : String) (allowed : List Method)
  /-- a method is none of the supported ones -/
  | unsupportedMethod (name : String)
  /-- no parser is there for a content type -/
  | unsupportedMediaType (type : String)
  /-- no renderer of a route can show a model -/
  | missingRenderer (route : String)
  /-- a body is not what its content type says -/
  | malformedBody (type reason : String)
  /-- a required value is not in the request -/
  | missingValue (name : String)
  /-- a value of the request cannot be converted -/
  | invalidValue (name value expected : String)
  /-- the request has been answered before -/
  | responseStarted
  /-- no executor has a name -/
  | unknownExecutor (name : String)
  /-- a body has more bytes than the limit -/
  | payloadTooLarge (limit received : Nat)
  /-- the transfer of a request fails -/
  | http (reason : String)
  /-- a value does not pass from or into JSON -/
  | json (fault : JsonFault)
  /-- input or output fails -/
  | io (fault : IoFault)
  deriving Inhabited

namespace Error

/-- The name of the kind of an error. -/
def name : Error → String
  | .bind .. => "BindError"
  | .invalidPattern .. => "InvalidPattern"
  | .routeNotFound _ => "RouteNotFound"
  | .methodNotAllowed .. => "MethodNotAllowed"
  | .unsupportedMethod _ => "UnsupportedMethod"
  | .unsupportedMediaType _ => "UnsupportedMediaType"
  | .missingRenderer _ => "MissingRenderer"
  | .malformedBody .. => "MalformedBody"
  | .missingValue _ => "MissingValue"
  | .invalidValue .. => "InvalidValue"
  | .responseStarted => "ResponseStarted"
  | .unknownExecutor _ => "UnknownExecutor"
  | .payloadTooLarge .. => "PayloadTooLarge"
  | .http _ => "Http"
  | .json _ => "Json"
  | .io _ => "Io"

/-- The wording of an error. -/
def message : Error → String
  | .bind address fault => "Failed to bind server to " ++ address ++ ": " ++ fault.message
  | .invalidPattern pattern reason => "Invalid route pattern: " ++ pattern ++ ": " ++ reason
  | .routeNotFound path => "No route found for path: " ++ path
  | .methodNotAllowed method path _ => "Method " ++ method.name ++ " not allowed for path: " ++ path
  | .unsupportedMethod name => "Unsupported HTTP method: " ++ name
  | .unsupportedMediaType type => "Unsupported media type: " ++ type
  | .missingRenderer route => "No renderer can produce a response for route " ++ route
  | .malformedBody type reason => "Malformed " ++ type ++ " body: " ++ reason
  | .missingValue name => "Missing value: " ++ name
  | .invalidValue name value expected =>
    "Cannot convert " ++ name ++ "='" ++ value ++ "' to " ++ expected
  | .responseStarted => "Response already started"
  | .unknownExecutor name => "Unknown executor: " ++ name
  | .payloadTooLarge limit received =>
    "Payload too large: limit=" ++ toString limit ++ " bytes, received=" ++ toString received ++ " bytes"
  | .http reason => "HTTP error: " ++ reason
  | .json fault => "JSON error: " ++ fault.message
  | .io fault => "IO error: " ++ fault.message

/-- The wording of what lies behind an error, if something does. -/
def behind? : Error → Option String
  | .bind _ fault => some fault.message
  | .http reason => some reason
  | .json fault => some fault.message
  | .io fault => some fault.message
  | _ => none

/-- The status that a client gets for an error. -/
def status : Error → Status
  | .routeNotFound _ => .notFound
  | .methodNotAllowed .. => .methodNotAllowed
  | .unsupportedMethod _ => .notImplemented
  | .unsupportedMediaType _ => .unsupportedMediaType
  | .malformedBody .. | .missingValue _ | .invalidValue .. | .json _ => .badRequest
  | .payloadTooLarge .. => .payloadTooLarge
  | .bind .. | .invalidPattern .. | .missingRenderer _ | .responseStarted | .unknownExecutor _
  | .http _ | .io _ => .internalServerError

end Error

def Method.read (name : String) : Except Error Method :=
  match Method.ofName? name with
  | some m => .ok m
  | none => .error (.unsupportedMethod name)

end HttpApp
