/-
  HttpApp/Context.lean --- the state of a request while it is answered.

  A context holds the request, what the matched route gives it, the answer as far
  as it is staged, and whether an answer was sent.  The functions here read the
  request side; what changes the answer stands in `HttpApp.Session`.
-/
import HttpApp.Attributes
import HttpApp.Form.Reader
import HttpApp.Negotiation
import HttpApp.Pattern.Match
import HttpApp.Request

set_option autoImplicit false

namespace HttpApp

/-- What a context knows of its route. -/
structure Endpoint where
  method : Method
  pattern : Pattern
  /-- parsers in the order in which they are tried -/
  parsers : List Parser := []
  /-- renderers in the order in which they are tried -/
  renderers : List Renderer := []
  deriving Inhabited

/-- The state of a request. -/
structure Context where
  request : Request
  /-- the matched route, if one matched -/
  endpoint : Option Endpoint := none
  /-- the parsers of the application -/
  parsers : List Parser := []
  /-- the renderers of the application -/
  renderers : List Renderer := []
  /-- what the path binds -/
  captures : Pattern.Captures := []
  /-- the staged status -/
  status : Status := .ok
  /-- the staged headers -/
  headers : Headers := {}
  /-- the content type that was set for the next answer -/
  contentType : Option MediaType := none
  /-- the content type of texts for which none was set -/
  defaultContentType : MediaType := .text
  /-- whether an answer was sent -/
  started : Bool := false
  /-- whether the sending end of the completion channel is still there -/
  hasSender : Bool := true
  /-- whether this runs where the request was accepted -/
  inIoThread : Bool := true
  attributes : Attributes := {}
  deriving Inhabited

namespace Context

/-- The parsers that apply: those of the route, or else those of the application. -/
def activeParsers (c : Context) : List Parser :=
  match c.endpoint with
  | some e => e.parsers
  | none => c.parsers

/-- The renderers that apply: those of the route, or else those of the application. -/
def activeRenderers (c : Context) : List Renderer :=
  match c.endpoint with
  | some e => e.renderers
  | none => c.renderers

/-! ## Values of the request -/

/-- What the path binds to a name. -/
def path (c : Context) (name : String) : Param := .ofOption name (c.captures.lookup name)

/-- A query parameter with all its values. -/
def query (c : Context) (name : String) : Param :=
  ⟨name, Urlencoded.valuesOf name c.request.queryPairs⟩

/-- The query parameters by name. -/
def queryMap (c : Context) : List (String × List String) := Urlencoded.grouped c.request.queryPairs

/-- A header with all its readable values. -/
def header (c : Context) (name : String) : Param :=
  ⟨name, (c.request.headers.getAll name).filterMap HeaderValue.text?⟩

/-- Whether the client accepts a media type. -/
def accepts (c : Context) (m : MediaType) : Bool := m.acceptedBy (c.request.header "accept")

/-- The media type of the body, if the request names one that can be read. -/
def bodyType (c : Context) : Option MediaType :=
  (c.request.header "content-type").bind MediaType.read?

/-- The declared length of the body. -/
def contentLength (c : Context) : Option Int :=
  (c.request.header "content-length").bind fun v =>
    (IntegerRange.word64.read (Text.trimBlanks v.toList)).toOption

/-! ## The body -/

def form (c : Context) : Except Error Form := Form.read c.bodyType c.request.body

/-- A field of the body. -/
def field (c : Context) (name : String) : Except Error Param := c.form.map fun f => f.field name

/-- The fields of the body as the members of a JSON object. -/
def formMap (c : Context) : Except Error (List (String × Json)) := c.form.map Form.toMembers

/-- The first file of a field of the body. -/
def file (c : Context) (name : String) : Except Error File := do
  match (← c.form).file? name with
  | some f => .ok f
  | none => .error (.missingValue name)

def bodyText (c : Context) : Except Error String :=
  (Utf8.decode c.request.body).mapError fun fault =>
    .malformedBody MediaType.text.essence fault.message

/-- The body as a value, by the parser for its content type. -/
def bodyValue (c : Context) : Except Error Json := do
  let p ← Negotiation.parserFor c.activeParsers (c.request.header "content-type")
  p.parse c.request.body

/-- The body as a value of a shape. -/
def body {α : Type} (c : Context) (shape : Json.Shape α) : Except Error α := do
  (shape (← c.bodyValue)).mapError fun m => .json (.mismatch m)

def parser (c : Context) (m : MediaType) : Except Error Parser :=
  match Negotiation.find? c.activeParsers m with
  | some p => .ok p
  | none => .error (.unsupportedMediaType m.shown)

/-! ## The answer -/

/-- A model as bytes, by the renderers that apply. -/
def rendered (c : Context) (model : Model) : Except Error Negotiation.Rendered :=
  match Negotiation.render c.activeRenderers model (c.request.header "accept"), c.endpoint with
  | .error (.missingRenderer _), some e => .error (.missingRenderer e.pattern.raw)
  | result, _ => result

def stagedHeader (c : Context) (name : String) : Option String := c.headers.text? name

/-- A context where records are shown. -/
def shown (c : Context) : String :=
  Text.shownRecord "Context"
    [("method", c.request.method.shown), ("path", Text.quoted c.request.path),
      ("route", Text.shownOption (c.endpoint.map fun e => Text.quoted e.pattern.raw)),
      ("status", toString c.status.code), ("started", toString c.started)] true

end Context

end HttpApp
