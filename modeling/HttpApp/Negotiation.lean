/-
  HttpApp/Negotiation.lean --- choosing parsers and renderers.

  The content type of a request chooses its parser, what the client accepts the
  renderer of the answer.  A client that accepts none of the renderers that can
  show a model gets the model all the same.
-/
import HttpApp.Codec
import HttpApp.Media.Range

set_option autoImplicit false

namespace HttpApp.Negotiation

/-- The media type that a text stands for. -/
def mediaType (raw : String) : Except Error MediaType :=
  match MediaType.read? raw with
  | some m => .ok m
  | none => .error (.unsupportedMediaType raw)

/-- The first parser of a media type, parameters aside. -/
def find? (parsers : List Parser) (type : MediaType) : Option Parser :=
  parsers.find? fun p => p.mediaType.sameEssence type

/-- The parser for a content type; without one the body is a text. -/
def parserFor (parsers : List Parser) (contentType : Option String) : Except Error Parser :=
  match contentType with
  | none => .ok ((find? parsers .text).getD .text)
  | some raw => do
    match find? parsers (← mediaType raw) with
    | some p => .ok p
    | none => .error (.unsupportedMediaType raw)

/-- A model as bytes of a media type. -/
structure Rendered where
  mediaType : MediaType
  body : Bytes
  deriving DecidableEq, Repr, Inhabited

/-- What the first renderer makes of a model that does not decline it. -/
def firstRendered (model : Model) : List Renderer → Except Error (Option Rendered)
  | [] => .ok none
  | r :: rs =>
    match r.render model with
    | .error e => .error e
    | .ok (some body) => .ok (some ⟨r.mediaType, body⟩)
    | .ok none => firstRendered model rs

/-- What stands for the route where there is none. -/
def noRoute : String := "<none>"

/-- Renders a model: the renderers that the client accepts come first, then all of them. -/
def render (renderers : List Renderer) (model : Model) (accept : Option String) :
    Except Error Rendered := do
  match ← firstRendered model (renderers.filter fun r => r.mediaType.acceptedBy accept) with
  | some rendered => .ok rendered
  | none =>
    match ← firstRendered model renderers with
    | some rendered => .ok rendered
    | none => .error (.missingRenderer noRoute)

end HttpApp.Negotiation
