/-
  HttpApp/Codec.lean --- parsers of request bodies and renderers of models.

  A parser turns the bytes of a body into a JSON value, a renderer a model into
  bytes; each has one media type.  A renderer may decline a model, which is no
  error.
-/
import HttpApp.Form.Basic
import HttpApp.Json.Reader
import HttpApp.Media.Type

set_option autoImplicit false

namespace HttpApp

/-! ## Models -/

/-- What a handler wants to be shown. -/
inductive Model where
  | text (s : String)
  | binary (b : Bytes)
  /-- data that a renderer lays out -/
  | structured (v : Json)
  deriving Inhabited

mutual

/-- A JSON value where records are shown. -/
def Json.shown : Json → String
  | .null => "Null"
  | .bool b => "Bool(" ++ toString b ++ ")"
  | .integer n => "Number(" ++ String.ofList (printInteger n) ++ ")"
  | .real x => "Number(" ++ String.ofList (printReal x) ++ ")"
  | .text s => "String(" ++ Text.quoted s ++ ")"
  | .list items => "Array " ++ Text.shownList (shownItems items)
  | .object members => "Object " ++ Text.shownMap (shownMembers members)

def Json.shownItems : List Json → List String
  | [] => []
  | v :: vs => v.shown :: shownItems vs

/-- The members of an object, each shown. -/
def Json.shownMembers : List (String × Json) → List (String × String)
  | [] => []
  | (name, v) :: ms => (Text.quoted name, v.shown) :: shownMembers ms

end

/-- A model where records are shown. -/
def Model.shown : Model → String
  | .text s => "Text(" ++ Text.quoted s ++ ")"
  | .binary b => "Binary(" ++ Text.quotedBytes b ++ ")"
  | .structured v => "Structured(" ++ v.shown ++ ")"

/-! ## Parsers -/

/-- A parser of bodies of one media type. -/
structure Parser where
  mediaType : MediaType
  parse : Bytes → Except Error Json

namespace Parser

/-- Takes a body as a text. -/
def text : Parser where
  mediaType := .text
  parse body := match Utf8.decode body with
    | .ok s => .ok (.text s)
    | .error fault => .error (.malformedBody MediaType.text.essence fault.message)

/-- Takes a body as JSON. -/
def json : Parser where
  mediaType := .json
  parse body := match Json.read body with
    | .ok v => .ok v
    | .error fault => .error (.malformedBody MediaType.json.essence fault.message)

/-- Takes a body as a simple form; a name that repeats has a list. -/
def form : Parser where
  mediaType := .form
  parse body := .ok (.object (Form.members (Urlencoded.pairs body)))

instance : Inhabited Parser := ⟨text⟩

end Parser

/-! ## Renderers -/

/-- A renderer into one media type; it declines a model by rendering nothing. -/
structure Renderer where
  mediaType : MediaType
  render : Model → Except Error (Option Bytes)

namespace Renderer

/-- Shows texts. -/
def text : Renderer where
  mediaType := .text
  render
    | .text s => .ok (some (Bytes.ofText s))
    | _ => .ok none

/-- Lays out structured models by a printer. -/
def ofPrinter (print : Json → String) : Renderer where
  mediaType := .json
  render
    | .structured v => .ok (some (Bytes.ofText (print v)))
    | _ => .ok none

/-- Shows structured models as compact JSON. -/
def json : Renderer := ofPrinter Json.compact

/-- Shows structured models as indented JSON. -/
def indentedJson : Renderer := ofPrinter Json.indented

/-- Passes bytes on. -/
def bytes : Renderer where
  mediaType := .octetStream
  render
    | .binary b => .ok (some b)
    | _ => .ok none

instance : Inhabited Renderer := ⟨text⟩

end Renderer

end HttpApp
