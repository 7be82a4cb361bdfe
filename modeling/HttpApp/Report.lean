/-
  HttpApp/Report.lean --- values as JSON, for reports and event logs.

  Bytes are shown as a text where they are one, and else by their digits.  Header
  fields are sorted by name.
-/
import HttpApp.Context
import HttpApp.Event
import HttpApp.Failure
import HttpApp.Response

set_option autoImplicit false

namespace HttpApp

def Json.ofTexts (ss : List String) : Json := .list (ss.map .text)

/-- A number that is not negative. -/
def Json.ofNat (n : Nat) : Json := .integer n

/-- A value, or null. -/
def Json.ofOption {α : Type} (f : α → Json) : Option α → Json
  | some a => f a
  | none => .null

/-- Bytes by their digits. -/
def Bytes.digitsToJson (b : Bytes) : Json := .object [("hex", .text b.hex)]

/-- Bytes as a text where they are one, and else by their digits. -/
def Bytes.toJson (b : Bytes) : Json :=
  match Utf8.decode? b with
  | some s => .text s
  | none => digitsToJson b

/-- A header value as a text where it is visible, and else by its digits. -/
def HeaderValue.toJson (v : HeaderValue) : Json :=
  match HeaderValue.text? v with
  | some s => .text s
  | none => Bytes.digitsToJson v

/-- Header fields as pairs, sorted by name. -/
def Headers.toJson (h : Headers) : Json :=
  .list (h.sorted.map fun f => .list [.text f.1, HeaderValue.toJson f.2])

def Response.toJson (r : Response) : Json :=
  .object [("body", r.body.toJson), ("headers", r.headers.toJson), ("status", .ofNat r.status.code)]

/-- An error by its kind, its wording and its status. -/
def Error.report (kind message : String) (status : Status) : Json :=
  .object [("error", .text kind), ("message", .text message), ("status", .ofNat status.code)]

/-- An error of the framework. -/
def Error.toJson (e : Error) : Json := Error.report e.name e.message e.status

/-- A failure; one that is about an error of the framework as that error. -/
def Failure.toJson (f : Failure) : Json :=
  match f.error? with
  | some e => e.toJson
  | none => Error.report (if f.isFatal then "Fatal" else "Recoverable") f.message f.statusCode

/-- A named value. -/
def Param.toJson (p : Param) : Json :=
  .object [("name", .text p.name), ("values", .ofTexts p.values)]

/-- A file of a form. -/
def File.toJson (f : File) : Json :=
  .object [("bytes", f.bytes.toJson), ("content_type", .text f.contentType),
    ("empty", .bool f.bytes.isEmpty), ("filename", .text f.filename),
    ("len", .ofNat f.bytes.length), ("name", .text f.name)]

/-- The value of a field of an event. -/
def EventValue.toJson : EventValue → Json
  | .text s => .text s
  | .number n => .ofNat n

def Event.toJson (e : Event) : Json :=
  .object [("fields", .ofMembers (e.fields.map fun f => (f.1, f.2.toJson))),
    ("level", .text e.level.name), ("message", .text e.message)]

end HttpApp
