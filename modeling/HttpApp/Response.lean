/-
  HttpApp/Response.lean --- responses.
-/
import HttpApp.Headers
import HttpApp.Status
import HttpApp.Text.Utf8

set_option autoImplicit false

namespace HttpApp

structure Response where
  status : Status := .ok
  headers : Headers := {}
  body : Bytes := []
  deriving DecidableEq, Repr, Inhabited

namespace Response

/-- An empty response. -/
def ofStatus (status : Status) : Response := { status }

/-- Sets a header; a bad name or value changes nothing. -/
def withHeader (r : Response) (name value : String) : Response :=
  { r with headers := r.headers.insertText name value }

/-- A plain text. -/
def ofText (text : String) : Response :=
  { withHeader {} "content-type" "text/plain; charset=utf-8" with body := Bytes.ofText text }

/-- The bare response of a status: its reason as a plain text. -/
def bare (status : Status) : Response := { ofText status.reason with status }

/-- The first value of a header, if it is readable. -/
def header (r : Response) (name : String) : Option String := r.headers.text? name

def text? (r : Response) : Option String := Utf8.decode? r.body

/-- A response where records are shown. -/
def shown (r : Response) : String :=
  Text.shownRecord "Response"
    [("status", toString r.status.code), ("headers", r.headers.shown),
      ("body_len", toString r.body.length)] false

end Response

end HttpApp
