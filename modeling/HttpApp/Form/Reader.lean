/-
  HttpApp/Form/Reader.lean --- reading the form of a body by its media type.
-/
import HttpApp.Form.Multipart

set_option autoImplicit false

namespace HttpApp.Form

/-- The form of a body: a simple form or a form with files, by the media type; a body of any
other type has an empty form. -/
def read (type : Option MediaType) (body : Bytes) : Except Error Form :=
  match type with
  | none => .ok {}
  | some m =>
    if m.sameEssence .form then .ok { fields := Urlencoded.pairs body }
    else if m.sameEssence .multipart then
      match m.param? "boundary" with
      | none => .error (.malformedBody m.essence Multipart.Fault.noBoundary.message)
      | some boundary =>
        (Multipart.read boundary body).mapError fun fault => .malformedBody m.essence fault.message
    else .ok {}

end HttpApp.Form
