/-
  HttpApp/Pattern/Options.lean --- reading match options from JSON.

  Options are an object, whose unknown members do not count, or a list of the
  values in order; what is left out has its default.
-/
import HttpApp.Json.Reader
import HttpApp.Json.Shape
import HttpApp.Pattern.Basic

set_option autoImplicit false

namespace HttpApp.MatchOptions

def caseName : String := "caseSensitive"

/-- The name of the option for slashes at the end. -/
def slashName : String := "ignoreTrailingSlash"

/-- Adds the value of an option that was not given before. -/
def give (name : String) (v : Json) : Option Bool → Except Json.Mismatch (Option Bool)
  | some _ => .error (.repeated name)
  | none => (Json.Shape.bool v).map some

/-- The values that the members of an object give to the two options. -/
def readMembers : Option Bool × Option Bool → List (String × Json) →
    Except Json.Mismatch (Option Bool × Option Bool)
  | found, [] => .ok found
  | (c, s), (name, v) :: ms => do
    if name = caseName then readMembers (← give name v c, s) ms
    else if name = slashName then readMembers (c, ← give name v s) ms
    else readMembers (c, s) ms

/-- Options of which those that are not given have their defaults. -/
def ofGiven (caseSensitive ignoreTrailingSlash : Option Bool) : MatchOptions where
  caseSensitive := caseSensitive.getD true
  ignoreTrailingSlash := ignoreTrailingSlash.getD true

/-- Options as a JSON value. -/
def shape : Json.Shape MatchOptions
  | .object ms => do
    let (c, s) ← readMembers (none, none) ms
    .ok (ofGiven c s)
  | .list [] => .ok {}
  | .list [c] => do .ok (ofGiven (some (← Json.Shape.bool c)) none)
  | .list [c, s] => do .ok (ofGiven (some (← Json.Shape.bool c)) (some (← Json.Shape.bool s)))
  | .list vs => .error (.length vs.length "fewer elements in array")
  | v => .error (.kind v "struct RouterOptions")

/-- Reads options from a JSON text. -/
def read? (text : String) : Option MatchOptions := do
  let v ← (Json.readTree text.toList).toOption
  (shape v).toOption

end HttpApp.MatchOptions
