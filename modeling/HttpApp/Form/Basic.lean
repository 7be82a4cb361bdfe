/-
  HttpApp/Form/Basic.lean --- decoded forms.

  A form has text fields in order, whose names may repeat, and files in order.
-/
import HttpApp.Json.Basic
import HttpApp.Param
import HttpApp.Urlencoded

set_option autoImplicit false

namespace HttpApp

/-- A file of a form. -/
structure File where
  /-- the name of the field -/
  name : String
  /-- the name that the client gives to the file -/
  filename : String
  contentType : String
  bytes : Bytes
  deriving DecidableEq, Repr, Inhabited

/-- A decoded form. -/
structure Form where
  fields : List (String × String) := []
  files : List File := []
  deriving DecidableEq, Repr, Inhabited

namespace Form

/-- A field with all its values in order. -/
def field (f : Form) (name : String) : Param := ⟨name, Urlencoded.valuesOf name f.fields⟩

/-- The first file of a field. -/
def file? (f : Form) (name : String) : Option File := f.files.find? fun x => x.name == name

/-- The value of a member with one text more: a first text is the value itself, and a second one
makes a list of both. -/
def grown (present : Option Json) (text : String) : Json :=
  match present with
  | none => .text text
  | some (.list items) => .list (items ++ [.text text])
  | some first => .list [first, .text text]

/-- Adds a text to the member of its name. -/
def addMember (members : List (String × Json)) (p : String × String) : List (String × Json) :=
  Json.setMember p.1 (grown (Json.member? p.1 members) p.2) members

/-- The members that names and values in order make: a name that repeats has a list. -/
def members (ps : List (String × String)) : List (String × Json) := ps.foldl addMember []

/-- The fields as the members of a JSON object. -/
def toMembers (f : Form) : List (String × Json) := members f.fields

end Form

end HttpApp
