/-
  HttpApp/Media/Type.lean --- media types.

  A media type is kept as the text that shows it, in lower case where case does
  not matter, beside its parts.
-/
import HttpApp.Text.Lowercase

set_option autoImplicit false

namespace HttpApp

/-- A media type or media range. -/
structure MediaType where
  /-- the text that shows it -/
  shown : String
  /-- the top-level type -/
  type : String
  /-- all that follows the type up to the parameters -/
  fullSubtype : String
  /-- names in lower case and values without quotes, in order -/
  params : List (String × String)
  deriving DecidableEq, Repr, Inhabited

namespace MediaType

/-- A type without parameters. -/
def plain (type subtype : String) : MediaType := ⟨type ++ "/" ++ subtype, type, subtype, []⟩

def utf8Text (subtype : String) : MediaType :=
  ⟨"text/" ++ subtype ++ "; charset=utf-8", "text", subtype, [("charset", "utf-8")]⟩

def text : MediaType := utf8Text "plain"
def html : MediaType := utf8Text "html"
def json : MediaType := plain "application" "json"
/-- Simple forms. -/
def form : MediaType := plain "application" "x-www-form-urlencoded"
/-- Forms with files. -/
def multipart : MediaType := plain "multipart" "form-data"
/-- Any bytes. -/
def octetStream : MediaType := plain "application" "octet-stream"
/-- The range of all types. -/
def everything : MediaType := plain "*" "*"

/-- Type and subtype without parameters. -/
def essence (m : MediaType) : String := m.type ++ "/" ++ m.fullSubtype

/-- The subtype cut at its last plus sign that is not its first character. -/
def subtypeParts (m : MediaType) : List Char × Option (List Char) :=
  let rec split (before : List Char) : List Char → List Char × Option (List Char)
    | [] => ([], none)
    | c :: cs =>
      match split (c :: before) cs with
      | (base, some suffix) => (c :: base, some suffix)
      | (base, none) =>
        if c = '+' ∧ before ≠ [] then ([], some cs) else (c :: base, none)
  split [] m.fullSubtype.toList

/-- The subtype without its suffix. -/
def subtype (m : MediaType) : String := String.ofList m.subtypeParts.1

/-- The suffix, what stands behind the last plus sign. -/
def suffix? (m : MediaType) : Option String := m.subtypeParts.2.map String.ofList

/-- The first parameter of a name, whose case does not matter. -/
def param? (m : MediaType) (name : String) : Option String :=
  (m.params.find? fun p => Text.equalIgnoringAsciiCase p.1 name).map (·.2)

/-- Same type and subtype, parameters aside. -/
def sameEssence (m n : MediaType) : Bool := Text.equalIgnoringAsciiCase m.essence n.essence

end MediaType

end HttpApp
