/-
  HttpApp/Validation.lean --- findings about the fields of an input.

  A finding names a field, says what is wrong in words and puts it into one of
  five classes.  Findings are collected in order; a collection without findings
  lets a value pass.
-/
import HttpApp.Json.Basic

set_option autoImplicit false

namespace HttpApp

inductive FindingClass where
  /-- a field is missing -/
  | required
  /-- a value is of another type -/
  | invalidType
  /-- a value lies outside the accepted range -/
  | outOfRange
  /-- a value is not written as expected -/
  | invalidFormat
  /-- a rule of the application fails -/
  | custom
  deriving DecidableEq, Repr, Inhabited

namespace FindingClass

def all : List FindingClass := [.required, .invalidType, .outOfRange, .invalidFormat, .custom]

/-- The name of a class where records are shown. -/
def shown : FindingClass → String
  | .required => "Required"
  | .invalidType => "InvalidType"
  | .outOfRange => "OutOfRange"
  | .invalidFormat => "InvalidFormat"
  | .custom => "Custom"

/-- The name of a class in JSON. -/
def code : FindingClass → String
  | .required => "REQUIRED"
  | .invalidType => "INVALID_TYPE"
  | .outOfRange => "OUT_OF_RANGE"
  | .invalidFormat => "INVALID_FORMAT"
  | .custom => "CUSTOM"

end FindingClass

/-- What is wrong with one field. -/
structure Finding where
  field : String
  message : String
  kind : FindingClass
  deriving DecidableEq, Repr, Inhabited

namespace Finding

/-- A field is missing. -/
def required (field : String) : Finding := ⟨field, field ++ " is required", .required⟩

/-- A value is of another type than expected. -/
def invalidType (field expected : String) : Finding :=
  ⟨field, field ++ " must be " ++ expected, .invalidType⟩

/-- A value lies outside the range from `least` to `greatest`. -/
def outOfRange (field : String) (least greatest : Int) : Finding :=
  ⟨field, field ++ " must be between " ++ toString least ++ " and " ++ toString greatest, .outOfRange⟩

def toJson (f : Finding) : Json :=
  .object [("code", .text f.kind.code), ("field", .text f.field), ("message", .text f.message)]

end Finding

/-- Findings in order. -/
structure Validation where
  findings : List Finding := []
  deriving DecidableEq, Repr, Inhabited

namespace Validation

/-- Whether there is nothing wrong. -/
def isEmpty (v : Validation) : Bool := v.findings.isEmpty

/-- The number of findings. -/
def size (v : Validation) : Nat := v.findings.length

/-- A value if nothing is wrong, the findings otherwise. -/
def pass {α : Type} (v : Validation) (value : α) : Except Validation α :=
  if v.isEmpty then .ok value else .error v

/-- The fields that have findings, each with its findings in order. -/
def byField (v : Validation) : List (String × List Finding) :=
  (v.findings.map (·.field)).eraseDups.map fun field =>
    (field, v.findings.filter fun f => f.field == field)

/-- The findings in JSON, under `errors`. -/
def toJson (v : Validation) : Json := .object [("errors", .list (v.findings.map Finding.toJson))]

/-- All findings in one line. -/
def message (v : Validation) : String :=
  "validation failed" ++
    match v.findings with
    | [] => ""
    | fs => ": " ++ "; ".intercalate (fs.map (·.message))

theorem pass_eq_ok_iff {α : Type} {v : Validation} {a b : α} :
    v.pass a = .ok b ↔ v.findings = [] ∧ a = b := by
  unfold pass isEmpty
  cases v.findings <;> simp

end Validation

end HttpApp
