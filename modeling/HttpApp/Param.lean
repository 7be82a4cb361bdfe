/-
  HttpApp/Param.lean --- named values of a request and their conversions.

  A path variable, a query parameter, a header or a form field has a name and the
  texts that the request gives for it.  Conversions look at the first text alone,
  without the blanks around it; an error quotes it with them.
-/
import HttpApp.Error
import HttpApp.Text.Blank
import HttpApp.Text.Lowercase

set_option autoImplicit false

namespace HttpApp

/-- A named value of a request. -/
structure Param where
  name : String
  /-- all occurrences in order -/
  values : List String
  deriving DecidableEq, Repr, Inhabited

namespace Param

/-- A value that is not in the request. -/
def missing (name : String) : Param := ⟨name, []⟩

/-- A value that occurs at most once. -/
def ofOption (name : String) (value : Option String) : Param := ⟨name, value.toList⟩

/-- Whether the request has no such value. -/
def isMissing (p : Param) : Bool := p.values.isEmpty

/-- The first occurrence. -/
def text (p : Param) : Except Error String :=
  match p.values with
  | v :: _ => .ok v
  | [] => .error (.missingValue p.name)

/-- The first occurrence, or `default` if there is none. -/
def textOr (p : Param) (default : String) : String := p.values.headD default

/-- All occurrences in one line. -/
def line (p : Param) : String := ",".intercalate p.values

/-- What a reader makes of the first occurrence without the blanks around it. -/
def read {α : Type} (p : Param) (expected : String) (reader : List Char → Option α) : Except Error α := do
  let v ← p.text
  match reader (Text.trimBlanks v.toList) with
  | some a => .ok a
  | none => .error (.invalidValue p.name v expected)

/-- What a reader makes of the value, if there is one. -/
def readOptional {α : Type} (p : Param) (expected : String) (reader : List Char → Option α) :
    Except Error (Option α) :=
  if p.isMissing then .ok none else (p.read expected reader).map some

/-- A whole number of a range. -/
def readInteger (range : IntegerRange) (cs : List Char) : Option Int := (range.read cs).toOption

/-- A binary number of 64 bits. -/
def readReal (cs : List Char) : Option Binary64 := (Decimal.read? cs).map Binary64.ofDecimal

/-- The words for true and false, in any case. -/
def readBool (cs : List Char) : Option Bool :=
  let word := String.ofList (cs.map Char.toLower)
  if word ∈ ["true", "1", "yes", "on"] then some true
  else if word ∈ ["false", "0", "no", "off"] then some false
  else none

/-- A single character. -/
def readChar : List Char → Option Char
  | [c] => some c
  | _ => none

def readText (cs : List Char) : Option String := some (String.ofList cs)

/-- The value as a whole number of a range. -/
def integer (p : Param) (range : IntegerRange) (expected : String) : Except Error Int :=
  p.read expected (readInteger range)

/-- The value as a whole number of 64 bits. -/
def int64 (p : Param) : Except Error Int := p.integer .int64 "an integer"

/-- The value as a binary number of 64 bits. -/
def real (p : Param) : Except Error Binary64 := p.read "a number" readReal

/-- The value as a truth value. -/
def bool (p : Param) : Except Error Bool := p.read "a boolean" readBool

end Param

end HttpApp
