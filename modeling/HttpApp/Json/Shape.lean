/-
  HttpApp/Json/Shape.lean --- JSON values taken as values of a fixed shape.

  A shape is a function that either takes a JSON value or says what it found and
  what it expected instead.
-/
import HttpApp.Json.Printer
import HttpApp.Text.Quoted

set_option autoImplicit false

namespace HttpApp.Json

/-- Why a value does not have a shape. -/
inductive Mismatch where
  /-- the value is of another kind -/
  | kind (found : Json) (expected : String)
  /-- the value is of the right kind, but out of bounds -/
  | value (found : Json) (expected : String)
  /-- a list has the wrong number of items -/
  | length (found : Nat) (expected : String)
  /-- a record lacks a field -/
  | missing (field : String)
  /-- a record has a field twice -/
  | repeated (field : String)
  deriving Inhabited

/-- How a value is called when it is not what was expected. -/
def describe : Json → String
  | .null => "null"
  | .bool true => "boolean `true`"
  | .bool false => "boolean `false`"
  | .integer n => "integer `" ++ String.ofList (printInteger n) ++ "`"
  | .real x => "floating point `" ++ String.ofList (printReal x) ++ "`"
  | .text s => "string " ++ Text.quoted s
  | .list _ => "sequence"
  | .object _ => "map"

/-- The wording of a mismatch. -/
def Mismatch.message : Mismatch → String
  | .kind found expected => "invalid type: " ++ describe found ++ ", expected " ++ expected
  | .value found expected => "invalid value: " ++ describe found ++ ", expected " ++ expected
  | .length found expected => "invalid length " ++ toString found ++ ", expected " ++ expected
  | .missing field => "missing field `" ++ field ++ "`"
  | .repeated field => "duplicate field `" ++ field ++ "`"

/-- A shape: what it makes of a value, or why it makes nothing of it. -/
abbrev Shape (α : Type) : Type := Json → Except Mismatch α

namespace Shape

/-- Every value, as it is. -/
def any : Shape Json := .ok

def text : Shape String
  | .text s => .ok s
  | v => .error (.kind v "a string")

/-- A truth value. -/
def bool : Shape Bool
  | .bool b => .ok b
  | v => .error (.kind v "a boolean")

/-- A whole number of a range that goes by the given name. -/
def integer (range : IntegerRange) (name : String) : Shape Int
  | .integer n => if range.contains n then .ok n else .error (.value (.integer n) name)
  | v => .error (.kind v name)

/-- A list of values of one shape. -/
def list {α : Type} (item : Shape α) : Shape (List α)
  | .list vs => vs.mapM item
  | v => .error (.kind v "a sequence")

/-- An object whose values have one shape. -/
def map {α : Type} (value : Shape α) : Shape (List (String × α))
  | .object ms => ms.mapM fun m => (value m.2).map fun x => (m.1, x)
  | v => .error (.kind v "a map")

/-- A value that may be absent. -/
def option {α : Type} (value : Shape α) : Shape (Option α)
  | .null => .ok none
  | v => (value v).map some

/-- A record of two fields, as an object or as a list.  The members of an object are taken in
their order, and only then is a missing field noticed; members of other names are passed
over. -/
def record {α β : Type} (name : String) (first : String × Shape α) (second : String × Shape β) :
    Shape (α × β)
  | .object ms => do
    let (a, b) ← ms.foldlM
      (fun (found : Option α × Option β) m =>
        if m.1 = first.1 then do .ok (some (← first.2 m.2), found.2)
        else if m.1 = second.1 then do .ok (found.1, some (← second.2 m.2))
        else .ok found)
      (none, none)
    match a, b with
    | some a, some b => .ok (a, b)
    | none, _ => .error (.missing first.1)
    | some _, none => .error (.missing second.1)
  | .list vs =>
    let expected := "struct " ++ name ++ " with 2 elements"
    match vs with
    | [] => .error (.length 0 expected)
    | [v] => do
      let _ ← first.2 v
      .error (.length 1 expected)
    | v :: w :: rest => do
      let a ← first.2 v
      let b ← second.2 w
      if rest.isEmpty then .ok (a, b)
      else .error (.length vs.length "fewer elements in array")
  | v => .error (.kind v ("struct " ++ name))

end Shape

end HttpApp.Json
