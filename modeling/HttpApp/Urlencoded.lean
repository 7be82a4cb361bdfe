/-
  HttpApp/Urlencoded.lean --- lists of names and values in one line.

  Query strings and simple forms: pairs are separated by `&`, a name from its
  value by the first `=`, a `+` stands for a space, and all else is percent
  encoded.  Every byte sequence is such a list.
-/
import HttpApp.Grouping
import HttpApp.Text.Percent
import HttpApp.Text.Cut

set_option autoImplicit false

namespace HttpApp.Urlencoded

/-- One name or value: spaces for plus signs, then percent decoding. -/
def decodeField (b : Bytes) : String :=
  Utf8.lossy (Percent.decodeBytes (b.map fun x => if x = 43 then 32 else x))

/-- A piece between two separators; without `=` the value is empty. -/
def pair (b : Bytes) : String × String :=
  match Text.cutAt? 61 b with
  | some (name, value) => (decodeField name, decodeField value)
  | none => (decodeField b, "")

/-- The pairs of a list, in order; empty pieces are no pairs. -/
def pairs (b : Bytes) : List (String × String) :=
  ((Text.pieces 38 b).filter (!·.isEmpty)).map pair

/-- The values of a name, in order. -/
def valuesOf (name : String) (ps : List (String × String)) : List String :=
  (ps.filter fun p => p.1 == name).map (·.2)

/-- Each name with all its values in order; the order of the names means nothing. -/
def grouped (ps : List (String × String)) : List (String × List String) :=
  ps.foldl (fun gs p => Grouping.push p.1 p.2 gs) []

end HttpApp.Urlencoded
