/-
  HttpApp/Number/Decimal.lean --- decimal notation of numbers with fractions.

  A number is an optional sign, digits with at most one point among or around
  them, and an optional exponent; the words for infinity and for "not a number"
  are numbers too, in any case.  What is read is kept as a whole number and a power
  of ten.
-/
import HttpApp.Number.Numeral

set_option autoImplicit false

namespace HttpApp

/-- What a decimal notation stands for. -/
inductive Decimal where
  /-- not a number -/
  | nan (negative : Bool)
  /-- an infinity -/
  | infinite (negative : Bool)
  /-- `coefficient * 10 ^ exponent`, with a sign that also a zero has -/
  | finite (negative : Bool) (coefficient : Nat) (exponent : Int)
  deriving DecidableEq, Repr, Inhabited

namespace Decimal

/-- The number that a notation stands for. -/
def ofNumeral (n : Numeral) : Decimal := .finite n.negative n.coefficient n.exponent

/-- A power of ten: nothing, or a letter, an optional sign and digits up to the end. -/
def readPower? : List Char → Option (Option (Bool × List Nat))
  | [] => some none
  | c :: cs =>
    if c = 'e' ∨ c = 'E' then
      let (negative, ds) := match cs with
        | '-' :: ds => (true, ds)
        | '+' :: ds => (false, ds)
        | ds => (false, ds)
      match Numeral.digitRun ds with
      | ([], _) => none
      | (digits, []) => some (some (negative, digits))
      | _ => none
    else none

/-- Digits with an optional point, then an optional power of ten, up to the end. -/
def readNumeral? (negative : Bool) (cs : List Char) : Option Numeral :=
  let (whole, rest) := Numeral.digitRun cs
  let (fraction, rest) := match rest with
    | '.' :: rest =>
      let (fraction, rest) := Numeral.digitRun rest
      (some fraction, rest)
    | rest => (none, rest)
  if whole.isEmpty && (fraction.getD []).isEmpty then none
  else (readPower? rest).map fun power => ⟨negative, whole, fraction, power⟩

/-- The words for infinity and for "not a number", in any case. -/
def readWord? (negative : Bool) (cs : List Char) : Option Decimal :=
  let word := String.ofList (cs.map Char.toLower)
  if word = "inf" ∨ word = "infinity" then some (.infinite negative)
  else if word = "nan" then some (.nan negative)
  else none

/-- Reads a number. -/
def read? (cs : List Char) : Option Decimal :=
  let (negative, ds) := match cs with
    | '-' :: ds => (true, ds)
    | '+' :: ds => (false, ds)
    | ds => (false, ds)
  ((readNumeral? negative ds).map ofNumeral).orElse fun _ => readWord? negative ds

/-- The wording of a failure to read a number. -/
def faultMessage (cs : List Char) : String :=
  if cs.isEmpty then "cannot parse float from empty string" else "invalid float literal"

end Decimal

end HttpApp
