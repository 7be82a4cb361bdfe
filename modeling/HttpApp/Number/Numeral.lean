/-
  HttpApp/Number/Numeral.lean --- runs of decimal digits and the notations made of them.

  A run of digits is taken off the front of a text, and `ofDigits` is the number
  that it spells.  Long runs are cut in halves, which changes the work and not the
  number (`ofDigits_eq_foldl`).  A numeral is a notation in its parts: sign, digits,
  fraction and power of ten.
-/
import HttpApp.Number.Integer

set_option autoImplicit false

namespace HttpApp

namespace Numeral

/-! ## Runs of digits -/

/-- The digits at the front of a text, and the rest. -/
def digitRun (cs : List Char) : List Nat × List Char :=
  let (ds, rest) := cs.span Char.isDigit
  (ds.filterMap IntegerRange.digit?, rest)

/-- A number with one more digit behind it. -/
def push (n d : Nat) : Nat := n * 10 + d

/-- The number that digits spell, the highest first; up to `depth` times a run of more than
32 digits is cut in two halves. -/
def ofHalves : Nat → List Nat → Nat
  | 0, ds => ds.foldl push 0
  | depth + 1, ds =>
    if ds.length ≤ 32 then ds.foldl push 0
    else
      let high := ds.length / 2
      ofHalves depth (ds.take high) * Nat.pow 10 (ds.length - high) + ofHalves depth (ds.drop high)

/-- The number that digits spell, the highest first. -/
def ofDigits (ds : List Nat) : Nat := ofHalves 32 ds

theorem foldl_push (n : Nat) (ds : List Nat) :
    ds.foldl push n = n * Nat.pow 10 ds.length + ds.foldl push 0 := by
  induction ds generalizing n with
  | nil => exact (Nat.mul_one n).symm
  | cons d ds ih =>
    have hp : Nat.pow 10 (d :: ds).length = Nat.pow 10 ds.length * 10 := rfl
    rw [List.foldl_cons, List.foldl_cons, ih, ih (push 0 d), hp]
    simp only [push, Nat.zero_mul, Nat.zero_add, Nat.add_mul]
    rw [Nat.mul_assoc, Nat.mul_comm 10, Nat.add_assoc]

theorem ofHalves_eq_foldl (depth : Nat) (ds : List Nat) : ofHalves depth ds = ds.foldl push 0 := by
  induction depth generalizing ds with
  | zero => rfl
  | succ depth ih =>
    rw [ofHalves]
    split
    · rfl
    · have h := foldl_push ((ds.take (ds.length / 2)).foldl push 0) (ds.drop (ds.length / 2))
      rw [← List.foldl_append, List.take_append_drop, List.length_drop] at h
      simp only [ih, h]

/-- Cutting does not change the number. -/
theorem ofDigits_eq_foldl (ds : List Nat) : ofDigits ds = ds.foldl push 0 :=
  ofHalves_eq_foldl 32 ds

end Numeral

/-! ## Notations -/

/-- The parts of a decimal notation. -/
structure Numeral where
  negative : Bool
  /-- the digits in front of the point -/
  whole : List Nat
  /-- the digits behind the point, where there is a point -/
  fraction : Option (List Nat)
  /-- whether the power of ten is negative, and its digits, where there is a power -/
  power : Option (Bool × List Nat)
  deriving DecidableEq, Repr, Inhabited

namespace Numeral

/-- A digit of a power of ten counts as long as the digits in front of it spell less than
this. -/
def powerReach : Nat := 65536

/-- The power of ten that digits spell. -/
def powerOf (ds : List Nat) : Nat :=
  ds.foldl (fun n d => if n < powerReach then push n d else n) 0

/-- The whole number that the digits around the point spell. -/
def coefficient (n : Numeral) : Nat := ofDigits (n.whole ++ n.fraction.getD [])

/-- The power of ten as it is written. -/
def writtenPower (n : Numeral) : Int :=
  match n.power with
  | none => 0
  | some (true, ds) => -Int.ofNat (powerOf ds)
  | some (false, ds) => Int.ofNat (powerOf ds)

/-- The power of ten of the last digit. -/
def exponent (n : Numeral) : Int := n.writtenPower - (n.fraction.getD []).length

/-- Whether there is neither a point nor a power. -/
def isWhole (n : Numeral) : Bool := n.fraction.isNone && n.power.isNone

/-- The whole number that sign and digits spell. -/
def integer (n : Numeral) : Int :=
  if n.negative then -Int.ofNat n.coefficient else Int.ofNat n.coefficient

end Numeral

end HttpApp
