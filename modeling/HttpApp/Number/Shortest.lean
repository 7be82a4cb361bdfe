/-
  HttpApp/Number/Shortest.lean --- the fewest digits that read back.

  A binary number stands for every real number that rounds to it.  `shortest`
  looks for the decimal with the fewest digits in that interval, and of two with
  equally many for the nearer one, in exact arithmetic.
-/
import HttpApp.Number.Binary

set_option autoImplicit false

namespace HttpApp.Binary64

/-- A positive number as a quotient, with the ends of the interval of the reals that round
to it over the same denominator. -/
structure Interval where
  value : Nat
  low : Nat
  high : Nat
  denominator : Nat
  /-- whether the ends themselves round to the number -/
  closed : Bool

/-- The interval of a positive finite number with the given bits. -/
def interval (magnitude : Nat) : Interval :=
  let f := BinaryFormat.double
  let field := magnitude / Nat.pow 2 f.fractionBits
  let fraction := magnitude % Nat.pow 2 f.fractionBits
  let m := if field = 0 then fraction else fraction + Nat.pow 2 f.fractionBits
  let q : Int := f.leastExponent + ((field - 1 : Nat) : Int)
  -- Below a power of two the numbers stand twice as close.
  let below := if fraction = 0 ∧ 1 < field then 1 else 2
  let scale : Nat := if 0 ≤ q then Nat.pow 2 q.toNat else 1
  { value := 4 * m * scale
    low := (4 * m - below) * scale
    high := (4 * m + 2) * scale
    denominator := 4 * if 0 ≤ q then 1 else Nat.pow 2 (-q).toNat
    closed := m % 2 = 0 }

/-- The exponent of the highest power of ten that is at most `num / den`, found upwards or
downwards from `guess`. -/
def floorLog10 (num den : Nat) : Int :=
  let guess := BinaryFormat.floorLog2 num den * 30103 / 100000
  let reaches (e : Int) : Bool :=
    if 0 ≤ e then den * Nat.pow 10 e.toNat ≤ num else den ≤ num * Nat.pow 10 (-e).toNat
  -- The guess is off by one at most.
  if reaches (guess + 1) then guess + 1 else if reaches guess then guess else guess - 1

/-- Whether `digits * 10 ^ exponent` lies in the interval. -/
def Interval.holds (i : Interval) (digits : Nat) (exponent : Int) : Bool :=
  let n := digits * i.denominator * if 0 ≤ exponent then Nat.pow 10 exponent.toNat else 1
  let s := if 0 ≤ exponent then 1 else Nat.pow 10 (-exponent).toNat
  if i.closed then i.low * s ≤ n && n ≤ i.high * s else i.low * s < n && n < i.high * s

/-- The grid point with step `10 ^ exponent` nearest to the number, of those that lie in the
interval; an exact tie goes to the even one. -/
def Interval.gridPoint? (i : Interval) (exponent : Int) : Option Nat :=
  let num := i.value * if 0 ≤ exponent then 1 else Nat.pow 10 (-exponent).toNat
  let den := i.denominator * if 0 ≤ exponent then Nat.pow 10 exponent.toNat else 1
  let d := num / den
  let r := num % den
  match i.holds d exponent, i.holds (d + 1) exponent with
  | true, true =>
    if 2 * r < den then some d
    else if den < 2 * r then some (d + 1)
    else some (if d % 2 = 0 then d else d + 1)
  | true, false => some d
  | false, true => some (d + 1)
  | false, false => none

/-- Looks for a grid point among at most `fuel` grids, each ten times finer than the one
before. -/
def Interval.search (i : Interval) : Nat → Int → Nat × Int
  | 0, exponent => (i.value / i.denominator, exponent)
  | fuel + 1, exponent =>
    match i.gridPoint? exponent with
    | some d => if d = 0 then i.search fuel (exponent - 1) else (d, exponent)
    | none => i.search fuel (exponent - 1)

/-- Drops at most `fuel` zeros at the end of a decimal. -/
def dropZeros : Nat → Nat → Int → Nat × Int
  | 0, d, e => (d, e)
  | fuel + 1, d, e => if d ≠ 0 ∧ d % 10 = 0 then dropZeros fuel (d / 10) (e + 1) else (d, e)

/-- The digits and the power of ten of the shortest decimal that reads back as the positive
finite number with the given bits. -/
def shortest (magnitude : Nat) : Nat × Int :=
  let i := interval magnitude
  let (d, e) := i.search 18 (floorLog10 i.value i.denominator)
  dropZeros 18 d e

end HttpApp.Binary64
