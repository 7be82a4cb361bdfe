/-
  HttpApp/Number/Binary.lean --- binary floating-point numbers.

  A format has a number of fraction bits and of exponent bits.  `round` turns the
  exact value of a decimal notation into the nearest number of the format, an
  exact tie into the even one, too large a value into an infinity.  Numbers are
  held as their bits.
-/
import HttpApp.Number.Decimal

set_option autoImplicit false

namespace HttpApp

/-- A binary format with a sign bit, an exponent and a fraction. -/
structure BinaryFormat where
  fractionBits : Nat
  exponentBits : Nat
  deriving DecidableEq, Repr

namespace BinaryFormat

/-- The format of 32 bits. -/
def single : BinaryFormat := ⟨23, 8⟩

/-- The format of 64 bits. -/
def double : BinaryFormat := ⟨52, 11⟩

variable (f : BinaryFormat)

/-- The exponent of the smallest step between two numbers of the format. -/
def leastExponent : Int := 2 - (Nat.pow 2 (f.exponentBits - 1) + f.fractionBits : Nat)

/-- The bits of infinity without its sign. -/
def infinityBits : Nat := (Nat.pow 2 f.exponentBits - 1) * Nat.pow 2 f.fractionBits

/-- The sign bit alone. -/
def signBit : Nat := Nat.pow 2 (f.fractionBits + f.exponentBits)

/-- A quotient rounded to the nearest whole number, an exact tie to the even one. -/
def roundQuotient (num den : Nat) : Nat :=
  let q := num / den
  let r := num % den
  if 2 * r < den then q
  else if den < 2 * r then q + 1
  else if q % 2 = 0 then q else q + 1

/-- The exponent of the highest power of two that is at most `num / den`. -/
def floorLog2 (num den : Nat) : Int :=
  let e : Int := (num.log2 : Int) - (den.log2 : Int)
  -- The estimate is exact or one too high.
  if 0 ≤ e then (if den * Nat.pow 2 e.toNat ≤ num then e else e - 1)
  else (if den ≤ num * Nat.pow 2 (-e).toNat then e else e - 1)

/-- The bits nearest to the positive quotient `num / den`. -/
def roundBits (num den : Nat) : Nat :=
  let q : Int := max (floorLog2 num den - f.fractionBits) f.leastExponent
  let m := if 0 ≤ q then roundQuotient num (den * Nat.pow 2 q.toNat)
    else roundQuotient (num * Nat.pow 2 (-q).toNat) den
  -- A fraction that rounds up to the next power of two carries into the exponent.
  min ((q - f.leastExponent).toNat * Nat.pow 2 f.fractionBits + m) f.infinityBits

/-- Beyond this power of two either way a value is infinite or zero in every format. -/
def reach : Int := 1200

/-- Powers of two between which `coefficient * 10 ^ exponent` lies: ten lies between the third
and the fourth power of two. -/
def binaryBounds (coefficient : Nat) (exponent : Int) : Int × Int :=
  let low : Int := coefficient.log2
  if 0 ≤ exponent then (low + 3 * exponent, low + 1 + 4 * exponent)
  else (low + 4 * exponent, low + 1 + 3 * exponent)

/-- The bits nearest to a decimal value. -/
def round : Decimal → Nat
  | .nan negative =>
    (if negative then f.signBit else 0) + f.infinityBits + Nat.pow 2 (f.fractionBits - 1)
  | .infinite negative => (if negative then f.signBit else 0) + f.infinityBits
  | .finite negative coefficient exponent =>
    let (low, high) := binaryBounds coefficient exponent
    (if negative then f.signBit else 0) +
      if coefficient = 0 ∨ high < -reach then 0
      else if reach < low then f.infinityBits
      else if 0 ≤ exponent then f.roundBits (coefficient * Nat.pow 10 exponent.toNat) 1
      else f.roundBits coefficient (Nat.pow 10 (-exponent).toNat)

/-- Whether bits stand for a number above zero. -/
def isPositive (bits : Nat) : Bool := 0 < bits && bits ≤ f.infinityBits

end BinaryFormat

/-- A binary number of 64 bits. -/
structure Binary64 where
  bits : UInt64
  deriving DecidableEq, Repr, Inhabited

namespace Binary64

/-- The number nearest to a decimal value. -/
def ofDecimal (d : Decimal) : Binary64 := ⟨UInt64.ofNat (BinaryFormat.double.round d)⟩

/-- The number without its sign. -/
def magnitude (x : Binary64) : Nat := x.bits.toNat % BinaryFormat.double.signBit

/-- Whether the sign bit is set. -/
def isNegative (x : Binary64) : Bool := BinaryFormat.double.signBit ≤ x.bits.toNat

/-- Whether this is no number. -/
def isNaN (x : Binary64) : Bool := BinaryFormat.double.infinityBits < x.magnitude

/-- Whether this is a number and no infinity. -/
def isFinite (x : Binary64) : Bool := x.magnitude < BinaryFormat.double.infinityBits

/-- The sixteen digits of base sixteen that show the bits. -/
def hex (x : Binary64) : String :=
  let ds := Nat.toDigits 16 x.bits.toNat
  String.ofList (List.replicate (16 - ds.length) '0' ++ ds)

end Binary64

end HttpApp
