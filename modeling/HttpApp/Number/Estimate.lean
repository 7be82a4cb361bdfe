/-
  HttpApp/Number/Estimate.lean --- products of words and powers of ten, from leading bits.

  The product of a word of 64 bits and a power of ten is estimated from the 64
  leading bits of the power, and from 128 where 64 leave room for doubt.  The bits
  of a power are cut off and not rounded.  An estimate that does not settle which
  binary number is nearest is no answer, and neither is one that leads out of the
  numbers of full precision.
-/
import HttpApp.Number.Binary

set_option autoImplicit false

namespace HttpApp

namespace Estimate

/-- The number of words of 64 bits. -/
def words : Nat := 18446744073709551616

/-- The 128 leading bits of a power of ten, and the power of two of the last of them. -/
def leadingBits (power : Int) : Nat × Int :=
  let num := if 0 ≤ power then Nat.pow 10 power.toNat else 1
  let den := if 0 ≤ power then 1 else Nat.pow 10 (-power).toNat
  let unit := BinaryFormat.floorLog2 num den - 127
  (if 0 ≤ unit then num / (den * Nat.pow 2 unit.toNat) else num * Nat.pow 2 (-unit).toNat / den,
    unit)

/-- Whether nine bits below the leading ones of a product of two words are all set, and adding
`doubt` to the word below carries into them. -/
def inDoubt (product doubt : Nat) : Bool :=
  product / words % 512 == 511 && words ≤ product % words + doubt

/-- The product of a word whose leading bit is set and a number of 128 bits, without its lowest
word; the lower half of the number counts only where the upper one leaves room for doubt. -/
def product? (word bits : Nat) : Option Nat :=
  let rough := word * (bits / words)
  if inDoubt rough word then
    let rest := word * (bits % words)
    let fine := rough + rest / words
    if fine % words = words - 1 ∧ fine / words % 512 = 511 ∧ words ≤ rest % words + word then none
    else some fine
  else some rough

/-- A product of two words cut down to 54 bits, and rounded to 53 of them; none if it might lie
in the middle between two numbers of which the lower one is even. -/
def roundProduct? (product : Nat) : Option Nat :=
  let upper := product / words
  let cut := upper / (if words / 2 ≤ upper then 1024 else 512)
  if product % words = 0 ∧ upper % 512 = 0 ∧ cut % 4 = 1 then none
  else some ((cut + cut % 2) / 2)

end Estimate

/-- The number nearest to `word * 10 ^ power`, where the leading bits of the power settle it; the
word is not zero. -/
def Binary64.estimate? (negative : Bool) (word : Nat) (power : Int) : Option Binary64 := do
  let lift := 63 - word.log2
  let (bits, unit) := Estimate.leadingBits power
  let product ← Estimate.product? (word * Nat.pow 2 lift) bits
  let m ← Estimate.roundProduct? product
  let f := BinaryFormat.double
  let leading := (product.log2 : Int) + 64 + unit - lift
  -- The leading bit of `m` counts in the exponent, and so does a carry.
  let field := (leading - f.fractionBits - f.leastExponent) * Nat.pow 2 f.fractionBits + m
  if Nat.pow 2 f.fractionBits ≤ field ∧ field < f.infinityBits then
    some ⟨UInt64.ofNat ((if negative then f.signBit else 0) + field.toNat)⟩
  else none

end HttpApp
