/-
  HttpApp/Text/Ranges.lean --- sets of characters as ranges of code points.

  A property of characters is written down as a text: ranges in base sixteen, a
  dash between the two ends of a range, blanks between ranges.  The tables of the
  modules that use this list code points from 128 on; below that each module
  states its rule itself.
-/
import HttpApp.Text.Cut

set_option autoImplicit false

namespace HttpApp.Text

/-- The value of a digit of base sixteen, of either case. -/
def hexDigit? (c : Char) : Option Nat :=
  if '0' ≤ c ∧ c ≤ '9' then some (c.toNat - '0'.toNat)
  else if 'a' ≤ c ∧ c ≤ 'f' then some (c.toNat - 'a'.toNat + 10)
  else if 'A' ≤ c ∧ c ≤ 'F' then some (c.toNat - 'A'.toNat + 10)
  else none

/-- The number that digits of base sixteen spell; other characters count as zero. -/
def hexNumber (cs : List Char) : Nat :=
  cs.foldl (fun n c => n * 16 + (hexDigit? c).getD 0) 0

/-- The words of a text, cut at spaces and line feeds. -/
def words (s : String) : List (List Char) :=
  (pieces ' ' (s.toList.map fun c => if c = '\n' then ' ' else c)).filter (!·.isEmpty)

/-- A set of code points as ranges with both ends included. -/
structure Ranges where
  /-- first and last code point of each range -/
  list : List (Nat × Nat)

namespace Ranges

/-- Reads the ranges of a table. -/
def ofTable (s : String) : Ranges where
  list := (words s).map fun w =>
    match cutAt? '-' w with
    | some (first, last) => (hexNumber first, hexNumber last)
    | none => (hexNumber w, hexNumber w)

/-- Whether a code point lies in one of the ranges. -/
def contains (r : Ranges) (n : Nat) : Bool := r.list.any fun p => p.1 ≤ n && n ≤ p.2

end Ranges

end HttpApp.Text
