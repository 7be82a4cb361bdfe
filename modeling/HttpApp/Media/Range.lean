/-
  HttpApp/Media/Range.lean --- media ranges and what a client accepts.

  A range covers a type if both of its parts are equal or a star.  Of the ranges
  in an `Accept` text that cover a type the most precise one decides, and of
  equally precise ones the leftmost; a quality of zero refuses.
-/
import HttpApp.Media.Reader
import HttpApp.Number.Binary
import HttpApp.Text.Cut

set_option autoImplicit false

namespace HttpApp.MediaType

def partCovers (range part : String) : Bool :=
  range == "*" || Text.equalIgnoringAsciiCase range part

/-- Whether the range covers this type. -/
def within (m range : MediaType) : Bool :=
  partCovers range.type m.type && partCovers range.subtype m.subtype

/-- How precise a range is: any type, any subtype of a type, or one type. -/
def precision (range : MediaType) : Nat :=
  if range.type = "*" then 0 else if range.subtype = "*" then 1 else 2

/-- Whether the quality of a range admits what it covers.  The quality is the parameter `q`
as a binary number of 32 bits, or one if there is none that can be read. -/
def admits (range : MediaType) : Bool :=
  match range.param? "q" with
  | none => true
  | some q =>
    match Decimal.read? (Text.trimBlanks q.toList) with
    | none => true
    | some d => BinaryFormat.single.isPositive (BinaryFormat.single.round d)

/-- The ranges that an `Accept` text lists; pieces that are none are passed over. -/
def rangesOf (header : String) : List MediaType :=
  (Text.pieces ',' header.toList).filterMap fun piece => read? (String.ofList piece)

/-- The leftmost range of the highest precision. -/
def mostPrecise? : List MediaType → Option MediaType
  | [] => none
  | r :: rs =>
    match mostPrecise? rs with
    | none => some r
    | some best => if r.precision < best.precision then some best else some r

def admittedBy (ranges : List MediaType) (m : MediaType) : Bool :=
  match mostPrecise? (ranges.filter fun r => m.within r) with
  | some range => range.admits
  | none => false

/-- Whether an `Accept` text admits a type; no text and a blank one admit all. -/
def acceptedBy (header : Option String) (m : MediaType) : Bool :=
  match header with
  | none => true
  | some h => (Text.trim h).isEmpty || m.admittedBy (rangesOf h)

end HttpApp.MediaType
