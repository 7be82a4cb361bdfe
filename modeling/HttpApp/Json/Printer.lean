/-
  HttpApp/Json/Printer.lean --- JSON as text, compact and indented.

  Numbers are shown with the fewest digits that read back; a fraction is always
  there, and an exponent where the number is very large or small.
-/
import HttpApp.Bytes
import HttpApp.Json.Basic
import HttpApp.Number.Shortest

set_option autoImplicit false

namespace HttpApp.Json

/-- How floating-point numbers are laid out. -/
structure RealLayout where
  /-- the least power of ten of a leading digit that is written without exponent -/
  plainFrom : Int
  /-- the greatest such power -/
  plainTo : Int

/-- Numbers from 0.00001 up to sixteen digits before the point have no exponent. -/
def realLayout : RealLayout := ⟨-5, 15⟩

/-- The digits `ds`, of which the last stands for ten to the power `exponent`. -/
def layOut (layout : RealLayout) (ds : List Char) (exponent : Int) : List Char :=
  let leading : Int := exponent + ds.length - 1
  if layout.plainFrom ≤ leading ∧ leading ≤ layout.plainTo then
    if 0 ≤ exponent then ds ++ List.replicate exponent.toNat '0' ++ ['.', '0']
    else if 0 ≤ leading then
      ds.take (leading + 1).toNat ++ '.' :: ds.drop (leading + 1).toNat
    else '0' :: '.' :: List.replicate (-leading - 1).toNat '0' ++ ds
  else
    ds.take 1 ++ (if ds.length = 1 then [] else '.' :: ds.drop 1) ++
      'e' :: (if 0 ≤ leading then '+' else '-') :: Nat.toDigits 10 leading.natAbs

/-- A finite floating-point number. -/
def printReal (x : Binary64) : List Char :=
  (if x.isNegative then ['-'] else []) ++
    if x.magnitude = 0 then ['0', '.', '0']
    else
      let (d, e) := Binary64.shortest x.magnitude
      layOut realLayout (Nat.toDigits 10 d) e

/-- A whole number. -/
def printInteger (n : Int) : List Char :=
  if n < 0 then '-' :: Nat.toDigits 10 n.natAbs else Nat.toDigits 10 n.natAbs

/-- One character inside a string. -/
def escapeChar (c : Char) : List Char :=
  if c = '"' then ['\\', '"']
  else if c = '\\' then ['\\', '\\']
  else if c = '\n' then ['\\', 'n']
  else if c = '\r' then ['\\', 'r']
  else if c = '\t' then ['\\', 't']
  else if c = '\x08' then ['\\', 'b']
  else if c = '\x0c' then ['\\', 'f']
  else if c.toNat < 32 then '\\' :: 'u' :: '0' :: '0' :: Bytes.hexPair (UInt8.ofNat c.toNat)
  else [c]

/-- A string with its quotes. -/
def printText (s : String) : List Char := '"' :: s.toList.flatMap escapeChar ++ ['"']

/-- What separates the parts of lists and objects. -/
structure Style where
  /-- what stands in front of each part at a depth -/
  lead : Nat → List Char
  /-- what stands between a name and its value -/
  colon : List Char

/-- Nothing but the punctuation. -/
def compactStyle : Style := ⟨fun _ => [], [':']⟩

/-- Each part on a line of its own, two more spaces for each depth. -/
def indentedStyle : Style := ⟨fun depth => '\n' :: List.replicate (2 * depth) ' ', [':', ' ']⟩

mutual

/-- A value at a depth, in front of a text. -/
def printBefore (style : Style) (depth : Nat) (rest : List Char) : Json → List Char
  | .null => 'n' :: 'u' :: 'l' :: 'l' :: rest
  | .bool true => 't' :: 'r' :: 'u' :: 'e' :: rest
  | .bool false => 'f' :: 'a' :: 'l' :: 's' :: 'e' :: rest
  | .integer n => printInteger n ++ rest
  | .real x => printReal x ++ rest
  | .text s => printText s ++ rest
  | .list [] => '[' :: ']' :: rest
  | .list (v :: vs) =>
    '[' :: style.lead (depth + 1) ++
      printBefore style (depth + 1)
        (printItemsBefore style (depth + 1) (style.lead depth ++ ']' :: rest) vs) v
  | .object [] => '{' :: '}' :: rest
  | .object ((name, v) :: ms) =>
    '{' :: style.lead (depth + 1) ++ (printText name ++ (style.colon ++
      printBefore style (depth + 1)
        (printMembersBefore style (depth + 1) (style.lead depth ++ '}' :: rest) ms) v))

/-- The items of a list after the first one, in front of a text. -/
def printItemsBefore (style : Style) (depth : Nat) (rest : List Char) : List Json → List Char
  | [] => rest
  | v :: vs =>
    ',' :: style.lead depth ++
      printBefore style depth (printItemsBefore style depth rest vs) v

/-- The members of an object after the first one, in front of a text. -/
def printMembersBefore (style : Style) (depth : Nat) (rest : List Char) :
    List (String × Json) → List Char
  | [] => rest
  | (name, v) :: ms =>
    ',' :: style.lead depth ++ (printText name ++ (style.colon ++
      printBefore style depth (printMembersBefore style depth rest ms) v))

end

/-- A value as text. -/
def print (style : Style) (v : Json) : String := String.ofList (v.printBefore style 0 [])

/-- A value in as few characters as possible. -/
def compact (v : Json) : String := v.print compactStyle

/-- A value spread over lines. -/
def indented (v : Json) : String := v.print indentedStyle

end HttpApp.Json
