/-
  HttpApp/Net/Address.lean --- addresses of sockets.

  An address is four octets or eight groups of sixteen bits, with a port.  Groups
  are written in base sixteen; one stretch of zero groups may be left out, and the
  last two groups may be written as four octets.  The shown form leaves out the
  longest stretch of zeros, the first of several, if it is longer than one group.
-/
import HttpApp.Text.Cut
import HttpApp.Text.Ranges

set_option autoImplicit false

namespace HttpApp

/-- The address of a socket. -/
inductive Address where
  /-- four octets and a port -/
  | v4 (octets : List UInt8) (port : UInt16)
  /-- eight groups, a scope, which is zero where none is given, and a port -/
  | v6 (groups : List UInt16) (scope : UInt32) (port : UInt16)
  deriving DecidableEq, Repr, Inhabited

namespace Address

/-- Whether an address has four octets. -/
def isV4 : Address → Bool
  | .v4 .. => true
  | .v6 .. => false

/-! ## Reading -/

/-- A decimal number below a bound. -/
def readNumber? (bound : Nat) (cs : List Char) : Option Nat :=
  if cs.isEmpty || !cs.all Char.isDigit then none
  else
    let n := cs.foldl (fun n c => n * 10 + (c.toNat - '0'.toNat)) 0
    if n < bound then some n else none

/-- An octet: at most three digits, without a zero in front. -/
def readOctet? (cs : List Char) : Option UInt8 :=
  if cs.length ≤ 3 && (cs.length ≤ 1 || cs.head? != some '0') then
    (readNumber? 256 cs).map UInt8.ofNat
  else none

/-- Four octets. -/
def readOctets? (cs : List Char) : Option (List UInt8) :=
  let parts := Text.pieces '.' cs
  if parts.length = 4 then parts.mapM readOctet? else none

/-- A group: one to four digits of base sixteen. -/
def readGroup? (cs : List Char) : Option UInt16 :=
  if cs.isEmpty || 4 < cs.length || !cs.all fun c => (Text.hexDigit? c).isSome then none
  else some (UInt16.ofNat (Text.hexNumber cs))

/-- Two groups that are written as four octets. -/
def groupsOfOctets : List UInt8 → List UInt16
  | a :: b :: rest => UInt16.ofNat (a.toNat * 256 + b.toNat) :: groupsOfOctets rest
  | _ => []

/-- The groups of a list of pieces; only the last one may be octets. -/
def readPieces? : List (List Char) → Option (List UInt16)
  | [] => some []
  | [p] =>
    match readGroup? p with
    | some g => some [g]
    | none => (readOctets? p).map groupsOfOctets
  | p :: ps => do
    let g ← readGroup? p
    let gs ← readPieces? ps
    some (g :: gs)

/-- The groups of a text without a gap; an empty text has none. -/
def readRun? (cs : List Char) : Option (List UInt16) :=
  if cs.isEmpty then some [] else readPieces? (Text.pieces ':' cs)

/-- Eight groups, of which a stretch of zeros may be left out. -/
def readGroups? (cs : List Char) : Option (List UInt16) :=
  match Text.cut? [':', ':'] cs with
  | none => do
    let gs ← readRun? cs
    if gs.length = 8 then some gs else none
  | some (front, back) => do
    -- Only the end of an address can be octets.
    if '.' ∈ front then none
    else
      let gs ← readRun? front
      let hs ← readRun? back
      if gs.length + hs.length ≤ 7 then
        some (gs ++ List.replicate (8 - gs.length - hs.length) 0 ++ hs)
      else none

def readPort? (cs : List Char) : Option UInt16 := (readNumber? 65536 cs).map UInt16.ofNat

/-- What stands between the brackets of an address: groups and perhaps a scope. -/
def readScoped? (cs : List Char) : Option (List UInt16 × UInt32) :=
  match Text.cutAt? '%' cs with
  | none => (readGroups? cs).map fun gs => (gs, 0)
  | some (groups, scope) => do
    let gs ← readGroups? groups
    let n ← readNumber? 4294967296 scope
    some (gs, UInt32.ofNat n)

/-- Reads an address. -/
def read? (s : String) : Option Address :=
  match s.toList with
  | '[' :: cs =>
    match Text.cutAt? ']' cs with
    | some (inner, ':' :: port) => do
      let (gs, scope) ← readScoped? inner
      let p ← readPort? port
      some (.v6 gs scope p)
    | _ => none
  | cs =>
    match Text.cutAt? ':' cs with
    | some (octets, port) => do
      let os ← readOctets? octets
      let p ← readPort? port
      some (.v4 os p)
    | none => none

/-! ## Showing -/

/-- Octets with points between them. -/
def shownOctets (os : List UInt8) : String := ".".intercalate (os.map fun o => toString o.toNat)

/-- A group in base sixteen. -/
def shownGroup (g : UInt16) : String := String.ofList (Nat.toDigits 16 g.toNat)

/-- Groups with colons between them. -/
def shownRun (gs : List UInt16) : String := ":".intercalate (gs.map shownGroup)

/-- The number of zero groups in front. -/
def zeros (gs : List UInt16) : Nat := (gs.takeWhile (· == 0)).length

/-- The place and the length of the longest stretch of zero groups, the first of several. -/
def longestZeros (place : Nat) : List UInt16 → Nat × Nat
  | [] => (place, 0)
  | g :: gs =>
    let rest := longestZeros (place + 1) gs
    let here := zeros (g :: gs)
    if rest.2 ≤ here then (place, here) else rest

/-- Eight groups. -/
def shownGroups (gs : List UInt16) : String :=
  match gs with
  | [0, 0, 0, 0, 0, 0xFFFF, a, b] =>
    "::ffff:" ++ shownOctets ([a, b].flatMap fun g => [UInt8.ofNat (g.toNat / 256), UInt8.ofNat g.toNat])
  | gs =>
    let (place, count) := longestZeros 0 gs
    if count ≤ 1 then shownRun gs
    else shownRun (gs.take place) ++ "::" ++ shownRun (gs.drop (place + count))

/-- An address as it is written. -/
def shown : Address → String
  | .v4 os port => shownOctets os ++ ":" ++ toString port.toNat
  | .v6 gs scope port =>
    "[" ++ shownGroups gs ++ (if scope = 0 then "" else "%" ++ toString scope.toNat) ++ "]:" ++
      toString port.toNat

/-- The address of the own host with a port. -/
def loopback (port : UInt16) : Address := .v4 [127, 0, 0, 1] port

end Address

end HttpApp
