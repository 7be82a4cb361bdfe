/-
  HttpApp/Wire/Head.lean --- reading the heads of requests.

  A head is a line with a method, a target and a version, the lines of the header
  fields, and an empty line.  A line ends with a line feed, in front of which a
  carriage return may stand; empty lines in front of a head are passed over.
-/
import HttpApp.Server.Intake
import HttpApp.Wire.Target

set_option autoImplicit false

namespace HttpApp.Wire

/-- Why the bytes of a client are no head. -/
inductive HeadFault where
  /-- they break the rules -/
  | malformed
  /-- the target is too long -/
  | longTarget
  /-- there is more of it than is taken in -/
  | tooLarge
  deriving DecidableEq, Repr, Inhabited

/-- The status that a client gets for a fault. -/
def HeadFault.status : HeadFault → Status
  | .malformed => .badRequest
  | .longTarget => .uriTooLong
  | .tooLarge => .headerFieldsTooLarge

/-- How many header fields a head may have. -/
def fieldLimit : Nat := 100

/-- How many bytes a head may have. -/
def headLimit : Nat := 417792

/-- How many bytes a target may have. -/
def targetLimit : Nat := 65534

/-! ## Lines -/

/-- A line without its end. -/
def lineOf (bytes : Bytes) : Bytes := if bytes.getLast? = some 13 then bytes.dropLast else bytes

/-- The first line and the rest, if the line is complete. -/
def readLine? (bytes : Bytes) : Option (Bytes × Bytes) :=
  (Text.cutAt? 10 bytes).map fun p => (lineOf p.1, p.2)

/-- At most `fuel` lines up to an empty one, and the rest behind it. -/
def readLines? : Nat → Bytes → Option (List Bytes × Bytes)
  | 0, _ => none
  | fuel + 1, bytes => do
    let (line, rest) ← readLine? bytes
    if line.isEmpty then some ([], rest)
    else
      let (lines, rest) ← readLines? fuel rest
      some (line :: lines, rest)

/-- Bytes without the empty lines in front. -/
def skipEmptyLines : Bytes → Bytes
  | 13 :: 10 :: bytes => skipEmptyLines bytes
  | 10 :: bytes => skipEmptyLines bytes
  | bytes => bytes

/-! ## The first line -/

def version? (name : String) : Option HttpVersion :=
  if name = HttpVersion.http10.name then some .http10
  else if name = HttpVersion.http11.name then some .http11
  else none

/-- Reads the first line of a head. -/
def readFirstLine (line : Bytes) : Except HeadFault RequestHead :=
  match Text.pieces 32 line with
  | [method, target, version] =>
    if targetLimit < target.length then .error .longTarget
    else
      let name := Bytes.ascii method
      match Text.isToken name, (Utf8.decode? target).bind fun t => readTarget? t.toList,
        version? (Bytes.ascii version) with
      | true, some target, some version =>
        .ok { method := name, target := String.ofList target, version }
      | _, _, _ => .error .malformed
  | _ => .error .malformed

/-! ## Header fields -/

/-- A value without the spaces and tabs around it. -/
def trimValue (value : Bytes) : Bytes :=
  let isGap (b : UInt8) : Bool := b == 32 || b == 9
  ((value.dropWhile isGap).reverse.dropWhile isGap).reverse

/-- Reads the line of a header field. -/
def readField? (line : Bytes) : Option (String × HeaderValue) := do
  let (name, value) ← Text.cutAt? 58 line
  let name ← Headers.name? (Bytes.ascii name)
  let value := trimValue value
  if value.all HeaderValue.isAllowed then some (name, value) else none

/-- Reads the lines of header fields. -/
def readFields? (lines : List Bytes) : Option Headers :=
  (lines.mapM readField?).map fun fields =>
    fields.foldl (fun h f => h.append f.1 f.2) Headers.empty

/-! ## Heads -/

/-- What the bytes of a client make so far. -/
inductive HeadProgress where
  /-- more is to come -/
  | partly
  | complete (head : RequestHead) (rest : Bytes)
  | faulty (fault : HeadFault)

/-- Reads a head. -/
def readHead (bytes : Bytes) : HeadProgress :=
  let bytes := skipEmptyLines bytes
  match readLines? (bytes.length + 1) bytes with
  | none => if headLimit < bytes.length then .faulty .tooLarge else .partly
  | some ([], _) => .faulty .malformed
  | some (first :: fields, rest) =>
    match readFirstLine first with
    | .error fault => .faulty fault
    | .ok head =>
      if fieldLimit < fields.length then .faulty .tooLarge
      else match readFields? fields with
        | none => .faulty .malformed
        | some headers => .complete { head with headers } rest

end HttpApp.Wire
