/-
  HttpApp/Wire/Body.lean --- reading the bodies of requests.

  The header fields say where a body ends: behind a number of bytes, or behind the
  last one of its chunks.  A chunk is its size in base sixteen, a line end, its
  bytes, and another line end; a chunk of no bytes is the last one, and lines
  behind it up to an empty one are passed over.
-/
import HttpApp.Server.Intake
import HttpApp.Text.Blank
import HttpApp.Text.Lowercase
import HttpApp.Text.Percent

set_option autoImplicit false

namespace HttpApp.Wire

/-! ## What the header fields say -/

/-- How the end of a body is found. -/
inductive Framing where
  /-- it has this many bytes -/
  | length (n : Nat)
  /-- it comes in chunks -/
  | chunked
  deriving DecidableEq, Repr, Inhabited

/-- The words of a list that is cut at commas. -/
def listed (v : HeaderValue) : List String :=
  (Text.pieces ',' (Bytes.ascii v).toList).map fun w => String.ofList (Text.trimBlanks w)

/-- Whether a list ends with the word for chunks. -/
def endsWithChunked (v : HeaderValue) : Bool :=
  match (listed v).getLast? with
  | some w => Text.equalIgnoringAsciiCase w "chunked"
  | none => false

/-- The number that a declared length spells: digits and nothing else. -/
def lengthOf? (v : HeaderValue) : Option Nat :=
  let s := Bytes.ascii v
  if s.toList.all Char.isDigit then (IntegerRange.word64.read? s).map Int.toNat else none

/-- The length that several header values declare, if they agree. -/
def agreedLength? : List HeaderValue → Option Nat
  | [] => some 0
  | v :: vs => do
    let n ← lengthOf? v
    if vs.all fun w => lengthOf? w == some n then some n else none

/-- How the end of the body of a head is found, if its header fields agree. -/
def Framing.ofHead? (h : RequestHead) : Option Framing :=
  match (h.headers.getAll "transfer-encoding").getLast? with
  | some v => if h.version = .http11 && endsWithChunked v then some .chunked else none
  | none => (agreedLength? (h.headers.getAll "content-length")).map .length

/-- Whether a head has a word in its field for the connection. -/
def hasOption (h : RequestHead) (word : String) : Bool :=
  (h.headers.getAll "connection").any fun v =>
    (listed v).any fun w => Text.equalIgnoringAsciiCase w word

/-- Whether a client wants to send more requests over its connection. -/
def keepsAlive (h : RequestHead) : Bool :=
  match h.version with
  | .http11 => !hasOption h "close"
  | .http10 => hasOption h "keep-alive"

/-- Whether a client waits for a word before it sends its body. -/
def awaitsGoAhead (h : RequestHead) : Bool :=
  h.version = .http11 &&
    match h.headers.text? "expect" with
    | some v => Text.equalIgnoringAsciiCase v "100-continue"
    | none => false

/-! ## Bytes of a body -/

/-- What comes next in a body. -/
inductive BodyState where
  /-- bytes of a body without chunks -/
  | plain (left : Nat)
  /-- the size of a chunk, as far as it was read, if it has begun -/
  | size (soFar : Option Nat)
  /-- blanks behind a size -/
  | behindSize (n : Nat)
  /-- anything up to the line end behind a size -/
  | extension (n : Nat)
  /-- the line feed behind a size -/
  | sizeEnd (n : Nat)
  /-- bytes of a chunk -/
  | chunk (left : Nat)
  /-- the carriage return behind a chunk -/
  | chunkReturn
  /-- the line feed behind a chunk -/
  | chunkFeed
  /-- a line behind the last chunk, and whether something of it was read -/
  | trailer (begun : Bool)
  /-- the line feed of a line behind the last chunk -/
  | trailerEnd (begun : Bool)
  | finished
  | broken
  deriving DecidableEq, Repr, Inhabited

namespace BodyState

/-- What comes first. -/
def start : Framing → BodyState
  | .length 0 => .finished
  | .length n => .plain n
  | .chunked => .size none

/-- What comes behind the line end of a size. -/
def ofSize (n : Nat) : BodyState := if n = 0 then .trailer false else .chunk n

/-- What comes behind a byte, and whether the byte is part of the body. -/
def next (b : UInt8) : BodyState → BodyState × Bool
  | .plain left => (if left ≤ 1 then .finished else .plain (left - 1), true)
  | .size soFar =>
    match Percent.digit? b, soFar with
    | some d, _ =>
      let n := soFar.getD 0 * 16 + d
      (if n < Nat.pow 2 64 then .size (some n) else .broken, false)
    | none, some n =>
      (if b = 13 then .sizeEnd n
        else if b = 32 ∨ b = 9 then .behindSize n
        else if b = 59 then .extension n
        else .broken, false)
    | none, none => (.broken, false)
  | .behindSize n =>
    (if b = 13 then .sizeEnd n
      else if b = 32 ∨ b = 9 then .behindSize n
      else if b = 59 then .extension n
      else .broken, false)
  | .extension n => (if b = 13 then .sizeEnd n else if b = 10 then .broken else .extension n, false)
  | .sizeEnd n => (if b = 10 then ofSize n else .broken, false)
  | .chunk left => (if left ≤ 1 then .chunkReturn else .chunk (left - 1), true)
  | .chunkReturn => (if b = 13 then .chunkFeed else .broken, false)
  | .chunkFeed => (if b = 10 then .size none else .broken, false)
  | .trailer begun => (if b = 13 then .trailerEnd begun else .trailer true, false)
  | .trailerEnd begun =>
    (if b = 10 then (if begun then .trailer false else .finished) else .broken, false)
  | .finished => (.finished, false)
  | .broken => (.broken, false)

/-- Whether no byte is taken any more. -/
def isSettled : BodyState → Bool
  | .finished | .broken => true
  | _ => false

/-- Takes bytes as long as they are part of the body or of its framing: the bytes of the body,
in front of which stand those in `taken` in reverse, what comes next, and the rest. -/
def feed (taken : Bytes) (s : BodyState) : Bytes → Bytes × BodyState × Bytes
  | [] => (taken.reverse, s, [])
  | b :: rest =>
    if s.isSettled then (taken.reverse, s, b :: rest)
    else
      let (s, isData) := s.next b
      feed (if isData then b :: taken else taken) s rest

/-- The wording of a transfer that fails. -/
def transferFault : String := "error reading a body from connection"

/-- What arrives of a body when bytes come. -/
def arrivals (s : BodyState) (bytes : Bytes) : List Arrival × BodyState × Bytes :=
  let (data, s, rest) := feed [] s bytes
  let frame := if data.isEmpty then [] else [Arrival.frame data]
  let last := match s with
    | .finished => [Arrival.ended]
    | .broken => [Arrival.failed transferFault]
    | _ => []
  (frame ++ last, s, rest)

end BodyState

end HttpApp.Wire
