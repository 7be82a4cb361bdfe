/-
  HttpApp/Json/Lexicon.lean --- rules for the numbers, words and escapes of JSON.

  Texts of JSON agree on what lists, objects and strings are; what a number may be,
  what ends it and what half a pair of surrogates means is a matter of the lexicon.
  The unbounded lexicon takes every number and every escape.  The bounded lexicon
  has numbers of 64 bits; of a wide number it takes the value and passes over the
  rest of the token, so that only narrow numbers have to end where a token ends.
-/
import HttpApp.Json.Basic
import HttpApp.Json.Step
import HttpApp.Number.Estimate

set_option autoImplicit false

namespace HttpApp.Json

/-- Rules for numbers, words and escapes. -/
structure Lexicon where
  /-- a number with the given sign, behind the sign -/
  number : Bool → Step Json
  /-- where a word ends of which the letters have been read -/
  wordEnd : Place → Except Fault Place
  /-- an escape in a text -/
  unicode : UnicodeRule
  /-- an escape in a name of the outermost object -/
  nameUnicode : UnicodeRule

/-- The whole numbers with a sign or without one that have 64 bits. -/
def wholeRange (negative : Bool) : IntegerRange :=
  if negative then .int64 else .word64

/-! ## The unbounded lexicon -/

/-- A number of any size: whole numbers of 64 bits are exact, all others are rounded. -/
def readAnyNumber (negative : Bool) : Step Json := fun p => do
  let (n, p) ← readNumeral negative p
  if n.isWhole && (wholeRange negative).contains n.integer then .ok (.integer n.integer, p)
  else .ok (.real (.ofDecimal (.ofNumeral n)), p)

/-- One unit, or two that make up a pair of surrogates. -/
def readPair : UnicodeRule := fun cs => do
  let (u, rest) ← readUnit cs
  if isHighSurrogate u then
    match rest with
    | '\\' :: 'u' :: rest => do
      let (v, rest) ← readUnit rest
      if isLowSurrogate v then
        .ok ([Char.ofNat (0x10000 + (u - 0xD800) * 1024 + (v - 0xDC00))], rest)
      else .error (.unexpected '\\')
    | _ => .error (.unexpected '\\')
  else if isLowSurrogate u then .error (.unexpected '\\')
  else .ok ([Char.ofNat u], rest)

/-- An escape as `readPair` reads it; half a pair stands for the replacement character. -/
def readPairOrHalf : UnicodeRule := fun cs =>
  match readPair cs with
  | .ok found => .ok found
  | .error _ => do
    let (_, rest) ← readUnit cs
    .ok (['\uFFFD'], rest)

/-- Numbers of any size, words that end with their last letter, and pairs of surrogates that
have to be whole in the names of the outermost object alone. -/
def Lexicon.unbounded : Lexicon where
  number := readAnyNumber
  wordEnd := .ok
  unicode := readPairOrHalf
  nameUnicode := readPair

/-! ## The bounded lexicon -/

/-- The distance from the first to the last character of the sign, the digits and the point. -/
def spread (n : Numeral) : Nat :=
  (if n.negative then 1 else 0) +
    match n.fraction with
    | none => n.whole.length - 1
    | some ds => n.whole.length + ds.length

/-- The spread of a narrow whole number is at most this. -/
def wholeSpread : Nat := 17

/-- The spread of a narrow number with a fraction or a power is at most this. -/
def realSpread : Nat := 18

/-- Whether a number that is read from a place counts as narrow although it is wide.  Its offset
is taken behind the zeros and the point at its front; its spread, raised by the code of its
first digit, is to exceed that by no more than the spread of a narrow number. -/
def isEarly (n : Numeral) (p : Place) : Bool :=
  let offset := p.offset + (p.ahead.takeWhile fun c => c == '0' || c == '.').length
  let reach := spread n + (p.ahead.headD '0').toNat
  offset ≤ reach && reach ≤ offset + realSpread

/-- A power of ten may have one more digit as long as it is not above this. -/
def powerLimit : Nat := 4294967296

/-- The power of ten, if its digits keep to the limit. -/
def boundedPower (n : Numeral) : Except Fault Int :=
  match n.power with
  | none => .ok 0
  | some (negative, ds) =>
    if powerLimit < Numeral.ofDigits ds.dropLast then .error .numberRange
    else
      let power := Int.ofNat (Numeral.ofDigits ds)
      .ok (if negative then -power else power)

/-- A number that has to be finite. -/
def finiteReal (x : Binary64) : Except Fault Json :=
  if x.isFinite then .ok (.real x) else .error .numberRange

/-- The greatest power of ten either way by which a small word makes a number in one step. -/
def stepPower : Nat := 22

/-- A word below this is a number of full precision. -/
def smallWord : Nat := Nat.pow 2 53

/-- The powers of ten by which the product of a word is estimated. -/
def estimatedPowers : IntegerRange := ⟨-325, 308⟩

/-- The value of a narrow number: its digits are a word of 64 bits and the power of ten of the
last one is a signed word of 32.  Where the estimate of their product gives no answer, the number
counts as it is written. -/
def narrowReal (n : Numeral) (power : Int) : Except Fault Json :=
  let word := n.coefficient % Nat.pow 2 64
  let exponent := Int.bmod (power - (n.fraction.getD []).length) (Nat.pow 2 32)
  if word = 0 then .ok (.real (.ofDecimal (.finite n.negative 0 0)))
  else if exponent.natAbs ≤ stepPower && word < smallWord then
    .ok (.real (.ofDecimal (.finite n.negative word exponent)))
  else
    let estimate :=
      if estimatedPowers.contains exponent then Binary64.estimate? n.negative word exponent else none
    match estimate with
    | some x => .ok (.real x)
    | none => finiteReal (.ofDecimal (.ofNumeral n))

/-- A number of 64 bits. -/
def readBoundedNumber (negative : Bool) : Step Json := fun start => do
  let (n, p) ← readNumeral negative start
  let power ← boundedPower n
  if n.isWhole then
    if spread n ≤ wholeSpread then .ok (.integer n.integer, ← p.endToken)
    else if (wholeRange negative).contains n.integer then .ok (.integer n.integer, p.tokenEnd)
    else .error .numberRange
  else if spread n ≤ realSpread || isEarly n start then do
    let p ← p.endToken
    .ok (← narrowReal n power, p)
  else .ok (← finiteReal (.ofDecimal (.ofNumeral n)), p.tokenEnd)

/-- One unit, or two of which the first opens a pair.  A unit that opens a pair with no other
behind it is a null character. -/
def readJoined : UnicodeRule := fun cs => do
  let (u, rest) ← readUnit cs
  if isHighSurrogate u then
    match rest with
    | '\\' :: 'u' :: rest => do
      let (v, rest) ← readUnit rest
      if v < 0xDC00 then .error (.unexpected '\\')
      else .ok ([Char.ofNat (((u - 0xD800) * 1024 ||| (v - 0xDC00)) + 0x10000)], rest)
    | _ => .ok (['\x00'], rest)
  else if isLowSurrogate u then .error (.unexpected '\\')
  else .ok ([Char.ofNat u], rest)

/-- Numbers of 64 bits, words that are whole tokens, and pairs of units of which the first one
decides. -/
def Lexicon.bounded : Lexicon where
  number := readBoundedNumber
  wordEnd := Place.endToken
  unicode := readJoined
  nameUnicode := readJoined

end HttpApp.Json
