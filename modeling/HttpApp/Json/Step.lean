/-
  HttpApp/Json/Step.lean --- the smallest steps of reading JSON.

  A place in a text is what lies ahead of it and how many bytes lie behind it.  A
  step takes a part of the text that starts at a place and returns the place
  behind it, or says why no such part starts there.
-/
import HttpApp.Number.Numeral
import HttpApp.Text.Ranges
import HttpApp.Text.Utf8

set_option autoImplicit false

namespace HttpApp.Json

/-! ## Places and faults -/

/-- A place in a text. -/
structure Place where
  /-- the bytes in front of the place -/
  offset : Nat
  /-- the characters from the place on -/
  ahead : List Char
  deriving DecidableEq, Repr, Inhabited

/-- Why bytes are no JSON text. -/
inductive Fault where
  /-- they are not UTF-8 -/
  | encoding (fault : Utf8.Fault)
  /-- the text ends inside a value -/
  | unfinished
  /-- a character stands where the grammar has none like it -/
  | unexpected (c : Char)
  /-- a number does not fit -/
  | numberRange
  deriving DecidableEq, Repr, Inhabited

/-- The wording of a fault. -/
def Fault.message : Fault → String
  | .encoding fault => fault.message
  | .unfinished => "unexpected end of JSON text"
  | .unexpected c => "unexpected character " ++ String.ofList [c] ++ " in JSON text"
  | .numberRange => "JSON number out of range"

/-- The fault of a text that should go on in another way. -/
def Place.fault (p : Place) : Fault :=
  match p.ahead with
  | [] => .unfinished
  | c :: _ => .unexpected c

/-- A step: a part of the text and the place behind it. -/
abbrev Step (α : Type) : Type := Place → Except Fault (α × Place)

/-! ## Blanks, words and tokens -/

/-- The four characters that may stand between the parts of a text. -/
def isSpace (c : Char) : Bool := c == ' ' || c == '\n' || c == '\r' || c == '\t'

/-- The characters that open, close and separate the parts of lists and objects. -/
def isStructural (c : Char) : Bool :=
  c == '\x7b' || c == '\x7d' || c == '[' || c == ']' || c == ':' || c == ','

/-- The next place with no blank ahead. -/
def Place.skipSpaces (p : Place) : Place :=
  let (blanks, rest) := p.ahead.span isSpace
  ⟨p.offset + blanks.length, rest⟩

/-- The place behind the letters of a word. -/
def Place.expect : List Char → Place → Except Fault Place
  | [], p => .ok p
  | w :: ws, ⟨offset, c :: cs⟩ =>
    if w = c then Place.expect ws ⟨offset + c.utf8Size, cs⟩ else .error (.unexpected c)
  | _ :: _, ⟨_, []⟩ => .error .unfinished

/-- The place where a token ends that goes on at `offset`: the next blank, structural character
or quote; a quote behind a backslash ends no token. -/
def passToken (escaped : Bool) (offset : Nat) : List Char → Place
  | [] => ⟨offset, []⟩
  | c :: cs =>
    if isSpace c || isStructural c || (c == '"' && !escaped) then ⟨offset, c :: cs⟩
    else passToken (c == '\\' && !escaped) (offset + c.utf8Size) cs

/-- The place where the token ends that goes on here. -/
def Place.tokenEnd (p : Place) : Place := passToken false p.offset p.ahead

/-- The end of a token that has to end here: with the text, at a blank, at a structural
character or at a null character. -/
def Place.endToken (p : Place) : Except Fault Place :=
  match p.ahead with
  | [] => .ok p
  | c :: _ => if isSpace c || isStructural c || c == '\x00' then .ok p.tokenEnd else .error p.fault

/-! ## Numbers -/

/-- One or more digits. -/
def readDigits : Step (List Nat) := fun p =>
  match Numeral.digitRun p.ahead with
  | ([], _) => .error p.fault
  | (ds, rest) => .ok (ds, ⟨p.offset + ds.length, rest⟩)

/-- The whole part of a number: a zero, or digits that start with another one. -/
def readWhole : Step (List Nat) := fun p =>
  match p.ahead with
  | '0' :: rest => .ok ([0], ⟨p.offset + 1, rest⟩)
  | _ => readDigits p

/-- The fraction of a number; none where no point follows. -/
def readFraction : Step (Option (List Nat)) := fun p =>
  match p.ahead with
  | '.' :: rest => do
    let (ds, p) ← readDigits ⟨p.offset + 1, rest⟩
    .ok (some ds, p)
  | _ => .ok (none, p)

/-- Whether a sign is a minus, where there may be one or none. -/
def readSign (p : Place) : Bool × Place :=
  match p.ahead with
  | '-' :: rest => (true, ⟨p.offset + 1, rest⟩)
  | '+' :: rest => (false, ⟨p.offset + 1, rest⟩)
  | _ => (false, p)

/-- The power of ten of a number; none where no letter follows. -/
def readPower : Step (Option (Bool × List Nat)) := fun p =>
  match p.ahead with
  | [] => .ok (none, p)
  | c :: rest =>
    if c = 'e' ∨ c = 'E' then do
      let (negative, p) := readSign ⟨p.offset + 1, rest⟩
      let (ds, p) ← readDigits p
      .ok (some (negative, ds), p)
    else .ok (none, p)

/-- A number with the given sign, in its parts. -/
def readNumeral (negative : Bool) : Step Numeral := fun p => do
  let (whole, p) ← readWhole p
  let (fraction, p) ← readFraction p
  let (power, p) ← readPower p
  .ok (⟨negative, whole, fraction, power⟩, p)

/-! ## Strings -/

/-- Four digits of base sixteen. -/
def readUnit : List Char → Except Fault (Nat × List Char)
  | a :: b :: c :: d :: rest =>
    match Text.hexDigit? a, Text.hexDigit? b, Text.hexDigit? c, Text.hexDigit? d with
    | some w, some x, some y, some z => .ok (w * 4096 + x * 256 + y * 16 + z, rest)
    | _, _, _, _ => .error (.unexpected a)
  | cs => .error ((Place.mk 0 cs).fault)

/-- Whether a unit opens a pair. -/
def isHighSurrogate (u : Nat) : Bool := 0xD800 ≤ u && u < 0xDC00

/-- Whether a unit closes a pair. -/
def isLowSurrogate (u : Nat) : Bool := 0xDC00 ≤ u && u < 0xE000

/-- How an escape is read behind its `\u`: the characters that it stands for, and the rest. -/
abbrev UnicodeRule : Type := List Char → Except Fault (List Char × List Char)

/-- The characters of a string up to its closing quote as they are written, in reverse order
behind `done`; behind a backslash a quote closes nothing. -/
def takeWritten (done : List Char) (escaped : Bool) (offset : Nat) :
    List Char → Except Fault (List Char × Place)
  | [] => .error .unfinished
  | c :: cs =>
    if c = '"' ∧ escaped = false then .ok (done, ⟨offset + 1, cs⟩)
    else takeWritten (c :: done) (c == '\\' && !escaped) (offset + c.utf8Size) cs

/-- The characters that written ones stand for, in reverse order behind `done`; at most `fuel`
characters and escapes are read. -/
def readWritten (unicode : UnicodeRule) (done : List Char) :
    Nat → List Char → Except Fault (List Char)
  | _, [] => .ok done
  | 0, c :: _ => .error (.unexpected c)
  | fuel + 1, '\\' :: cs =>
    match cs with
    | '"' :: rest => readWritten unicode ('"' :: done) fuel rest
    | '\\' :: rest => readWritten unicode ('\\' :: done) fuel rest
    | '/' :: rest => readWritten unicode ('/' :: done) fuel rest
    | 'b' :: rest => readWritten unicode ('\x08' :: done) fuel rest
    | 'f' :: rest => readWritten unicode ('\x0c' :: done) fuel rest
    | 'n' :: rest => readWritten unicode ('\n' :: done) fuel rest
    | 'r' :: rest => readWritten unicode ('\r' :: done) fuel rest
    | 't' :: rest => readWritten unicode ('\t' :: done) fuel rest
    | 'u' :: rest => do
      let (s, rest) ← unicode rest
      readWritten unicode (s.reverse ++ done) fuel rest
    | _ => .error (.unexpected '\\')
  | fuel + 1, c :: cs =>
    if c.toNat < 32 then .error (.unexpected c) else readWritten unicode (c :: done) fuel cs

/-- A string, behind its opening quote. -/
def readText (unicode : UnicodeRule) : Step String := fun p => do
  let (written, p) ← takeWritten [] false p.offset p.ahead
  let s ← readWritten unicode [] written.length written.reverse
  .ok (String.ofList s.reverse, p)

end HttpApp.Json
