/-
  HttpApp/Media/Reader.lean --- reading media types.

  A type, a slash, a subtype, and parameters behind semicolons.  The text is kept
  with its type, its names and the value of `charset` in lower case; a list of
  parameters that is empty is cut off.
-/
import HttpApp.Media.Type
import HttpApp.Text.Blank
import HttpApp.Text.Token

set_option autoImplicit false

namespace HttpApp.MediaType

/-- Characters of quoted values. -/
def isQuotable (c : Char) : Bool := 32 ≤ c.toNat && c.toNat != 127

/-- The text of a quoted value up to its closing quote, and the rest.  The first character is
always part of the value. -/
def readQuoted (first : Bool) : List Char → Option (List Char × List Char)
  | [] => none
  | c :: cs =>
    if c = '"' ∧ first = false then some ([], cs)
    else if isQuotable c then (readQuoted false cs).map fun p => (c :: p.1, p.2)
    else none

/-- What stands behind a quoted value: spaces up to a semicolon or the end. -/
def afterQuoted : List Char → Option (List Char × Option (List Char))
  | [] => some ([], none)
  | ';' :: cs => some ([], some cs)
  | ' ' :: cs => (afterQuoted cs).map fun p => (' ' :: p.1, p.2)
  | _ :: _ => none

/-- An unquoted value up to a semicolon or the end; it may be empty only at the end. -/
def readBare (cs : List Char) : Option (List Char × Option (List Char)) :=
  let value := cs.takeWhile Text.isTokenChar
  match cs.dropWhile Text.isTokenChar with
  | [] => some (value, none)
  | ';' :: rest => if value.isEmpty then none else some (value, some rest)
  | _ :: _ => none

structure WrittenParam where
  /-- the spaces in front of the name -/
  lead : List Char
  name : List Char
  value : List Char
  quoted : Bool
  /-- the spaces behind a quoted value -/
  trail : List Char

namespace WrittenParam

/-- The name in lower case. -/
def lowerName (p : WrittenParam) : List Char := p.name.map Char.toLower

/-- Whether the parameter is the one whose value has no case. -/
def isCharset (p : WrittenParam) : Bool := p.lowerName == "charset".toList

/-- The value, that of `charset` in lower case. -/
def plainValue (p : WrittenParam) : List Char :=
  if p.isCharset then p.value.map Char.toLower else p.value

/-- The value with its quotes. -/
def shownValue (p : WrittenParam) : List Char :=
  if p.quoted then '"' :: p.plainValue ++ ['"'] else p.plainValue

/-- The text of a parameter, without the semicolon in front. -/
def text (p : WrittenParam) : List Char := p.lead ++ p.lowerName ++ '=' :: p.shownValue ++ p.trail

/-- The name and the value of a parameter. -/
def pair (p : WrittenParam) : String × String :=
  (String.ofList p.lowerName, String.ofList p.plainValue)

/-- Whether this is the charset UTF-8 behind one space. -/
def isSpacedUtf8 (p : WrittenParam) : Bool :=
  p.lead == [' '] && p.isCharset && p.plainValue == "utf-8".toList

/-- The names and the values of parameters.  Where others follow the charset UTF-8 behind one
space, its value has as many characters as it is shown with, and starts with the quote if there
is one. -/
def pairs : List WrittenParam → List (String × String)
  | [] => []
  | [p] => [p.pair]
  | p :: ps =>
    (if p.isSpacedUtf8 then
      (String.ofList p.lowerName, String.ofList (p.shownValue.take p.plainValue.length))
    else p.pair) :: ps.map pair

end WrittenParam

/-- At most `fuel` parameters that start behind a semicolon.  The list may end with spaces
behind a semicolon, which are kept. -/
def readParams : Nat → List Char → Option (List WrittenParam × Option (List Char))
  | 0, _ => none
  | fuel + 1, cs =>
    let lead := cs.takeWhile (· == ' ')
    let rest := cs.dropWhile (· == ' ')
    if rest.isEmpty then some ([], some lead)
    else
      let name := rest.takeWhile Text.isTokenChar
      match name, rest.dropWhile Text.isTokenChar with
      | _ :: _, '=' :: '"' :: rest => do
        let (value, rest) ← readQuoted true rest
        let (trail, more) ← afterQuoted rest
        go fuel ⟨lead, name, value, true, trail⟩ more
      | _ :: _, '=' :: rest => do
        let (value, more) ← readBare rest
        go fuel ⟨lead, name, value, false, []⟩ more
      | _, _ => none
where
  /-- adds a parameter to those that follow it -/
  go (fuel : Nat) (p : WrittenParam) :
      Option (List Char) → Option (List WrittenParam × Option (List Char))
    | none => some ([p], none)
    | some rest => (readParams fuel rest).map fun q => (p :: q.1, q.2)

/-- A media type of the given parts, with the parameters as written. -/
def assemble (type subtype : List Char) (params : List WrittenParam) (last : Option (List Char)) :
    MediaType :=
  let type := type.map Char.toLower
  let subtype := subtype.map Char.toLower
  let shownParams := params.flatMap fun p => ';' :: p.text
  let shownLast := match last with
    | some spaces => if params.isEmpty then [] else ';' :: spaces
    | none => []
  { shown := String.ofList (type ++ '/' :: subtype ++ shownParams ++ shownLast)
    type := String.ofList type
    fullSubtype := String.ofList subtype
    params := WrittenParam.pairs params }

/-- Reads a media type that has no blanks around it. -/
def readTrimmed? (cs : List Char) : Option MediaType :=
  let type := cs.takeWhile Text.isTokenChar
  match type, cs.dropWhile Text.isTokenChar with
  | _ :: _, '/' :: rest =>
    let subtype := rest.takeWhile Text.isTokenChar
    match rest.dropWhile Text.isTokenChar with
    | [] => some (assemble type subtype [] none)
    | ';' :: rest =>
      if subtype.isEmpty then none
      else (readParams (rest.length + 1) rest).map fun p => assemble type subtype p.1 p.2
    | _ :: _ => none
  | _, _ => none

/-- Reads a media type; blanks around it do not count. -/
def read? (s : String) : Option MediaType := readTrimmed? (Text.trimBlanks s.toList)

end HttpApp.MediaType
