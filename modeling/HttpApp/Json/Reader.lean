/-
  HttpApp/Json/Reader.lean --- reading of JSON.

  A text is one value with blanks around it.  What numbers, words and escapes may be
  is a matter of the lexicon; all else is strict.  Members of an object are kept as
  they are written, in order and with all repetitions: `Json.canonical` orders
  them.
-/
import HttpApp.Json.Lexicon

set_option autoImplicit false

namespace HttpApp.Json

section
variable (lexicon : Lexicon)

/-- A word that stands for a value, behind its first letter. -/
def readWord (letters : List Char) (v : Json) : Step Json := fun p => do
  .ok (v, ← lexicon.wordEnd (← p.expect letters))

/-- A name of an object; `outer` says whether the object is the outermost one. -/
def readName (outer : Bool) : Step String := fun p =>
  match p.ahead with
  | '"' :: rest =>
    readText (if outer then lexicon.nameUnicode else lexicon.unicode) ⟨p.offset + 1, rest⟩
  | _ => .error p.fault

mutual

/-- A value that starts at a place, nested at most `fuel` deep in parts; `outer` says whether
nothing is around it. -/
def readValue (outer : Bool) : Nat → Step Json
  | 0, p => .error p.fault
  | fuel + 1, p =>
    match p.ahead with
    | 'n' :: rest => readWord lexicon ['u', 'l', 'l'] .null ⟨p.offset + 1, rest⟩
    | 't' :: rest => readWord lexicon ['r', 'u', 'e'] (.bool true) ⟨p.offset + 1, rest⟩
    | 'f' :: rest => readWord lexicon ['a', 'l', 's', 'e'] (.bool false) ⟨p.offset + 1, rest⟩
    | '"' :: rest => do
      let (s, p) ← readText lexicon.unicode ⟨p.offset + 1, rest⟩
      .ok (.text s, p)
    | '[' :: rest =>
      let p := Place.skipSpaces ⟨p.offset + 1, rest⟩
      match p.ahead with
      | ']' :: rest => .ok (.list [], ⟨p.offset + 1, rest⟩)
      | _ => do
        let (items, p) ← readItems [] fuel p
        .ok (.list items, p)
    | '{' :: rest =>
      let p := Place.skipSpaces ⟨p.offset + 1, rest⟩
      match p.ahead with
      | '}' :: rest => .ok (.object [], ⟨p.offset + 1, rest⟩)
      | _ => do
        let (members, p) ← readMembers outer [] fuel p
        .ok (.object members, p)
    | '-' :: rest => lexicon.number true ⟨p.offset + 1, rest⟩
    | _ => lexicon.number false p

/-- One or more items up to the closing bracket, behind those in `done`, which are in reverse
order. -/
def readItems (done : List Json) : Nat → Step (List Json)
  | 0, p => .error p.fault
  | fuel + 1, p => do
    let (v, p) ← readValue false fuel p
    let p := p.skipSpaces
    match p.ahead with
    | ',' :: rest => readItems (v :: done) fuel (Place.skipSpaces ⟨p.offset + 1, rest⟩)
    | ']' :: rest => .ok ((v :: done).reverse, ⟨p.offset + 1, rest⟩)
    | _ => .error p.fault

/-- One or more members up to the closing brace, behind those in `done`, which are in reverse
order; `outer` says whether the object is the outermost one. -/
def readMembers (outer : Bool) (done : List (String × Json)) :
    Nat → Step (List (String × Json))
  | 0, p => .error p.fault
  | fuel + 1, p => do
    let (name, p) ← readName lexicon outer p
    let p := p.skipSpaces
    match p.ahead with
    | ':' :: rest => do
      let (v, p) ← readValue false fuel (Place.skipSpaces ⟨p.offset + 1, rest⟩)
      let p := p.skipSpaces
      match p.ahead with
      | ',' :: rest =>
        readMembers outer ((name, v) :: done) fuel (Place.skipSpaces ⟨p.offset + 1, rest⟩)
      | '}' :: rest => .ok (((name, v) :: done).reverse, ⟨p.offset + 1, rest⟩)
      | _ => .error p.fault
    | _ => .error p.fault

end

/-- Reads a text that is one value and nothing else; members are as they are written. -/
def readWith (cs : List Char) : Except Fault Json := do
  let (v, p) ← readValue lexicon true (cs.length + 1) (Place.skipSpaces ⟨0, cs⟩)
  match p.skipSpaces.ahead with
  | [] => .ok v
  | _ => .error p.skipSpaces.fault

end

/-- Reads a text with numbers of any size; members are as they are written. -/
def readTree (cs : List Char) : Except Fault Json := readWith .unbounded cs

/-- Reads bytes that are one value with numbers of 64 bits and nothing else, in canonical
form. -/
def read (b : Bytes) : Except Fault Json :=
  match Utf8.decode b with
  | .ok s => (readWith .bounded s.toList).map canonical
  | .error fault => .error (.encoding fault)

end HttpApp.Json
