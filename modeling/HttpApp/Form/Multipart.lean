/-
  HttpApp/Form/Multipart.lean --- forms with files.

  Parts stand between delimiter lines.  A part has header lines, an empty line and
  a content; its disposition names the field and, for a file, the file.  Reading
  takes the parts one by one and stops at the closing delimiter, behind which
  anything may follow.
-/
import HttpApp.Form.Basic
import HttpApp.Media.Type

set_option autoImplicit false

namespace HttpApp.Multipart

/-- Why a body is no form with files. -/
inductive Fault where
  /-- the media type does not name a boundary -/
  | noBoundary
  /-- the body has no delimiter -/
  | noDelimiter
  /-- a delimiter is followed by neither a line end nor the closing mark -/
  | noLineEnd
  /-- the header lines of a part have no end -/
  | endlessHeaders
  /-- a part has no end -/
  | endlessPart
  /-- a part does not name its field -/
  | unnamedPart
  /-- a text is not UTF-8 -/
  | text (fault : Utf8.Fault)
  deriving DecidableEq, Repr, Inhabited

/-- The wording of a fault. -/
def Fault.message : Fault → String
  | .noBoundary => "missing boundary parameter"
  | .noDelimiter => "boundary not found"
  | .noLineEnd => "expected CRLF after boundary"
  | .endlessHeaders => "unterminated part headers"
  | .endlessPart => "unterminated part"
  | .unnamedPart => "part without a name"
  | .text fault => fault.message

def lineEnd : Bytes := [13, 10]

/-- The bytes of the closing mark, which is also the front of a delimiter. -/
def dashes : Bytes := [45, 45]

def delimiter (boundary : Bytes) : Bytes := dashes ++ boundary

/-! ## Header lines -/

/-- What the header lines of a part say. -/
structure Disposition where
  name : Option String := none
  filename : Option String := none
  contentType : Option String := none
  deriving DecidableEq, Repr, Inhabited

/-- Takes one parameter of a disposition; what is no parameter is passed over. -/
def Disposition.addParam (d : Disposition) (param : List Char) : Disposition :=
  match Text.cutAt? '=' (Text.trimBlanks param) with
  | none => d
  | some (key, value) =>
    let value := String.ofList (Text.trimEnds (· == '"') (Text.trimBlanks value))
    let key := String.ofList (Text.trimBlanks key)
    if key = "name" then { d with name := some value }
    else if key = "filename" then { d with filename := some value }
    else d

/-- Takes one header line; what is no header is passed over. -/
def Disposition.addLine (d : Disposition) (line : List Char) : Disposition :=
  match Text.cutAt? ':' line with
  | none => d
  | some (key, value) =>
    let key := Text.toAsciiLowercase (String.ofList (Text.trimBlanks key))
    let value := Text.trimBlanks value
    if key = "content-disposition" then (Text.pieces ';' value).tail.foldl addParam d
    else if key = "content-type" then { d with contentType := some (String.ofList value) }
    else d

/-- What a block of header lines says. -/
def Disposition.ofLines (text : String) : Disposition := (Text.crlfLines text.toList).foldl addLine {}

/-! ## Parts -/

/-- A part as it stands in a body. -/
structure Part where
  headers : String
  content : Bytes
  deriving DecidableEq, Repr, Inhabited

/-- Adds what a part holds to a form: a file if it names one, and else a text field. -/
def Part.addTo (p : Part) (f : Form) : Except Fault Form :=
  let d := Disposition.ofLines p.headers
  match d.name, d.filename with
  | none, _ => .error .unnamedPart
  | some name, some filename =>
    let contentType := d.contentType.getD MediaType.octetStream.shown
    .ok { f with files := f.files ++ [⟨name, filename, contentType, p.content⟩] }
  | some name, none =>
    match Utf8.decode p.content with
    | .ok text => .ok { f with fields := f.fields ++ [(name, text)] }
    | .error fault => .error (.text fault)

/-- The part that follows a delimiter, and what follows the next delimiter; nothing at the
closing mark. -/
def nextPart (boundary body : Bytes) : Except Fault (Option (Part × Bytes)) := do
  if (Text.after? dashes body).isSome then .ok none
  else match Text.after? lineEnd body with
    | none => .error .noLineEnd
    | some body =>
      match Text.cut? (lineEnd ++ lineEnd) body with
      | none => .error .endlessHeaders
      | some (headers, body) =>
        match Utf8.decode headers with
        | .error fault => .error (.text fault)
        | .ok headers =>
          match Text.cut? (lineEnd ++ delimiter boundary) body with
          | none => .error .endlessPart
          | some (content, rest) => .ok (some (⟨headers, content⟩, rest))

/-- Adds the parts behind a delimiter to a form.  Every part takes bytes away, so that their
number is enough fuel. -/
def readParts (boundary : Bytes) : Nat → Bytes → Form → Except Fault Form
  | 0, _, _ => .error .endlessPart
  | fuel + 1, body, form =>
    match nextPart boundary body with
    | .error fault => .error fault
    | .ok none => .ok form
    | .ok (some (part, rest)) =>
      match part.addTo form with
      | .error fault => .error fault
      | .ok form => readParts boundary fuel rest form

/-- Reads a body with a boundary; what stands before the first delimiter does not count. -/
def read (boundary : String) (body : Bytes) : Except Fault Form :=
  let boundary := Bytes.ofText boundary
  match Text.cut? (delimiter boundary) body with
  | none => .error .noDelimiter
  | some (_, rest) => readParts boundary (rest.length + 1) rest {}

/-! ## Writing -/

/-- What a part of a written form holds. -/
inductive Item where
  /-- a text field -/
  | field (name text : String)
  /-- a file, whose content type may be left out -/
  | file (name filename : String) (contentType : Option String) (bytes : Bytes)
  deriving DecidableEq, Repr, Inhabited

/-- The header lines of an item. -/
def Item.headers : Item → String
  | .field name _ => "Content-Disposition: form-data; name=\"" ++ name ++ "\""
  | .file name filename contentType _ =>
    "Content-Disposition: form-data; name=\"" ++ name ++ "\"; filename=\"" ++ filename ++ "\"" ++
      match contentType with
      | some type => "\r\nContent-Type: " ++ type
      | none => ""

def Item.content : Item → Bytes
  | .field _ text => Bytes.ofText text
  | .file _ _ _ bytes => bytes

/-- A delimiter line and the part behind it, up to the line end before the next delimiter. -/
def Item.write (boundary : Bytes) (item : Item) : Bytes :=
  delimiter boundary ++ lineEnd ++ Bytes.ofText item.headers ++ lineEnd ++ lineEnd ++
    item.content ++ lineEnd

/-- A body of the given items, between a preamble and an epilogue. -/
def write (boundary : String) (preamble epilogue : Bytes) (items : List Item) : Bytes :=
  let boundary := Bytes.ofText boundary
  preamble ++ items.flatMap (Item.write boundary) ++ delimiter boundary ++ dashes ++ epilogue

/-- The form that items make. -/
def formOf (items : List Item) : Form where
  fields := items.filterMap fun
    | .field name text => some (name, text)
    | .file .. => none
  files := items.filterMap fun
    | .field .. => none
    | .file name filename contentType bytes =>
      some ⟨name, filename, contentType.getD MediaType.octetStream.shown, bytes⟩

end HttpApp.Multipart
