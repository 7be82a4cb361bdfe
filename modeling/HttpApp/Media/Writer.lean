/-
  HttpApp/Media/Writer.lean --- media types as clients write them.

  The same media type can be written in many ways: in any case, with values in
  quotes or without, and with spaces around parameters.  A well-formed text is
  made of tokens and of quoted values.
-/
import HttpApp.Media.Reader

set_option autoImplicit false

namespace HttpApp

namespace MediaType.WrittenParam

/-- Whether the parts of a parameter are what they should be.  A value without quotes is a
token; a quoted value is not empty and has no quote behind its first character. -/
def isWellFormed (p : WrittenParam) : Bool :=
  p.lead.all (· == ' ') && p.trail.all (· == ' ') && !p.name.isEmpty &&
    p.name.all Text.isTokenChar && !p.value.isEmpty &&
    if p.quoted then p.value.all isQuotable && !p.value.tail.contains '"'
    else p.value.all Text.isTokenChar && p.trail.isEmpty

/-- The text of a parameter as it is written, without the semicolon in front. -/
def written (p : WrittenParam) : List Char :=
  p.lead ++ p.name ++ '=' :: (if p.quoted then '"' :: p.value ++ ['"'] else p.value) ++ p.trail

end MediaType.WrittenParam

structure WrittenMedia where
  type : List Char
  subtype : List Char
  params : List MediaType.WrittenParam := []

namespace WrittenMedia

/-- Whether the parts of a media type are what they should be. -/
def isWellFormed (w : WrittenMedia) : Bool :=
  !w.type.isEmpty && w.type.all Text.isTokenChar && !w.subtype.isEmpty &&
    w.subtype.all Text.isTokenChar && w.params.all fun p => p.isWellFormed

/-- The text of a media type as it is written. -/
def written (w : WrittenMedia) : List Char :=
  w.type ++ '/' :: w.subtype ++ w.params.flatMap fun p => ';' :: p.written

def media (w : WrittenMedia) : MediaType := .assemble w.type w.subtype w.params none

/-- A list of media types in one line, each with a number of spaces in front and behind. -/
def line (ws : List (Nat × WrittenMedia × Nat)) : List Char :=
  [','].intercalate (ws.map fun w =>
    List.replicate w.1 ' ' ++ w.2.1.written ++ List.replicate w.2.2 ' ')

end WrittenMedia

end HttpApp
