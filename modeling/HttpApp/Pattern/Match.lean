/-
  HttpApp/Pattern/Match.lean --- matching paths and building them.

  A path is cut at its slashes, and its segments are compared with those of the
  pattern from the left, each once.  Bound values are percent-decoded.  `build`
  goes the other way: it makes the path that binds given values.
-/
import HttpApp.Pattern.Basic
import HttpApp.Text.Percent

set_option autoImplicit false

namespace HttpApp.Pattern

/-- Names with their values, in the order of the pattern. -/
abbrev Captures : Type := List (String × String)

/-! ## Matching -/

/-- A path without one slash at its end, and whether it had one; a lone slash stays. -/
def splitTrailingSlash (path : List Char) : List Char × Bool :=
  if endsInSlash path then (path.dropLast, true) else (path, false)

/-- The segments of a path: what stands between its slashes, the one in front aside. -/
def pathTokens (path : List Char) : List (List Char) :=
  let rest := match path with
    | '/' :: rest => rest
    | path => path
  if rest.isEmpty then [] else Text.pieces '/' rest

/-- A text in percent encoding, decoded. -/
def decode (cs : List Char) : String := Percent.decode (String.ofList cs)

/-- Whether a segment of a path is the fixed text of a pattern. -/
def fixedMatches (caseSensitive : Bool) (text : String) (token : List Char) : Bool :=
  let decoded := decode token
  (if caseSensitive then decoded else Text.toLowercase decoded) == text

/-- Matches segments with what is left of a path.  `suffix` is what a wildcard binds after
the segments, and `ends` whether the path may end with the pattern. -/
def matchSegments (caseSensitive : Bool) (suffix : List Char) (ends : Bool) :
    List Segment → List (List Char) → Option Captures
  | [], [] => if ends then some [] else none
  | [], _ :: _ => none
  | .wildcard name :: _, tokens => some [(name, decode (['/'].intercalate tokens ++ suffix))]
  | .fixed _ :: _, [] => none
  | .fixed text :: segments, token :: tokens =>
    if fixedMatches caseSensitive text token then
      matchSegments caseSensitive suffix ends segments tokens
    else none
  | .variable _ :: _, [] => none
  | .variable name :: segments, token :: tokens =>
    if token.isEmpty then none
    else (matchSegments caseSensitive suffix ends segments tokens).map ((name, decode token) :: ·)

/-- The values that a raw path binds, if the pattern matches it. -/
def match? (p : Pattern) (path : String) : Option Captures :=
  let (body, trailing) := splitTrailingSlash path.toList
  let lenient := p.options.ignoreTrailingSlash
  matchSegments p.options.caseSensitive (if trailing && !lenient then ['/'] else [])
    (lenient || trailing == endsInSlash p.raw.toList) p.segments (pathTokens body)

/-- Whether a pattern matches a raw path. -/
def accepts (p : Pattern) (path : String) : Bool := (p.match? path).isSome

/-! ## Building -/

/-- The segment of a path that binds the value of its name, or that is the text of the
pattern; a wildcard without a value has none. -/
def buildSegment (values : String → String) (token : List Char) : Segment → Option (List Char)
  | .fixed _ => some (Percent.encode (String.ofList token)).toList
  | .variable name => some (Percent.encode (values name)).toList
  | .wildcard name => if (values name).isEmpty then none else some (Percent.encode (values name)).toList

/-- The segments of the path that binds the given values. -/
def buildSegments (values : String → String) (tokens : List (List Char)) (segments : List Segment) :
    List (List Char) :=
  (tokens.zip segments).filterMap fun t => buildSegment values t.1 t.2

/-- The path of the given segments, with or without a slash at its end. -/
def pathOf (parts : List (List Char)) (closing : Bool) : List Char :=
  '/' :: ['/'].intercalate parts ++ if closing then ['/'] else []

/-- The path that binds the given values. -/
def build (p : Pattern) (values : String → String) : String :=
  String.ofList (pathOf (buildSegments values (tokens p.raw) p.segments)
    (!p.segments.any Segment.isWildcard && endsInSlash p.raw.toList))

end HttpApp.Pattern
