/-
  HttpApp/Pattern/Basic.lean --- path patterns.

  A pattern is a list of segments: fixed text, a variable that binds one segment
  of a path, or, at the end, a wildcard that binds all that is left.  Reading a
  pattern cuts it at its slashes; empty pieces do not count.
-/
import HttpApp.Text.Cut
import HttpApp.Text.Letters
import HttpApp.Text.Lowercase

set_option autoImplicit false

namespace HttpApp

/-- A segment of a pattern. -/
inductive Segment where
  /-- a text that the path must have; in lower case if case does not matter -/
  | fixed (text : String)
  /-- binds one segment that is not empty -/
  | variable (name : String)
  /-- binds the rest of the path -/
  | wildcard (name : String)
  deriving DecidableEq, Repr, Inhabited

namespace Segment

/-- The name that a segment binds. -/
def name? : Segment → Option String
  | .fixed _ => none
  | .variable name => some name
  | .wildcard name => some name

/-- Whether a segment takes the rest of the path. -/
def isWildcard : Segment → Bool
  | .wildcard _ => true
  | _ => false

/-- The name of a wildcard that is not named. -/
def unnamed : String := "*"

end Segment

/-- How much a pattern leaves open. -/
inductive Specificity where
  /-- nothing -/
  | static
  /-- segments -/
  | variable
  /-- the rest of the path -/
  | wildcard
  deriving DecidableEq, Repr, Inhabited

namespace Specificity

/-- The name of a class where records are shown. -/
def shown : Specificity → String
  | .static => "Static"
  | .variable => "Variable"
  | .wildcard => "Wildcard"

/-- The place of a class in the order from closed to open. -/
def rank : Specificity → Nat
  | .static => 0
  | .variable => 1
  | .wildcard => 2

end Specificity

/-- How paths are compared with patterns. -/
structure MatchOptions where
  /-- upper and lower case are different -/
  caseSensitive : Bool := true
  /-- one slash at the end of a path does not count -/
  ignoreTrailingSlash : Bool := true
  deriving DecidableEq, Repr, Inhabited

/-- A path pattern. -/
structure Pattern where
  /-- the pattern as it was written, with a slash in front -/
  raw : String
  segments : List Segment
  options : MatchOptions
  deriving DecidableEq, Repr, Inhabited

namespace Pattern

/-- The names that a pattern binds, in order. -/
def names (p : Pattern) : List String := p.segments.filterMap Segment.name?

/-- How much a pattern leaves open. -/
def specificity (p : Pattern) : Specificity :=
  if p.segments.any Segment.isWildcard then .wildcard
  else if p.segments.any fun s => s.name?.isSome then .variable
  else .static

/-- Whether a text is more than a slash and ends with one. -/
def endsInSlash (cs : List Char) : Bool :=
  match cs with
  | [] => false
  | [_] => false
  | cs => cs.getLast? == some '/'

/-! ## Reading -/

/-- Why a text is no pattern. -/
inductive Fault where
  /-- something follows a wildcard -/
  | wildcardNotLast
  /-- a name is bound twice -/
  | repeatedName (name : String)
  /-- an opening brace is not closed at the end of its segment -/
  | unbalancedBraces (token : String)
  /-- a name in braces has a constraint -/
  | constrained (token : String)
  /-- a brace stands inside of a segment -/
  | partialSegment (token : String)
  /-- the name of a wildcard has a character that names do not have -/
  | badWildcardName (name : String)
  /-- a variable has no name -/
  | emptyName
  /-- the name of a variable has a character that names do not have -/
  | badName (name : String)
  deriving DecidableEq, Repr, Inhabited

/-- The wording of a fault. -/
def Fault.message : Fault → String
  | .wildcardNotLast => "wildcard must be the last segment"
  | .repeatedName name => "duplicate variable '" ++ name ++ "'"
  | .unbalancedBraces token => "unbalanced braces in '" ++ token ++ "'"
  | .constrained token => "variable constraints are not supported: '" ++ token ++ "'"
  | .partialSegment token => "variables must span a whole segment: '" ++ token ++ "'"
  | .badWildcardName name => "invalid wildcard name '" ++ name ++ "'"
  | .emptyName => "empty variable name"
  | .badName name => "invalid variable name '" ++ name ++ "'"

/-- Characters of names: letters, digits and three signs. -/
def isNameChar (c : Char) : Bool := Text.isAlphanumeric c || c == '_' || c == '-' || c == '.'

/-- A variable of the given name. -/
def readVariable (name : List Char) : Except Fault Segment :=
  if name.isEmpty then .error .emptyName
  else if name.all isNameChar then .ok (.variable (String.ofList name))
  else .error (.badName (String.ofList name))

/-- What stands before a last closing brace. -/
def beforeClosingBrace? (cs : List Char) : Option (List Char) :=
  if cs.getLast? = some '\x7d' then some cs.dropLast else none

def readSegment (caseSensitive : Bool) (token : List Char) : Except Fault Segment :=
  let whole := String.ofList token
  match token with
  | ':' :: name => readVariable name
  | '\x7b' :: inner =>
    match beforeClosingBrace? inner with
    | none => .error (.unbalancedBraces whole)
    | some name => if ':' ∈ name then .error (.constrained whole) else readVariable name
  | token =>
    if '\x7b' ∈ token ∨ '\x7d' ∈ token then .error (.partialSegment whole)
    else match token with
      | ['*'] => .ok (.wildcard Segment.unnamed)
      | '*' :: name =>
        if name.all isNameChar then .ok (.wildcard (String.ofList name))
        else .error (.badWildcardName (String.ofList name))
      | _ => .ok (.fixed (if caseSensitive then whole else Text.toLowercase whole))

/-- The segments of a pattern, of which the given names are bound before. -/
def readSegments (caseSensitive : Bool) (bound : List String) :
    List (List Char) → Except Fault (List Segment)
  | [] => .ok []
  | token :: tokens => do
    let segment ← readSegment caseSensitive token
    if segment.isWildcard && !tokens.isEmpty then .error .wildcardNotLast
    else
      let bound ← match segment.name? with
        | none => .ok bound
        | some name => if name ∈ bound then .error (.repeatedName name) else .ok (name :: bound)
      return segment :: (← readSegments caseSensitive bound tokens)

/-- A text with a slash in front. -/
def withSlash (s : String) : String :=
  match s.toList with
  | '/' :: _ => s
  | cs => String.ofList ('/' :: cs)

/-- The pieces between the slashes of a pattern that are not empty. -/
def tokens (raw : String) : List (List Char) :=
  (Text.pieces '/' raw.toList).filter (!·.isEmpty)

/-- Reads a pattern, to which a slash in front is added where it is missing; a fault comes
with that text. -/
def read (text : String) (options : MatchOptions) : Except (String × Fault) Pattern :=
  let raw := withSlash text
  match readSegments options.caseSensitive [] (tokens raw) with
  | .ok segments => .ok { raw, segments, options }
  | .error fault => .error (raw, fault)

end Pattern

end HttpApp
