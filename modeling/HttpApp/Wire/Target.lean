/-
  HttpApp/Wire/Target.lean --- the targets of requests.

  A client names what it wants by a path with a query, by a whole address with a
  scheme and a host, by a host alone, or by a star.  What counts for the
  application is the path and the query; a fragment is cut off.
-/
import HttpApp.Text.Cut
import HttpApp.Text.Utf8

set_option autoImplicit false

namespace HttpApp.Wire

def isPathChar (c : Char) : Bool :=
  let n := c.toNat
  0x21 ≤ n && c != '<' && c != '>' && c != '\x60' && n != 0x7F

def isQueryChar (c : Char) : Bool :=
  let n := c.toNat
  0x21 ≤ n && c != '"' && c != '<' && c != '>' && n != 0x7F

/-- Characters of hosts, with a port and the name of a user. -/
def isHostChar (c : Char) : Bool := c.isAlphanum || "-._~!$&'()*+,;=:@[]%".toList.contains c

/-- What stands in front of a fragment. -/
def withoutFragment (cs : List Char) : List Char := cs.takeWhile (· != '#')

/-- A path with a query, if all of its characters may stand there. -/
def readPathAndQuery? (cs : List Char) : Option (List Char) :=
  let cs := withoutFragment cs
  let allowed := match Text.cutAt? '?' cs with
    | some (path, query) => path.all isPathChar && query.all isQueryChar
    | none => cs.all isPathChar
  if allowed then some cs else none

/-- A path with a query behind a host, where the path may be left out. -/
def readBehindHost? (cs : List Char) : Option (List Char) :=
  match withoutFragment cs with
  | [] => some ['/']
  | '/' :: _ => readPathAndQuery? cs
  | _ => (readPathAndQuery? cs).map ('/' :: ·)

/-- The path and the query that a target names; a host alone names an empty path. -/
def readTarget? (cs : List Char) : Option (List Char) :=
  match cs with
  | [] => none
  | ['*'] => some ['*']
  | '/' :: _ => readPathAndQuery? cs
  | _ =>
    let isEnd (c : Char) : Bool := c == '/' || c == '?' || c == '#'
    match Text.cut? "://".toList cs with
    | some (scheme, rest) =>
      let host := rest.takeWhile fun c => !isEnd c
      if !scheme.isEmpty && scheme.all Char.isAlphanum && !host.isEmpty && host.all isHostChar then
        readBehindHost? (rest.dropWhile fun c => !isEnd c)
      else none
    | none => if cs.all isHostChar then some [] else none

end HttpApp.Wire
