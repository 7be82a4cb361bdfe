/-
  HttpApp/Proofs/Pattern/LetterCase.lean --- upper and lower case in patterns and paths.

  Where case does not matter, fixed texts are put into lower case when a pattern is read,
  and segments of a path when they are compared with them, after they were decoded.  So
  what is equal stays equal, and as the lower case of a text does not depend on the case
  of its ASCII letters, neither does a match.  What is bound is not put into lower case.
  Main statement: `case_policy`.
-/
import HttpApp.Proofs.Pattern.Grammar
import HttpApp.Proofs.Pattern.Matching
import HttpApp.Proofs.Text.LetterCase

set_option autoImplicit false

namespace HttpApp

/-- A segment as it is read where case does not matter. -/
def Segment.folded : Segment → Segment
  | .fixed text => .fixed (Text.toLowercase text)
  | .variable name => .variable name
  | .wildcard name => .wildcard name

namespace Pattern

/-! ## Both readings of a text -/

/-- A pattern for which case does not matter, and what it is where it does. -/
structure Folded (folded exact : Pattern) : Prop where
  raw_eq : folded.raw = exact.raw
  segments_eq : folded.segments = exact.segments.map Segment.folded
  slash_eq : folded.options.ignoreTrailingSlash = exact.options.ignoreTrailingSlash
  folds : folded.options.caseSensitive = false
  distinguishes : exact.options.caseSensitive = true

theorem meaning_false (token : List Char) : meaning false token = (meaning true token).folded := by
  unfold meaning
  split <;> rfl

/-- A text is read where case matters and where it does not, or not at all. -/
theorem exists_folded {text : String} {options : MatchOptions} {p : Pattern}
    (hread : read text options = .ok p) :
    ∃ exact folded, read text { options with caseSensitive := true } = .ok exact ∧
      read text { options with caseSensitive := false } = .ok folded ∧ Folded folded exact := by
  obtain ⟨hgrammar, -⟩ := read_eq_ok_iff.mp hread
  refine ⟨_, _, read_eq_ok_iff.mpr ⟨hgrammar, rfl⟩, read_eq_ok_iff.mpr ⟨hgrammar, rfl⟩, rfl, ?_,
    rfl, rfl, rfl⟩
  rw [List.map_map]
  exact List.map_congr_left fun token _ => meaning_false token

/-! ## What is equal where case matters -/

theorem fixedMatches_folded {text : String} {token : List Char}
    (h : fixedMatches true text token = true) :
    fixedMatches false (Text.toLowercase text) token = true := by
  have heq : decode token = text := eq_of_beq h
  rw [fixedMatches, heq]
  exact beq_self_eq_true _

theorem matchSegments_folded {suffix : List Char} {ends : Bool} {segments : List Segment}
    {tokens : List (List Char)} {captures : Captures}
    (h : matchSegments true suffix ends segments tokens = some captures) :
    matchSegments false suffix ends (segments.map Segment.folded) tokens = some captures := by
  induction segments generalizing tokens captures with
  | nil =>
    cases tokens with
    | nil => exact h
    | cons token tokens => exact h
  | cons s segments ih =>
    rcases s with text | name | name
    · rcases tokens with _ | ⟨token, tokens⟩
      · cases h
      · rw [matchSegments] at h
        split at h
        · next hfixed =>
          rw [List.map_cons, Segment.folded, matchSegments, if_pos (fixedMatches_folded hfixed)]
          exact ih h
        · cases h
    · rcases tokens with _ | ⟨token, tokens⟩
      · cases h
      · rw [matchSegments] at h
        rw [List.map_cons, Segment.folded, matchSegments]
        split at h
        · cases h
        · next hempty =>
          obtain ⟨others, hothers, rfl⟩ := Option.map_eq_some_iff.mp h
          rw [if_neg hempty, ih hothers]
          rfl
    · exact h

theorem Folded.match?_eq_some {folded exact : Pattern} (h : Folded folded exact) {path : String}
    {captures : Captures} (hmatch : exact.match? path = some captures) :
    folded.match? path = some captures := by
  rw [match?_eq, h.distinguishes] at hmatch
  rw [match?_eq, h.folds, h.segments_eq, h.raw_eq, h.slash_eq]
  exact matchSegments_folded hmatch

/-! ## The case of ASCII letters in a path -/

/-- Captures with the ASCII letters of their values in lower case. -/
def lowered (captures : Captures) : Captures :=
  captures.map fun c => (c.1, Text.toAsciiLowercase c.2)

theorem toLower_eq_slash_iff (c : Char) : c.toLower = '/' ↔ c = '/' :=
  Text.toLower_eq_iff (by decide)

theorem endsInSlash_map_toLower (cs : List Char) :
    endsInSlash (cs.map Char.toLower) = endsInSlash cs := by
  rcases cs with _ | ⟨c, _ | ⟨d, cs⟩⟩
  · rfl
  · rfl
  · change (((c :: d :: cs).map Char.toLower).getLast? == some '/') =
      ((c :: d :: cs).getLast? == some '/')
    rw [List.getLast?_map, Bool.eq_iff_iff, beq_iff_eq, beq_iff_eq]
    simp only [Option.map_eq_some_iff, toLower_eq_slash_iff, exists_eq_right]

theorem pathTokens_map_toLower (path : List Char) :
    pathTokens (path.map Char.toLower) = (pathTokens path).map (List.map Char.toLower) := by
  have hpieces := Text.pieces_map toLower_eq_slash_iff
  cases path with
  | nil => rfl
  | cons c rest =>
    by_cases hc : c = '/'
    · subst hc
      have hslash : ('/' :: rest).map Char.toLower = '/' :: rest.map Char.toLower := rfl
      rw [hslash, pathTokens_cons, pathTokens_cons, List.isEmpty_map, hpieces]
      split <;> rfl
    · have hlower : c.toLower ≠ '/' := mt (toLower_eq_slash_iff c).mp hc
      rw [pathTokens_of_ne hc, List.map_cons, pathTokens_of_ne hlower, ← List.map_cons, hpieces]

theorem segmentsOf_toAsciiLowercase (path : String) :
    segmentsOf (Text.toAsciiLowercase path) =
      (segmentsOf path).map (List.map Char.toLower) := by
  rw [segmentsOf, segmentsOf, splitTrailingSlash, splitTrailingSlash,
    Text.toList_toAsciiLowercase, endsInSlash_map_toLower]
  split
  · rw [← List.map_dropLast, pathTokens_map_toLower]
  · exact pathTokens_map_toLower _

theorem toAsciiLowercase_decode (cs : List Char) :
    Text.toAsciiLowercase (decode (cs.map Char.toLower)) = Text.toAsciiLowercase (decode cs) := by
  have hlower : String.ofList (cs.map Char.toLower) =
      Text.toAsciiLowercase (String.ofList cs) := by
    apply String.toList_injective
    rw [Text.toList_toAsciiLowercase, String.toList_ofList, String.toList_ofList]
  rw [decode, decode, hlower, Percent.toAsciiLowercase_decode]

theorem fixedMatches_map_toLower (text : String) (token : List Char) :
    fixedMatches false text (token.map Char.toLower) = fixedMatches false text token := by
  have hlower : Text.toLowercase (decode (token.map Char.toLower)) =
      Text.toLowercase (decode token) := by
    rw [← Text.toLowercase_toAsciiLowercase, toAsciiLowercase_decode,
      Text.toLowercase_toAsciiLowercase]
  simp only [fixedMatches, Bool.false_eq_true, if_false, hlower]

theorem intercalate_map_toLower (tokens : List (List Char)) :
    ['/'].intercalate (tokens.map (List.map Char.toLower)) =
      (['/'].intercalate tokens).map Char.toLower := by
  induction tokens with
  | nil => rfl
  | cons token tokens ih =>
    cases tokens with
    | nil => simp
    | cons token' tokens =>
      rw [List.intercalate_cons_cons]
      simp only [List.map_cons, List.intercalate_cons_cons, List.map_append] at ih ⊢
      rw [ih]
      rfl

theorem matchSegments_map_toLower {suffix : List Char}
    (hsuffix : suffix.map Char.toLower = suffix) (ends : Bool) (segments : List Segment)
    (tokens : List (List Char)) :
    (matchSegments false suffix ends segments (tokens.map (List.map Char.toLower))).map lowered =
      (matchSegments false suffix ends segments tokens).map lowered := by
  induction segments generalizing tokens with
  | nil => cases tokens <;> rfl
  | cons s segments ih =>
    rcases s with text | name | name
    · rcases tokens with _ | ⟨token, tokens⟩
      · rfl
      · rw [List.map_cons, matchSegments, matchSegments, fixedMatches_map_toLower]
        split
        · exact ih tokens
        · rfl
    · rcases tokens with _ | ⟨token, tokens⟩
      · rfl
      · have hcons : ∀ cs, lowered ∘ ((name, decode cs) :: ·) =
            ((name, Text.toAsciiLowercase (decode cs)) :: ·) ∘ lowered := fun cs => rfl
        rw [List.map_cons, matchSegments, matchSegments, List.isEmpty_map]
        split
        · rfl
        · rw [Option.map_map, Option.map_map, hcons, hcons, toAsciiLowercase_decode,
            ← Option.map_map, ← Option.map_map, ih]
    · have hwhole : ['/'].intercalate (tokens.map (List.map Char.toLower)) ++ suffix =
          (['/'].intercalate tokens ++ suffix).map Char.toLower := by
        rw [intercalate_map_toLower, List.map_append, hsuffix]
      simp only [matchSegments, hwhole, Option.map_some, lowered, List.map_cons,
        toAsciiLowercase_decode]

/-- Where case does not matter, lower case of the ASCII letters of a path changes nothing but the
case of ASCII letters in what is bound. -/
theorem match?_toAsciiLowercase {p : Pattern} (h : p.options.caseSensitive = false)
    (path : String) :
    (p.match? (Text.toAsciiLowercase path)).map lowered = (p.match? path).map lowered := by
  rw [match?_eq, match?_eq, h, Text.toList_toAsciiLowercase, endsInSlash_map_toLower,
    segmentsOf_toAsciiLowercase]
  apply matchSegments_map_toLower
  split <;> rfl

/-- Upper and lower case, where they are different and where they are not.

Where case does not matter, a pattern matches what it matches where case matters, and binds the
same.  And paths that differ in nothing but the case of ASCII letters are both matched or both
not; what is bound differs in nothing but that. -/
theorem case_policy {text : String} {options : MatchOptions} {p : Pattern}
    (hread : read text options = .ok p) :
    ∃ exact folded, read text { options with caseSensitive := true } = .ok exact ∧
      read text { options with caseSensitive := false } = .ok folded ∧
      (∀ path captures, exact.match? path = some captures →
        folded.match? path = some captures) ∧
      ∀ path path', Text.toAsciiLowercase path = Text.toAsciiLowercase path' →
        folded.accepts path = folded.accepts path' ∧
          (folded.match? path).map lowered = (folded.match? path').map lowered := by
  obtain ⟨exact, folded, hexact, hfolded, h⟩ := exists_folded hread
  refine ⟨exact, folded, hexact, hfolded, fun path captures hmatch => h.match?_eq_some hmatch, ?_⟩
  intro path path' hsame
  have hmatch : (folded.match? path).map lowered = (folded.match? path').map lowered := by
    rw [← match?_toAsciiLowercase h.folds, hsame, match?_toAsciiLowercase h.folds]
  have haccepts := congrArg Option.isSome hmatch
  rw [Option.isSome_map, Option.isSome_map] at haccepts
  exact ⟨haccepts, hmatch⟩

/-- The page of somebody by name. -/
def personPattern : Pattern where
  raw := "/Users/:name"
  segments := [.fixed "Users", .variable "name"]
  options := {}

/-- The digits of a percent triple have a case of their own, which does not matter either. -/
theorem case_policy_person :
    read "/Users/:name" {} = .ok personPattern ∧
      personPattern.match? "/Users/McK%2FX" = some [("name", "McK/X")] ∧
      Text.toAsciiLowercase "/Users/McK%2FX" = Text.toAsciiLowercase "/uSERS/mcK%2fx" ∧
      ∃ folded, read "/Users/:name" ⟨false, true⟩ = .ok folded ∧
        folded.match? "/Users/McK%2FX" = some [("name", "McK/X")] ∧
        (folded.match? "/uSERS/mcK%2fx").map lowered = some [("name", "mck/x")] := by
  have hread : read "/Users/:name" {} = .ok personPattern := rfl
  have hsame : Text.toAsciiLowercase "/Users/McK%2FX" =
      Text.toAsciiLowercase "/uSERS/mcK%2fx" := by
    apply String.toList_injective
    rw [Text.toList_toAsciiLowercase, Text.toList_toAsciiLowercase]
    decide
  have hvalue : Text.toAsciiLowercase "McK/X" = "mck/x" := by
    apply String.toList_injective
    rw [Text.toList_toAsciiLowercase]
    decide
  obtain ⟨exact, folded, hexact, hfolded, hmatch, hcase⟩ := case_policy hread
  obtain rfl : personPattern = exact := Except.ok.inj (hread.symm.trans hexact)
  have hperson : personPattern.match? "/Users/McK%2FX" = some [("name", "McK/X")] := by decide
  have hbound := hmatch _ _ hperson
  have hlowered := (hcase _ _ hsame).2
  rw [hbound, Option.map_some, lowered, List.map_singleton, hvalue] at hlowered
  exact ⟨hread, hperson, hsame, folded, hfolded, hbound, hlowered.symm⟩

end Pattern

end HttpApp
