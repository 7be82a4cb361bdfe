/-
  HttpApp/Proofs/Pattern/Matching.lean --- what matching depends on.

  Matching compares the segments of a pattern with those of a path from the left, each
  once.  So segments that stand in front of others take as many of a path as they are,
  and leave the rest to the others; names decide what is bound, but not whether a path
  is matched; and a slash at the end of a path counts only behind a pattern without a
  wildcard, where it decides whether the path is matched, and nothing else.
-/
import HttpApp.Pattern.Match
import Mathlib.Data.List.Forall2

set_option autoImplicit false

namespace HttpApp

/-- Segments that differ in nothing but their names. -/
inductive Segment.SameShape : Segment → Segment → Prop where
  | fixed (text : String) : SameShape (.fixed text) (.fixed text)
  | capture (name name' : String) : SameShape (.variable name) (.variable name')
  | wildcard (name name' : String) : SameShape (.wildcard name) (.wildcard name')

theorem Segment.SameShape.refl (s : Segment) : s.SameShape s := by
  rcases s with text | name | name
  · exact .fixed text
  · exact .capture name name
  · exact .wildcard name name

namespace Pattern

/-- No segment is a wildcard. -/
def IsClosed (segments : List Segment) : Prop := ∀ s ∈ segments, s.isWildcard = false

instance (segments : List Segment) : Decidable (IsClosed segments) :=
  inferInstanceAs (Decidable (∀ s ∈ segments, s.isWildcard = false))

theorem isClosed_cons_iff {s : Segment} {segments : List Segment} :
    IsClosed (s :: segments) ↔ s.isWildcard = false ∧ IsClosed segments :=
  List.forall_mem_cons

/-! ## Paths -/

/-- The slash in front of a path is no part of a segment. -/
theorem pathTokens_cons (rest : List Char) :
    pathTokens ('/' :: rest) = if rest.isEmpty then [] else Text.pieces '/' rest := rfl

theorem pathTokens_of_ne {c : Char} (hc : c ≠ '/') (rest : List Char) :
    pathTokens (c :: rest) = Text.pieces '/' (c :: rest) := by
  unfold pathTokens
  split
  · next heq => exact absurd (List.cons.inj heq).1 hc
  · rfl

/-- The segments of a path, one slash at its end aside. -/
def segmentsOf (path : String) : List (List Char) := pathTokens (splitTrailingSlash path.toList).1

theorem snd_splitTrailingSlash (path : List Char) :
    (splitTrailingSlash path).2 = endsInSlash path := by
  unfold splitTrailingSlash
  split <;> simp_all

/-- Matching looks at the segments of a path and at whether a slash ends it. -/
theorem match?_eq (p : Pattern) (path : String) :
    p.match? path =
      matchSegments p.options.caseSensitive
        (if endsInSlash path.toList && !p.options.ignoreTrailingSlash then ['/'] else [])
        (p.options.ignoreTrailingSlash || endsInSlash path.toList == endsInSlash p.raw.toList)
        p.segments (segmentsOf path) := by
  rw [← snd_splitTrailingSlash]
  rfl

/-- Where slashes at the end do not count, the segments alone are looked at. -/
theorem match?_of_lenient {p : Pattern} (h : p.options.ignoreTrailingSlash = true) (path : String) :
    p.match? path =
      matchSegments p.options.caseSensitive [] true p.segments (segmentsOf path) := by
  rw [match?_eq, h, Bool.not_true, Bool.and_false, Bool.true_or]
  rfl

/-! ## Segments without a wildcard -/

/-- Without a wildcard the end of a path only decides whether it is matched. -/
theorem matchSegments_of_closed {caseSensitive : Bool} (suffix : List Char) (ends : Bool)
    {segments : List Segment} (h : IsClosed segments) (tokens : List (List Char)) :
    matchSegments caseSensitive suffix ends segments tokens =
      if ends then matchSegments caseSensitive [] true segments tokens else none := by
  induction segments generalizing tokens with
  | nil => cases tokens <;> cases ends <;> rfl
  | cons s segments ih =>
    obtain ⟨hs, hclosed⟩ := isClosed_cons_iff.mp h
    rcases s with text | name | name
    · rcases tokens with _ | ⟨token, tokens⟩
      · cases ends <;> rfl
      · simp only [matchSegments, ih hclosed]
        cases ends <;> simp
    · rcases tokens with _ | ⟨token, tokens⟩
      · cases ends <;> rfl
      · simp only [matchSegments, ih hclosed]
        cases ends <;> simp
    · cases hs

/-- Segments in front of others match as many segments of a path as they are, and the others match
the rest. -/
theorem matchSegments_append {caseSensitive : Bool} (suffix : List Char) (ends : Bool)
    {front : List Segment} (h : IsClosed front) (behind : List Segment)
    (tokens : List (List Char)) :
    matchSegments caseSensitive suffix ends (front ++ behind) tokens =
      (matchSegments caseSensitive [] true front (tokens.take front.length)).bind fun own =>
        (matchSegments caseSensitive suffix ends behind (tokens.drop front.length)).map
          (own ++ ·) := by
  induction front generalizing tokens with
  | nil => simp [matchSegments]
  | cons s front ih =>
    obtain ⟨hs, hclosed⟩ := isClosed_cons_iff.mp h
    rcases s with text | name | name
    · rcases tokens with _ | ⟨token, tokens⟩
      · rfl
      · simp only [List.cons_append, List.length_cons, List.take_succ_cons, List.drop_succ_cons,
          matchSegments, ih hclosed]
        split <;> rfl
    · rcases tokens with _ | ⟨token, tokens⟩
      · rfl
      · simp only [List.cons_append, List.length_cons, List.take_succ_cons, List.drop_succ_cons,
          matchSegments, ih hclosed]
        split
        · rfl
        · simp [Option.map_bind, Option.bind_map, Function.comp_def]
    · cases hs

/-- What is bound has the names of the segments, in order. -/
theorem map_fst_of_matchSegments {caseSensitive : Bool} {suffix : List Char} {ends : Bool}
    {segments : List Segment} (h : IsClosed segments) {tokens : List (List Char)}
    {captures : Captures}
    (hmatch : matchSegments caseSensitive suffix ends segments tokens = some captures) :
    captures.map Prod.fst = segments.filterMap Segment.name? := by
  induction segments generalizing tokens captures with
  | nil =>
    rcases tokens with _ | ⟨token, tokens⟩
    · cases ends with
      | true => rw [← Option.some.inj hmatch]; rfl
      | false => cases hmatch
    · cases hmatch
  | cons s segments ih =>
    obtain ⟨hs, hclosed⟩ := isClosed_cons_iff.mp h
    rcases s with text | name | name
    · rcases tokens with _ | ⟨token, tokens⟩
      · cases hmatch
      · rw [matchSegments] at hmatch
        split at hmatch
        · exact ih hclosed hmatch
        · cases hmatch
    · rcases tokens with _ | ⟨token, tokens⟩
      · cases hmatch
      · rw [matchSegments] at hmatch
        split at hmatch
        · cases hmatch
        · obtain ⟨others, hothers, rfl⟩ := Option.map_eq_some_iff.mp hmatch
          rw [List.map_cons, ih hclosed hothers]
          rfl
    · cases hs

/-- Variables match as many segments as they are, none of them empty, and bind them one by one. -/
theorem matchSegments_variables_eq_some_iff {caseSensitive : Bool} {suffix : List Char}
    {names : List String} {tokens : List (List Char)} {captures : Captures} :
    matchSegments caseSensitive suffix true (names.map .variable) tokens = some captures ↔
      tokens.length = names.length ∧ [] ∉ tokens ∧ captures = names.zip (tokens.map decode) := by
  induction names generalizing tokens captures with
  | nil =>
    rcases tokens with _ | ⟨token, tokens⟩
    · simp [matchSegments, eq_comm]
    · simp [matchSegments]
  | cons name names ih =>
    rcases tokens with _ | ⟨token, tokens⟩
    · simp [matchSegments]
    · rw [List.map_cons, matchSegments]
      split
      · next hempty =>
        rw [List.isEmpty_iff.mp hempty]
        simp
      · next hempty =>
        have hne : token ≠ [] := by simpa using hempty
        simp only [Option.map_eq_some_iff, ih, List.length_cons, Nat.add_right_cancel_iff,
          List.mem_cons, not_or, Ne.symm hne, not_false_eq_true, true_and, List.map_cons,
          List.zip_cons_cons]
        constructor
        · rintro ⟨others, ⟨hlength, hsolid, rfl⟩, rfl⟩
          exact ⟨hlength, hsolid, rfl⟩
        · rintro ⟨hlength, hsolid, rfl⟩
          exact ⟨_, ⟨hlength, hsolid, rfl⟩, rfl⟩

/-! ## Names -/

/-- Whether a path is matched does not depend on names, nor on what a wildcard binds. -/
theorem isSome_matchSegments_of_sameShape {caseSensitive : Bool} (suffix suffix' : List Char)
    {ends ends' : Bool} {segments segments' : List Segment}
    (hshape : List.Forall₂ Segment.SameShape segments segments')
    (hends : IsClosed segments → ends = ends') (tokens : List (List Char)) :
    (matchSegments caseSensitive suffix ends segments tokens).isSome =
      (matchSegments caseSensitive suffix' ends' segments' tokens).isSome := by
  induction hshape generalizing tokens with
  | nil =>
    rw [hends (by simp [IsClosed])]
    cases tokens <;> cases ends' <;> rfl
  | cons hs _ ih =>
    cases hs with
    | fixed text =>
      have ih := ih fun h => hends (isClosed_cons_iff.mpr ⟨rfl, h⟩)
      rcases tokens with _ | ⟨token, tokens⟩
      · rfl
      · simp only [matchSegments]
        split
        · exact ih tokens
        · rfl
    | capture name name' =>
      have ih := ih fun h => hends (isClosed_cons_iff.mpr ⟨rfl, h⟩)
      rcases tokens with _ | ⟨token, tokens⟩
      · rfl
      · simp only [matchSegments]
        split
        · rfl
        · rw [Option.isSome_map, Option.isSome_map, ih tokens]
    | wildcard name name' => rfl

end Pattern

end HttpApp
