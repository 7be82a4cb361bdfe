/-
  HttpApp/Proofs/Pattern/Slashes.lean --- slashes at the end of paths.

  A text is read to the same segments whether such slashes count or not, and a path has
  the same segments with and without one.  What is different is what matching asks for
  besides: a pattern without a wildcard, where they count, asks for a path that ends as
  its own text does; one with a wildcard asks for nothing more, and binds the slash.
  Main statement: `slash_policy`.
-/
import HttpApp.Proofs.Pattern.Grammar
import HttpApp.Proofs.Pattern.Matching

set_option autoImplicit false

namespace HttpApp.Pattern

/-! ## Paths with and without a slash at the end -/

/-- A text is longer than a slash and ends in one. -/
def HasEndSlash (text : String) : Prop := 1 < text.length ∧ text.toList.getLast? = some '/'

instance (text : String) : Decidable (HasEndSlash text) :=
  inferInstanceAs (Decidable (_ ∧ _))

/-- A path starts with a slash and does not end in one, or is a slash alone. -/
def IsBare (path : String) : Prop :=
  path.toList.head? = some '/' ∧ (path = "/" ∨ path.toList.getLast? ≠ some '/')

instance (path : String) : Decidable (IsBare path) :=
  inferInstanceAs (Decidable (_ ∧ (_ ∨ ¬_)))

theorem endsInSlash_iff {text : String} : endsInSlash text.toList = true ↔ HasEndSlash text := by
  rw [HasEndSlash, ← String.length_toList]
  rcases text.toList with _ | ⟨c, _ | ⟨d, cs⟩⟩ <;> simp [endsInSlash]

section

variable {path : String} (h : IsBare path)
include h

theorem IsBare.endsInSlash_eq : endsInSlash path.toList = false := by
  obtain ⟨-, rfl | hlast⟩ := h
  · rfl
  · rw [Bool.eq_false_iff, ne_eq, endsInSlash_iff]
    exact fun hends => hlast hends.2

theorem IsBare.endsInSlash_append : endsInSlash (path ++ "/").toList = true := by
  have hne : path.toList ≠ [] := by
    intro hnil
    simp [IsBare, hnil] at h
  have hlength : 0 < path.length := by
    rw [← String.length_toList]
    exact List.length_pos_iff.mpr hne
  refine endsInSlash_iff.mpr ⟨?_, by simp⟩
  rw [String.length_append]
  exact Nat.lt_add_of_pos_left hlength

/-- A slash at the end of a path is no segment. -/
theorem IsBare.segmentsOf_append : segmentsOf (path ++ "/") = segmentsOf path := by
  rw [segmentsOf, segmentsOf, splitTrailingSlash, if_pos h.endsInSlash_append, splitTrailingSlash,
    if_neg (by simp [h.endsInSlash_eq]), String.toList_append]
  exact congrArg pathTokens (List.dropLast_concat)

end

/-! ## Both readings of a text -/

/-- A pattern for which slashes at the end count, and what it is where they do not. -/
structure Strict (strict lenient : Pattern) : Prop where
  segments_eq : strict.segments = lenient.segments
  caseSensitive_eq : strict.options.caseSensitive = lenient.options.caseSensitive
  counts : strict.options.ignoreTrailingSlash = false
  ignores : lenient.options.ignoreTrailingSlash = true

/-- A text is read where slashes at the end do not count and where they do, or not at all. -/
theorem exists_strict {text : String} {options : MatchOptions} {p : Pattern}
    (hread : read text options = .ok p) :
    ∃ lenient strict, read text { options with ignoreTrailingSlash := true } = .ok lenient ∧
      read text { options with ignoreTrailingSlash := false } = .ok strict ∧
      Strict strict lenient := by
  obtain ⟨hgrammar, -⟩ := read_eq_ok_iff.mp hread
  exact ⟨_, _, read_eq_ok_iff.mpr ⟨hgrammar, rfl⟩, read_eq_ok_iff.mpr ⟨hgrammar, rfl⟩, rfl, rfl,
    rfl, rfl⟩

section

variable {strict lenient : Pattern} (h : Strict strict lenient)
include h

/-- Without a wildcard a path has to end as the pattern does, and nothing else is different. -/
theorem Strict.match?_of_closed (hclosed : IsClosed lenient.segments) (path : String) :
    strict.match? path =
      if endsInSlash path.toList == endsInSlash strict.raw.toList then lenient.match? path
      else none := by
  rw [match?_of_lenient h.ignores, match?_eq, h.counts, Bool.false_or, h.segments_eq,
    h.caseSensitive_eq, matchSegments_of_closed _ _ hclosed]

/-- With a wildcard the end of a path does not decide whether it is matched. -/
theorem Strict.accepts_of_wildcard {name : String}
    (hlast : lenient.segments.getLast? = some (.wildcard name)) (path : String) :
    strict.accepts path = lenient.accepts path := by
  rw [accepts, accepts, match?_eq, match?_of_lenient h.ignores, h.segments_eq, h.caseSensitive_eq]
  refine isSome_matchSegments_of_sameShape _ _ (List.forall₂_same.mpr fun s _ => .refl s) ?_ _
  intro hclosed
  have hwildcard := hclosed _ (List.mem_of_getLast? hlast)
  cases hwildcard

end

/-- Slashes at the end of paths, where they do not count and where they do.

Where they do not count, a path is matched with a slash at its end as without one.  Of these two
paths, where they count, a pattern without a wildcard matches the one that ends as its own text
does, and only that one; and it binds the same.  A pattern with a wildcard matches the same paths,
be it that slashes at the end count or not. -/
theorem slash_policy {text : String} {options : MatchOptions} {p : Pattern}
    (hread : read text options = .ok p) :
    ∃ lenient strict, read text { options with ignoreTrailingSlash := true } = .ok lenient ∧
      read text { options with ignoreTrailingSlash := false } = .ok strict ∧
      (∀ path, IsBare path → lenient.match? (path ++ "/") = lenient.match? path) ∧
      (IsClosed lenient.segments → ∀ path, IsBare path →
        (HasEndSlash strict.raw →
          strict.match? (path ++ "/") = lenient.match? path ∧ strict.match? path = none) ∧
        (¬HasEndSlash strict.raw →
          strict.match? path = lenient.match? path ∧ strict.match? (path ++ "/") = none)) ∧
      ((∃ name, lenient.segments.getLast? = some (.wildcard name)) →
        ∀ path, strict.accepts path = lenient.accepts path) := by
  obtain ⟨lenient, strict, hlenient, hstrict, h⟩ := exists_strict hread
  have hsame : ∀ path, IsBare path → lenient.match? (path ++ "/") = lenient.match? path := by
    intro path hbare
    rw [match?_of_lenient h.ignores, match?_of_lenient h.ignores, hbare.segmentsOf_append]
  refine ⟨lenient, strict, hlenient, hstrict, hsame, ?_, fun ⟨name, hlast⟩ path => h.accepts_of_wildcard hlast path⟩
  intro hclosed path hbare
  rw [h.match?_of_closed hclosed, h.match?_of_closed hclosed, hbare.endsInSlash_append,
    hbare.endsInSlash_eq, hsame path hbare, ← endsInSlash_iff]
  cases endsInSlash strict.raw.toList <;> simp

/-- The page of a user, with a slash at its end. -/
def profilePattern : Pattern where
  raw := "/Users/:id/"
  segments := [.fixed "users", .variable "id"]
  options := ⟨false, true⟩

theorem slash_policy_profile :
    read "/Users/:id/" ⟨false, true⟩ = .ok profilePattern ∧ IsBare "/USERS/7" ∧
      ∃ strict, read "/Users/:id/" ⟨false, false⟩ = .ok strict ∧ HasEndSlash strict.raw ∧
        profilePattern.match? "/USERS/7" = some [("id", "7")] ∧
        strict.match? ("/USERS/7" ++ "/") = some [("id", "7")] ∧
        strict.match? "/USERS/7" = none := by
  have hread : read "/Users/:id/" ⟨false, true⟩ = .ok profilePattern := rfl
  obtain ⟨lenient, strict, hlenient, hstrict, -, hclosed, -⟩ := slash_policy hread
  obtain rfl : profilePattern = lenient := Except.ok.inj (hread.symm.trans hlenient)
  have hraw : HasEndSlash strict.raw := by
    rw [← Except.ok.inj hstrict]
    decide
  have hmatch : profilePattern.match? "/USERS/7" = some [("id", "7")] := by decide
  obtain ⟨hsame, hnone⟩ := (hclosed (by decide) "/USERS/7" (by decide)).1 hraw
  exact ⟨hread, by decide, strict, hstrict, hraw, hmatch, hsame.trans hmatch, hnone⟩

end HttpApp.Pattern
