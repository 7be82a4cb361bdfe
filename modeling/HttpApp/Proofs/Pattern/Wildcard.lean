/-
  HttpApp/Proofs/Pattern/Wildcard.lean --- what a wildcard binds.

  A path that starts with the fixed segments of a pattern is cut behind them, and what
  a wildcard binds is put together again from the pieces that are left, with the slash
  that was split off the end of the path.  That is the rest of the path as it stands,
  but for one case: where nothing stands behind the slash that closes the last fixed
  segment, that slash is the one at the end of the path, and a wildcard binds it where
  such slashes count.  Main statement: `match?_pathTo`.
-/
import HttpApp.Proofs.Pattern.Grammar
import HttpApp.Proofs.Pattern.Matching

set_option autoImplicit false

namespace HttpApp.Pattern

/-! ## Cutting a path -/

theorem splitTrailingSlash_concat (front : List Char) (c : Char) :
    splitTrailingSlash ('/' :: (front ++ [c])) =
      if c = '/' then ('/' :: front, true) else ('/' :: (front ++ [c]), false) := by
  have hdrop : ('/' :: (front ++ [c])).dropLast = '/' :: front := by
    rw [← List.cons_append, List.dropLast_concat]
  simp only [splitTrailingSlash, endsInSlash_concat, beq_iff_eq, hdrop]

/-- What stands last is joined by one slash with what stands in front of it. -/
theorem intercalate_concat {ws : List (List Char)} (hne : ws ≠ []) (rest : List Char) :
    ['/'].intercalate (ws ++ [rest]) = ['/'].intercalate ws ++ '/' :: rest := by
  induction ws with
  | nil => exact absurd rfl hne
  | cons w ws ih =>
    cases ws with
    | nil => simp [List.intercalate_cons_cons]
    | cons v vs =>
      have ih := ih (List.cons_ne_nil _ _)
      simp only [List.cons_append] at ih
      simp only [List.cons_append, List.intercalate_cons_cons, ih, List.append_assoc]

/-- A path is cut into the segments at its front and into pieces that make up the rest. -/
theorem exists_pathTokens {ws : List (List Char)} (h : ∀ w ∈ ws, Solid w) (rest : List Char) :
    ∃ tail, pathTokens ('/' :: ['/'].intercalate (ws ++ [rest])) = ws ++ tail ∧
      ['/'].intercalate tail = rest := by
  rw [pathTokens_cons]
  split
  · next hempty =>
    -- Nothing stands behind the first slash, so there are no segments, and the rest is empty.
    have hnil : ['/'].intercalate (ws ++ [rest]) = [] := List.isEmpty_iff.mp hempty
    by_cases hne : ws = []
    · subst hne
      rw [List.nil_append, List.intercalate_singleton] at hnil
      exact ⟨[], rfl, hnil.symm⟩
    · rw [intercalate_concat hne] at hnil
      simp at hnil
  · exact ⟨Text.pieces '/' rest, Text.pieces_intercalate_concat (fun w hw => (h w hw).notMem) rest,
      Text.intercalate_pieces '/' rest⟩

/-! ## Matching -/

theorem decode_eq_ofList {cs : List Char} (h : '%' ∉ cs) : decode cs = String.ofList cs :=
  Percent.decode_eq_self (by rwa [String.toList_ofList])

/-- Behind the fixed segments of a pattern a wildcard binds the segments that are left. -/
theorem matchSegments_wildcard {suffix : List Char} {ends : Bool} {texts : List String}
    (h : ∀ text ∈ texts, '%' ∉ text.toList) (name : String) (tail : List (List Char)) :
    matchSegments true suffix ends (texts.map Segment.fixed ++ [.wildcard name])
      (texts.map String.toList ++ tail) =
      some [(name, decode (['/'].intercalate tail ++ suffix))] := by
  induction texts with
  | nil => rfl
  | cons text texts ih =>
    obtain ⟨hplain, h⟩ := List.forall_mem_cons.mp h
    have hfixed : fixedMatches true text text.toList = true := by
      simp [fixedMatches, decode_eq_ofList hplain]
    simp only [List.map_cons, List.cons_append, matchSegments, hfixed, if_true]
    exact ih h

/-- A pattern whose fixed segments stand for themselves in a path, with a wildcard behind them. -/
structure EndsOpen (p : Pattern) (texts : List String) (name : String) : Prop where
  caseSensitive : p.options.caseSensitive = true
  segments : p.segments = texts.map Segment.fixed ++ [.wildcard name]
  plain : ∀ text ∈ texts, '%' ∉ text.toList
  solid : ∀ w ∈ texts.map String.toList, Solid w

/-- The fixed segments of a pattern that was read are not empty and have no slash. -/
theorem endsOpen_of_read {text : String} {options : MatchOptions} {p : Pattern}
    (hread : read text options = .ok p) (hcase : options.caseSensitive = true)
    {texts : List String} {name : String}
    (hsegments : p.segments = texts.map Segment.fixed ++ [.wildcard name])
    (hplain : ∀ text ∈ texts, '%' ∉ text.toList) : p.EndsOpen texts name := by
  obtain ⟨-, rfl⟩ := read_eq_ok_iff.mp hread
  refine ⟨hcase, hsegments, hplain, ?_⟩
  intro w hw
  obtain ⟨fixed, hfixed, rfl⟩ := List.mem_map.mp hw
  have hmem : .fixed fixed ∈ (tokens text).map (meaning options.caseSensitive) := by
    dsimp only at hsegments
    rw [hsegments]
    exact List.mem_append_left _ (List.mem_map_of_mem hfixed)
  obtain ⟨token, htoken, hmeaning⟩ := List.mem_map.mp hmem
  have htext : fixed = String.ofList token := by
    rw [hcase] at hmeaning
    unfold meaning at hmeaning
    split at hmeaning <;> simp_all
  rw [htext, String.toList_ofList]
  exact ⟨ne_nil_of_mem_tokens htoken, Text.sep_notMem_of_mem_pieces (List.mem_filter.mp htoken).1⟩

/-! ## The rest of a path -/

/-- The path of fixed segments with a rest behind them. -/
def pathTo (texts : List String) (rest : String) : String :=
  "/" ++ "/".intercalate texts ++ (if texts = [] then "" else "/") ++ rest

/-- A text without one slash at its end. -/
def withoutLastSlash (s : String) : String :=
  if s.toList.getLast? = some '/' then String.ofList s.toList.dropLast else s

theorem toList_pathTo (texts : List String) (rest : String) :
    (pathTo texts rest).toList =
      '/' :: ['/'].intercalate (texts.map String.toList ++ [rest.toList]) := by
  have hslash : "/".toList = ['/'] := rfl
  by_cases hne : texts = []
  · subst hne
    simp [pathTo]
  · rw [intercalate_concat (by simpa using hne)]
    simp [pathTo, hne, String.toList_intercalate, hslash]

/-- Whether or not there are segments in front of it, the end of the rest ends the path. -/
theorem exists_intercalate_concat (ws : List (List Char)) (front : List Char) (c : Char) :
    ['/'].intercalate (ws ++ [front ++ [c]]) = ['/'].intercalate (ws ++ [front]) ++ [c] := by
  by_cases hne : ws = []
  · simp [hne]
  · simp [intercalate_concat hne]

namespace EndsOpen

variable {p : Pattern} {texts : List String} {name : String}

/-- A wildcard binds the pieces behind the segments, joined again, and the slash that was split
off, where it counts. -/
theorem match?_of_split (h : p.EndsOpen texts name) {path : String} {body : List Char}
    {trailing : Bool} (hsplit : splitTrailingSlash path.toList = (body, trailing))
    {tail : List (List Char)} (htokens : pathTokens body = texts.map String.toList ++ tail) :
    p.match? path = some [(name, decode (['/'].intercalate tail ++
      if trailing && !p.options.ignoreTrailingSlash then ['/'] else []))] := by
  rw [match?, hsplit]
  dsimp only
  rw [h.caseSensitive, h.segments, htokens, matchSegments_wildcard h.plain]

/-- A rest that ends with a slash is bound with or without it. -/
theorem match?_slash (h : p.EndsOpen texts name) {rest : String} {front : List Char}
    (hrest : rest.toList = front ++ ['/']) :
    p.match? (pathTo texts rest) = some [(name, decode (front ++
      if !p.options.ignoreTrailingSlash then ['/'] else []))] := by
  obtain ⟨tail, htokens, htail⟩ := exists_pathTokens h.solid front
  have hsplit : splitTrailingSlash (pathTo texts rest).toList =
      ('/' :: ['/'].intercalate (texts.map String.toList ++ [front]), true) := by
    rw [toList_pathTo, hrest, exists_intercalate_concat, splitTrailingSlash_concat, if_pos rfl]
  rw [h.match?_of_split hsplit htokens, htail, Bool.true_and]

/-- A rest that ends with something else is bound as it is. -/
theorem match?_of_ne (h : p.EndsOpen texts name) {rest : String} {front : List Char} {c : Char}
    (hrest : rest.toList = front ++ [c]) (hc : c ≠ '/') :
    p.match? (pathTo texts rest) = some [(name, decode rest.toList)] := by
  obtain ⟨tail, htokens, htail⟩ := exists_pathTokens h.solid rest.toList
  have hsplit : splitTrailingSlash (pathTo texts rest).toList =
      ('/' :: ['/'].intercalate (texts.map String.toList ++ [rest.toList]), false) := by
    rw [toList_pathTo, hrest, exists_intercalate_concat, splitTrailingSlash_concat, if_neg hc]
  rw [h.match?_of_split hsplit htokens, htail, Bool.false_and, if_neg Bool.false_ne_true,
    List.append_nil]

/-- Behind segments an empty rest leaves the slash in front of it as the end of the path. -/
theorem match?_empty (h : p.EndsOpen texts name) (hne : texts ≠ []) :
    p.match? (pathTo texts "") = some [(name,
      if !p.options.ignoreTrailingSlash then "/" else "")] := by
  have hpath : (pathTo texts "").toList = pathOf (texts.map String.toList) true := by
    rw [toList_pathTo, intercalate_concat (by simpa using hne)]
    rfl
  have hsplit : splitTrailingSlash (pathTo texts "").toList =
      (pathOf (texts.map String.toList) false, true) := by
    rw [hpath, splitTrailingSlash_pathOf h.solid]
  have htokens : pathTokens (pathOf (texts.map String.toList) false) =
      texts.map String.toList ++ [] := by
    rw [pathTokens_pathOf h.solid, List.append_nil]
  rw [h.match?_of_split hsplit htokens, Bool.true_and]
  split <;> rfl

theorem match?_root (h : p.EndsOpen [] name) : p.match? (pathTo [] "") = some [(name, "")] := by
  rw [h.match?_of_split rfl rfl]
  rfl

end EndsOpen

/-- What a wildcard binds behind fixed segments that stand for themselves.

The rest of the path is bound as it stands, be it empty or with slashes anywhere, and without one
slash at its end where such slashes do not count.  One case is different: where they count and
nothing stands behind the slash that closes the last segment, that slash is bound. -/
theorem match?_pathTo {text : String} {options : MatchOptions} {p : Pattern}
    (hread : read text options = .ok p) (hcase : options.caseSensitive = true)
    {texts : List String} {name : String}
    (hsegments : p.segments = texts.map Segment.fixed ++ [.wildcard name])
    (htexts : ∀ text ∈ texts, '%' ∉ text.toList) {rest : String} (hrest : '%' ∉ rest.toList) :
    p.match? (pathTo texts rest) = some [(name,
      if options.ignoreTrailingSlash then withoutLastSlash rest
      else if rest = "" ∧ texts ≠ [] then "/" else rest)] := by
  have h := endsOpen_of_read hread hcase hsegments htexts
  have hoptions : p.options = options := by rw [(read_eq_ok_iff.mp hread).2]
  rcases List.eq_nil_or_concat rest.toList with hnil | ⟨front, c, hconcat⟩
  · obtain rfl : rest = "" := String.toList_eq_nil_iff.mp hnil
    by_cases hne : texts = []
    · subst hne
      rw [h.match?_root]
      simp [withoutLastSlash]
    · rw [h.match?_empty hne, hoptions]
      cases options.ignoreTrailingSlash <;> simp [hne, withoutLastSlash]
  · rw [List.concat_eq_append] at hconcat
    have hne : rest ≠ "" := by
      rintro rfl
      simp at hconcat
    by_cases hc : c = '/'
    · subst hc
      have hfront : '%' ∉ front := fun hmem => hrest (by simp [hconcat, hmem])
      rw [h.match?_slash hconcat, hoptions]
      cases options.ignoreTrailingSlash with
      | true => simp [withoutLastSlash, hconcat, decode_eq_ofList hfront]
      | false => simp [hne, ← hconcat, decode_eq_ofList hrest]
    · rw [h.match?_of_ne hconcat hc, decode_eq_ofList hrest, String.ofList_toList]
      simp [withoutLastSlash, hconcat, hc, hne]

def filesOptions : MatchOptions := { ignoreTrailingSlash := false }

/-- All that stands below two segments. -/
def archivePattern : Pattern where
  raw := "/files/old/*rest"
  segments := [.fixed "files", .fixed "old", .wildcard "rest"]
  options := filesOptions

theorem match?_pathTo_archive :
    read "files/old/*rest" filesOptions = .ok archivePattern ∧
      pathTo ["files", "old"] "/a//b/" = "/files/old//a//b/" ∧
      archivePattern.match? (pathTo ["files", "old"] "/a//b/") = some [("rest", "/a//b/")] := by
  have hread : read "files/old/*rest" filesOptions = .ok archivePattern := rfl
  exact ⟨hread, by decide, match?_pathTo hread rfl rfl (by decide) (by decide)⟩

/-- Not every rest is bound as it stands where slashes at the end count: below a segment the
empty one is not. -/
theorem not_bound_verbatim :
    ¬ ∀ (text : String) (options : MatchOptions) (p : Pattern) (texts : List String)
      (name rest : String), read text options = .ok p → options.caseSensitive = true →
      p.segments = texts.map Segment.fixed ++ [.wildcard name] →
      (∀ text ∈ texts, '%' ∉ text.toList) → '%' ∉ rest.toList →
      p.match? (pathTo texts rest) = some [(name,
        if options.ignoreTrailingSlash then withoutLastSlash rest else rest)] := by
  intro h
  have hmatch := h "/files/*" filesOptions ⟨"/files/*", [.fixed "files", .wildcard "*"], filesOptions⟩
    ["files"] "*" "" rfl rfl rfl (by decide) (by decide)
  revert hmatch
  decide

end HttpApp.Pattern
