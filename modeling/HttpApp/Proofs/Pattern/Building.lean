/-
  HttpApp/Proofs/Pattern/Building.lean --- matching undoes building.

  Encoded segments have no slashes, so the path that is built from them is cut into
  them again, with the slash at its end aside.  What a pattern was read from says
  what its segments are: `Pattern.Reads` is the relation.  Main statement: the path
  that is built from values is matched, and binds just these values.
-/
import HttpApp.Pattern.Match

set_option autoImplicit false

namespace HttpApp.Pattern

/-! ## What is read -/

/-- The segments that tokens are read as: a wildcard stands only at the end, and a fixed text is
that of its token, in lower case if case does not matter. -/
inductive Reads (caseSensitive : Bool) : List (List Char) → List Segment → Prop where
  | nil : Reads caseSensitive [] []
  | wildcard (token : List Char) (name : String) : Reads caseSensitive [token] [.wildcard name]
  | capture {tokens : List (List Char)} {segments : List Segment} (token : List Char)
      (name : String) : Reads caseSensitive tokens segments →
      Reads caseSensitive (token :: tokens) (.variable name :: segments)
  | fixed {tokens : List (List Char)} {segments : List Segment} (token : List Char) :
      Reads caseSensitive tokens segments →
      Reads caseSensitive (token :: tokens)
        (.fixed (if caseSensitive then String.ofList token
          else Text.toLowercase (String.ofList token)) :: segments)

theorem readVariable_eq_ok {name : List Char} {segment : Segment}
    (h : readVariable name = .ok segment) : segment = .variable (String.ofList name) := by
  unfold readVariable at h
  split at h
  · simp at h
  · split at h
    · exact (Except.ok.inj h).symm
    · simp at h

theorem text_of_readSegment {caseSensitive : Bool} {token : List Char} {text : String}
    (h : readSegment caseSensitive token = .ok (.fixed text)) :
    text = if caseSensitive then String.ofList token
      else Text.toLowercase (String.ofList token) := by
  unfold readSegment at h
  dsimp only at h
  split at h
  · simpa using readVariable_eq_ok h
  · split at h
    · simp at h
    · split at h
      · simp at h
      · simpa using readVariable_eq_ok h
  · split at h
    · simp at h
    · split at h
      · simp at h
      · split at h <;> simp at h
      · simpa using h.symm

/-- A result behind another one takes that one. -/
theorem exists_of_bind_eq_ok {ε α β : Type} {x : Except ε α} {next : α → Except ε β} {b : β}
    (h : x >>= next = .ok b) : ∃ a, x = .ok a ∧ next a = .ok b := by
  match x, h with
  | .ok a, h => exact ⟨a, rfl, h⟩

/-- What reading the segments behind a token takes. -/
theorem readSegments_cons_eq_ok {caseSensitive : Bool} {bound : List String} {token : List Char}
    {tokens : List (List Char)} {segments : List Segment}
    (h : readSegments caseSensitive bound (token :: tokens) = .ok segments) :
    ∃ segment rest, segments = segment :: rest ∧ readSegment caseSensitive token = .ok segment ∧
      (segment.isWildcard = true → tokens = []) ∧
      (∀ name, segment.name? = some name → name ∉ bound) ∧
      readSegments caseSensitive (segment.name?.toList ++ bound) tokens = .ok rest := by
  rw [readSegments] at h
  obtain ⟨segment, hsegment, h⟩ := exists_of_bind_eq_ok h
  split at h
  · simp at h
  · next hlast =>
    have hwildcard : segment.isWildcard = true → tokens = [] := by simpa using hlast
    dsimp only at h
    split at h
    · next hname =>
      obtain ⟨_, hbound, h⟩ := exists_of_bind_eq_ok h
      obtain rfl := Except.ok.inj hbound
      obtain ⟨rest, hrest, h⟩ := exists_of_bind_eq_ok h
      exact ⟨segment, rest, (Except.ok.inj h).symm, hsegment, hwildcard, by simp [hname],
        by simpa [hname] using hrest⟩
    · next name hname =>
      split at h
      · obtain ⟨_, hbound, -⟩ := exists_of_bind_eq_ok h
        cases hbound
      · next hfresh =>
        obtain ⟨_, hbound, h⟩ := exists_of_bind_eq_ok h
        obtain rfl := Except.ok.inj hbound
        obtain ⟨rest, hrest, h⟩ := exists_of_bind_eq_ok h
        exact ⟨segment, rest, (Except.ok.inj h).symm, hsegment, hwildcard,
          by simpa [hname] using hfresh, by simpa [hname] using hrest⟩

theorem reads_of_readSegments {caseSensitive : Bool} {bound : List String}
    {tokens : List (List Char)} {segments : List Segment}
    (h : readSegments caseSensitive bound tokens = .ok segments) :
    Reads caseSensitive tokens segments := by
  induction tokens generalizing bound segments with
  | nil =>
    obtain rfl : [] = segments := by simpa [readSegments] using h
    exact .nil
  | cons token tokens ih =>
    obtain ⟨segment, rest, rfl, hsegment, hlast, -, hrest⟩ := readSegments_cons_eq_ok h
    match segment with
    | .fixed text =>
      rw [text_of_readSegment hsegment]
      exact .fixed token (ih hrest)
    | .variable name => exact .capture token name (ih hrest)
    | .wildcard name =>
      obtain rfl := hlast rfl
      obtain rfl : [] = rest := by simpa [readSegments] using hrest
      exact .wildcard token name

/-- No name is bound twice. -/
theorem nodup_of_readSegments {caseSensitive : Bool} {bound : List String}
    {tokens : List (List Char)} {segments : List Segment}
    (h : readSegments caseSensitive bound tokens = .ok segments) :
    (segments.filterMap Segment.name?).Nodup ∧
      ∀ name ∈ segments.filterMap Segment.name?, name ∉ bound := by
  induction tokens generalizing bound segments with
  | nil =>
    obtain rfl : [] = segments := by simpa [readSegments] using h
    simp
  | cons token tokens ih =>
    obtain ⟨segment, rest, rfl, -, -, hfresh, hrest⟩ := readSegments_cons_eq_ok h
    obtain ⟨hnodup, hbound⟩ := ih hrest
    cases hname : segment.name? with
    | none =>
      rw [List.filterMap_cons_none hname]
      exact ⟨hnodup, fun name hmem => by simpa [hname] using hbound name hmem⟩
    | some name =>
      rw [List.filterMap_cons_some hname]
      simp only [hname, Option.toList_some, List.singleton_append, List.mem_cons, not_or] at hbound
      refine ⟨List.nodup_cons.2 ⟨fun hmem => (hbound name hmem).1 rfl, hnodup⟩, ?_⟩
      simp only [List.mem_cons, forall_eq_or_imp]
      exact ⟨hfresh name hname, fun name' hmem => (hbound name' hmem).2⟩

/-! ## What is built -/

/-- A segment of a path that is not empty and has no slash. -/
structure Solid (w : List Char) : Prop where
  ne_nil : w ≠ []
  notMem : '/' ∉ w

theorem solid_encode {s : String} (h : s ≠ "") : Solid (Percent.encode s).toList :=
  ⟨fun hnil => h (Percent.toList_encode_eq_nil_iff.1 hnil), Percent.slash_notMem_encode s⟩

theorem decode_encode (s : String) : decode (Percent.encode s).toList = s := by
  rw [decode, String.ofList_toList, Percent.decode_encode]

theorem solid_of_mem_buildSegments {values : String → String} {tokens : List (List Char)}
    {segments : List Segment} (htokens : ∀ token ∈ tokens, token ≠ [])
    (hvalues : ∀ name, .variable name ∈ segments → values name ≠ "") :
    ∀ w ∈ buildSegments values tokens segments, Solid w := by
  intro w hw
  obtain ⟨⟨token, segment⟩, hmem, hsegment⟩ := List.mem_filterMap.1 hw
  obtain ⟨htoken, hsegments⟩ := List.of_mem_zip hmem
  match segment with
  | .fixed text =>
    obtain rfl := Option.some.inj hsegment
    refine solid_encode fun hempty => htokens token htoken ?_
    simpa using congrArg String.toList hempty
  | .variable name =>
    obtain rfl := Option.some.inj hsegment
    exact solid_encode (hvalues name hsegments)
  | .wildcard name =>
    simp only [buildSegment] at hsegment
    split at hsegment
    · simp at hsegment
    · next hne =>
      obtain rfl := Option.some.inj hsegment
      exact solid_encode (by simpa using hne)

/-! ## Cutting what is built -/

/-- Segments that are joined end with something else than a slash. -/
theorem exists_last_of_intercalate {ws : List (List Char)} (hne : ws ≠ [])
    (h : ∀ w ∈ ws, Solid w) :
    ∃ front last, ['/'].intercalate ws = front ++ [last] ∧ last ≠ '/' := by
  induction ws with
  | nil => exact absurd rfl hne
  | cons w ws ih =>
    cases ws with
    | nil =>
      have hw := h w List.mem_cons_self
      refine ⟨w.dropLast, w.getLast hw.ne_nil, ?_, fun heq => hw.notMem ?_⟩
      · rw [List.intercalate_singleton, List.dropLast_concat_getLast]
      · exact heq ▸ List.getLast_mem hw.ne_nil
    | cons w' ws =>
      obtain ⟨front, last, heq, hlast⟩ := ih (List.cons_ne_nil _ _)
        fun v hv => h v (List.mem_cons_of_mem _ hv)
      refine ⟨w ++ ['/'] ++ front, last, ?_, hlast⟩
      rw [List.intercalate_cons_cons, heq, List.append_assoc _ _ [last]]

theorem endsInSlash_concat (c : Char) (front : List Char) (last : Char) :
    endsInSlash (c :: (front ++ [last])) = (last == '/') := by
  cases front with
  | nil => simp [endsInSlash]
  | cons d front => simp [endsInSlash, List.getLast?_cons]

/-- The slash at the end of a path is split off. -/
theorem splitTrailingSlash_pathOf {ws : List (List Char)} (h : ∀ w ∈ ws, Solid w)
    (closing : Bool) : splitTrailingSlash (pathOf ws closing) = (pathOf ws false, closing) := by
  cases closing with
  | true =>
    have hends : endsInSlash (pathOf ws true) = true := by
      simpa [pathOf] using endsInSlash_concat '/' (['/'].intercalate ws) '/'
    rw [splitTrailingSlash, if_pos hends]
    simp only [pathOf, if_true, Bool.false_eq_true, if_false, List.dropLast_concat, List.append_nil]
  | false =>
    have hends : endsInSlash (pathOf ws false) = false := by
      by_cases hne : ws = []
      · subst hne
        rfl
      · obtain ⟨front, last, heq, hlast⟩ := exists_last_of_intercalate hne h
        have hends := endsInSlash_concat '/' front last
        rw [beq_false_of_ne hlast] at hends
        simpa [pathOf, heq] using hends
    rw [splitTrailingSlash, if_neg (by simp [hends])]

/-- The path is cut into the segments that it was built from. -/
theorem pathTokens_pathOf {ws : List (List Char)} (h : ∀ w ∈ ws, Solid w) :
    pathTokens (pathOf ws false) = ws := by
  by_cases hne : ws = []
  · subst hne
    rfl
  · obtain ⟨front, last, heq, -⟩ := exists_last_of_intercalate hne h
    have hrest : ['/'].intercalate ws ≠ [] := by simp [heq]
    simp only [pathTokens, pathOf, Bool.false_eq_true, if_false, List.append_nil]
    rw [if_neg (by simpa using hrest), Text.pieces_intercalate hne fun w hw => (h w hw).notMem]

/-! ## Matching what is built -/

theorem buildSegments_cons (values : String → String) (token : List Char)
    (tokens : List (List Char)) (segment : Segment) (segments : List Segment) :
    buildSegments values (token :: tokens) (segment :: segments) =
      (buildSegment values token segment).toList ++ buildSegments values tokens segments := by
  rw [buildSegments, List.zip_cons_cons, List.filterMap_cons]
  cases buildSegment values token segment <;> rfl

/-- The rest of a path for a wildcard is its value, be it empty or not. -/
theorem decode_rest (values : String → String) (token : List Char) (name : String) :
    decode (['/'].intercalate (buildSegment values token (.wildcard name)).toList) =
      values name := by
  rw [buildSegment]
  split
  · next hempty =>
    rw [String.isEmpty_iff.1 hempty]
    exact decode_encode ""
  · rw [Option.toList_some, List.intercalate_singleton, decode_encode]

/-- The segments that are built are matched with what they were built from. -/
theorem matchSegments_buildSegments {caseSensitive : Bool} {suffix : List Char} {ends : Bool}
    {values : String → String} {tokens : List (List Char)} {segments : List Segment}
    (h : Reads caseSensitive tokens segments)
    (hvalues : ∀ name, .variable name ∈ segments → values name ≠ "")
    (hopen : segments.any Segment.isWildcard = true → suffix = [])
    (hclosed : segments.any Segment.isWildcard = false → ends = true) :
    matchSegments caseSensitive suffix ends segments (buildSegments values tokens segments) =
      some ((segments.filterMap Segment.name?).map fun name => (name, values name)) := by
  induction h with
  | nil =>
    obtain rfl := hclosed rfl
    rfl
  | wildcard token name =>
    obtain rfl := hopen rfl
    have hnil : buildSegments values [] [] = [] := rfl
    rw [buildSegments_cons, hnil, List.append_nil, matchSegments, List.append_nil, decode_rest]
    rfl
  | capture token name _ ih =>
    have hsolid := solid_encode (hvalues name List.mem_cons_self)
    rw [buildSegments_cons, buildSegment, Option.toList_some, List.singleton_append, matchSegments,
      if_neg (by simpa using hsolid.ne_nil), decode_encode,
      ih (fun name h => hvalues name (List.mem_cons_of_mem _ h)) hopen hclosed]
    rfl
  | fixed token _ ih =>
    have hfixed : fixedMatches caseSensitive (if caseSensitive then String.ofList token
        else Text.toLowercase (String.ofList token))
        (Percent.encode (String.ofList token)).toList = true := by
      rw [fixedMatches, decode_encode]
      exact beq_self_eq_true _
    rw [buildSegments_cons, buildSegment, Option.toList_some, List.singleton_append, matchSegments,
      if_pos hfixed, ih (fun name h => hvalues name (List.mem_cons_of_mem _ h)) hopen hclosed]
    rfl

theorem ne_nil_of_mem_tokens {raw : String} {token : List Char} (h : token ∈ tokens raw) :
    token ≠ [] := by
  simpa using (List.mem_filter.1 h).2

/-- Matching undoes building.  A pattern that was read, whatever counts in comparing paths with
it, matches the path that is built from values, of which those for single segments are not empty,
and binds each of its names to its value.  It has no name twice. -/
theorem match?_build {text : String} {options : MatchOptions} {p : Pattern}
    (hread : read text options = .ok p) (values : String → String)
    (hvalues : ∀ name, .variable name ∈ p.segments → values name ≠ "") :
    p.match? (p.build values) = some (p.names.map fun name => (name, values name)) ∧
      p.names.Nodup := by
  obtain ⟨segments, hsegments, rfl⟩ : ∃ segments,
      readSegments options.caseSensitive [] (tokens (withSlash text)) = .ok segments ∧
        p = { raw := withSlash text, segments, options } := by
    simp only [read] at hread
    split at hread
    · next segments heq => exact ⟨segments, heq, (Except.ok.inj hread).symm⟩
    · simp at hread
  refine ⟨?_, (nodup_of_readSegments hsegments).1⟩
  have htokens : ∀ token ∈ tokens (withSlash text), token ≠ [] := fun _ => ne_nil_of_mem_tokens
  have hsolid := solid_of_mem_buildSegments htokens hvalues
  rw [match?, build, String.toList_ofList, splitTrailingSlash_pathOf hsolid]
  dsimp only
  rw [pathTokens_pathOf hsolid]
  refine matchSegments_buildSegments (reads_of_readSegments hsegments) hvalues ?_ ?_
  · intro hopen
    simp [hopen]
  · intro hclosed
    simp [hclosed]

def filesPattern : Pattern where
  raw := "/Files/:user/*path"
  segments := [.fixed "files", .variable "user", .wildcard "path"]
  options := { caseSensitive := false, ignoreTrailingSlash := false }

/-- The values of a user with a slash in its name, and of a file. -/
def filesValues (name : String) : String := if name = "user" then "a/b" else "50%.txt"

theorem match?_build_files :
    read "Files/:user/*path" filesPattern.options = .ok filesPattern ∧
      filesPattern.match? (filesPattern.build filesValues) =
        some [("user", "a/b"), ("path", "50%.txt")] := by
  have hread : read "Files/:user/*path" filesPattern.options = .ok filesPattern := by rfl
  have hvalues : ∀ name, .variable name ∈ filesPattern.segments → filesValues name ≠ "" := by
    intro name _
    unfold filesValues
    split <;> decide
  exact ⟨hread, (match?_build hread filesValues hvalues).1⟩

end HttpApp.Pattern
