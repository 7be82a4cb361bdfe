/-
  HttpApp/Proofs/Pattern/Tails.lean --- variables and a wildcard behind the same segments.

  Both take what the segments in front of them leave of a path: variables one by one,
  a wildcard all at once.  A wildcard decodes what it takes as a whole, and as slashes
  are decoded by themselves, it binds the values of the variables, joined with slashes.
  Main statement: `wildcard_agrees`.
-/
import HttpApp.Proofs.Pattern.Grammar
import HttpApp.Proofs.Pattern.Matching
import HttpApp.Proofs.Text.Decoding

set_option autoImplicit false

namespace HttpApp.Pattern

/-! ## Decoding a tail -/

theorem decode_append (front behind : List Char) :
    decode (front ++ '/' :: behind) = decode front ++ "/" ++ decode behind := by
  have hbytes : Bytes.ofText (String.ofList (front ++ '/' :: behind)) =
      Bytes.ofText (String.ofList front) ++ 47 :: Bytes.ofText (String.ofList behind) := by
    simp only [Bytes.ofText, String.toList_ofList, List.flatMap_append, List.flatMap_cons]
    rfl
  apply String.toList_injective
  rw [decode, Percent.decode, hbytes, Percent.decodeBytes_append (by decide) (by decide),
    Utf8.lossy_append (by decide), String.toList_append, Utf8.lossy_cons (by decide),
    String.toList_append, String.toList_append, List.append_assoc]
  rfl

/-- What is joined is decoded part by part. -/
theorem decode_intercalate (tokens : List (List Char)) :
    decode (['/'].intercalate tokens) = "/".intercalate (tokens.map decode) := by
  induction tokens with
  | nil => rfl
  | cons token tokens ih =>
    cases tokens with
    | nil => simp
    | cons token' tokens =>
      rw [List.intercalate_cons_cons, List.append_assoc, List.singleton_append, decode_append, ih]
      simp only [List.map_cons, String.intercalate_cons_cons]

/-! ## Longer patterns -/

/-- The text of a pattern, with variables behind it. -/
def withVariables (text : String) (names : List String) : String :=
  names.foldl (fun text name => text ++ "/:" ++ name) text

/-- The text of a pattern, with a wildcard behind it. -/
def withWildcard (text name : String) : String := text ++ "/*" ++ name

theorem IsName.slash_notMem {name : List Char} (h : IsName name) : '/' ∉ name := by
  intro hmem
  exact absurd (h.chars _ hmem) (by decide)

/-- A segment behind a text is a token of its own. -/
theorem tokens_append {c : Char} {name : List Char} (hc : c ≠ '/') (h : IsName name)
    (text tail : String) (htail : tail.toList = '/' :: c :: name) :
    tokens (text ++ tail) = tokens text ++ [c :: name] := by
  have htoken : '/' ∉ c :: name := by simp [Ne.symm hc, h.slash_notMem]
  rw [tokens, String.toList_append, htail, Text.pieces_append_cons, List.filter_append,
    Text.pieces_eq_singleton htoken]
  rfl

theorem tokens_withVariables {names : List String} (h : ∀ name ∈ names, IsName name.toList)
    (text : String) :
    tokens (withVariables text names) = tokens text ++ names.map fun name => ':' :: name.toList := by
  induction names generalizing text with
  | nil => simp [withVariables]
  | cons name names ih =>
    obtain ⟨hname, h⟩ := List.forall_mem_cons.mp h
    have htoken : tokens (text ++ "/:" ++ name) = tokens text ++ [':' :: name.toList] := by
      rw [String.append_assoc]
      exact tokens_append (by decide) hname text ("/:" ++ name) (by simp)
    rw [withVariables, List.foldl_cons, ← withVariables, ih h, htoken, List.append_assoc]
    rfl

theorem tokens_withWildcard {name : String} (h : IsName name.toList) (text : String) :
    tokens (withWildcard text name) = tokens text ++ ['*' :: name.toList] := by
  rw [withWildcard, String.append_assoc]
  exact tokens_append (by decide) h text ("/*" ++ name) (by simp)

theorem meaning_variable (caseSensitive : Bool) (name : String) :
    meaning caseSensitive (':' :: name.toList) = .variable name := by
  rw [meaning, String.ofList_toList]

theorem meaning_wildcard (caseSensitive : Bool) {name : String} (h : name.toList ≠ []) :
    meaning caseSensitive ('*' :: name.toList) = .wildcard name := by
  obtain ⟨c, rest, hname⟩ := List.exists_cons_of_ne_nil h
  rw [hname, ← String.ofList_toList (s := name), hname]
  rfl

/-- Tokens behind a pattern without a wildcard go on with it, if they bind other names. -/
theorem isGrammatical_append {front behind : List (List Char)} (hfront : IsGrammatical front)
    (hopen : ∀ token ∈ front, token.head? ≠ some '*') (hformed : ∀ token ∈ behind, IsToken token)
    (hlast : ∀ token ∈ behind.dropLast, token.head? ≠ some '*')
    (hdistinct : (behind.filterMap boundName?).Nodup)
    (hfresh : ∀ name ∈ behind.filterMap boundName?, name ∉ front.filterMap boundName?) :
    IsGrammatical (front ++ behind) := by
  refine ⟨?_, ?_, ?_⟩
  · intro token htoken
    exact (List.mem_append.mp htoken).elim (hfront.formed token) (hformed token)
  · intro token htoken
    rw [List.dropLast_append] at htoken
    split at htoken
    · exact hfront.wildcard_last token htoken
    · exact (List.mem_append.mp htoken).elim (hopen token) (hlast token)
  · rw [List.filterMap_append, List.nodup_append]
    refine ⟨hfront.distinct, hdistinct, ?_⟩
    rintro name hmem _ hmem' rfl
    exact hfresh name hmem' hmem

section

variable {text : String} {options : MatchOptions} {p : Pattern}
  (hread : read text options = .ok p)
include hread

theorem names_of_read : p.names = (tokens text).filterMap boundName? := by
  obtain ⟨-, rfl⟩ := read_eq_ok_iff.mp hread
  rw [names, List.filterMap_map]
  exact congrArg (List.filterMap · _) (funext (name?_meaning _))

theorem head?_of_mem_tokens (hclosed : IsClosed p.segments) :
    ∀ token ∈ tokens text, token.head? ≠ some '*' := by
  obtain ⟨-, rfl⟩ := read_eq_ok_iff.mp hread
  intro token htoken hstar
  have hwildcard := hclosed _ (List.mem_map_of_mem htoken)
  rw [(isWildcard_meaning _ _).mpr hstar] at hwildcard
  cases hwildcard

/-- Tokens behind a pattern without a wildcard are read as segments behind its own ones. -/
theorem read_append (hclosed : IsClosed p.segments) {text' : String} {behind : List (List Char)}
    (htokens : tokens text' = tokens text ++ behind)
    (hformed : ∀ token ∈ behind, IsToken token)
    (hlast : ∀ token ∈ behind.dropLast, token.head? ≠ some '*')
    (hdistinct : (behind.filterMap boundName?).Nodup)
    (hfresh : ∀ name ∈ behind.filterMap boundName?, name ∉ p.names) :
    read text' options =
      .ok ⟨withSlash text', p.segments ++ behind.map (meaning options.caseSensitive), options⟩ := by
  rw [names_of_read hread] at hfresh
  have hopen := head?_of_mem_tokens hread hclosed
  obtain ⟨hgrammar, rfl⟩ := read_eq_ok_iff.mp hread
  rw [read_eq_ok_iff, htokens, List.map_append]
  exact ⟨isGrammatical_append hgrammar hopen hformed hlast hdistinct hfresh, rfl⟩

/-- Variables behind a pattern are segments behind its own ones. -/
theorem read_withVariables (hclosed : IsClosed p.segments) {names : List String}
    (hnames : ∀ name ∈ names, IsName name.toList) (hdistinct : names.Nodup)
    (hfresh : ∀ name ∈ names, name ∉ p.names) :
    read (withVariables text names) options =
      .ok ⟨withSlash (withVariables text names), p.segments ++ names.map .variable, options⟩ := by
  have hbound : (names.map fun name => ':' :: name.toList).filterMap boundName? = names := by
    simp [List.filterMap_map, Function.comp_def, boundName?, meaning_variable, Segment.name?]
  have hmeaning : (names.map fun name => ':' :: name.toList).map (meaning options.caseSensitive) =
      names.map .variable := by
    simp [Function.comp_def, meaning_variable]
  rw [← hmeaning]
  refine read_append hread hclosed (tokens_withVariables hnames text) ?_ ?_ ?_ ?_
  · intro token htoken
    obtain ⟨name, hname, rfl⟩ := List.mem_map.mp htoken
    exact .colon (hnames name hname)
  · intro token htoken
    obtain ⟨name, -, rfl⟩ := List.mem_map.mp ((List.dropLast_sublist _).subset htoken)
    simp
  · rwa [hbound]
  · rwa [hbound]

theorem read_withWildcard (hclosed : IsClosed p.segments) {name : String}
    (hname : IsName name.toList) (hfresh : name ∉ p.names) :
    read (withWildcard text name) options =
      .ok ⟨withSlash (withWildcard text name), p.segments ++ [.wildcard name], options⟩ := by
  have hbound : ['*' :: name.toList].filterMap boundName? = [name] := by
    simp [boundName?, meaning_wildcard true hname.ne_nil, Segment.name?]
  rw [← meaning_wildcard options.caseSensitive hname.ne_nil]
  refine read_append hread hclosed (tokens_withWildcard hname text) ?_ ?_ ?_ ?_
  · simpa using IsToken.namedStar hname
  · simp
  · rw [hbound]
    simp
  · rw [hbound]
    simpa using hfresh

end

/-! ## What is bound -/

/-- The segments of a path behind as many as a pattern has. -/
def tail (p : Pattern) (path : String) : List (List Char) :=
  (segmentsOf path).drop p.segments.length

/-- Captures with the same values for the first names; behind them one binds names to parts, and
the other one binds a name to all of these, joined with slashes. -/
def Joins (names parts : List String) (whole : String) (split joined : Captures) : Prop :=
  ∃ (own : Captures) (values : List String), own.map Prod.fst = names ∧
    values.length = parts.length ∧ split = own ++ parts.zip values ∧
    joined = own ++ [(whole, "/".intercalate values)]

/-- A wildcard binds the segments that are left, each decoded, joined with slashes. -/
theorem matchSegments_whole (caseSensitive : Bool) (whole : String)
    (tokens : List (List Char)) :
    matchSegments caseSensitive [] true [.wildcard whole] tokens =
      some [(whole, "/".intercalate (tokens.map decode))] := by
  rw [matchSegments, List.append_nil, decode_intercalate]

/-- A wildcard agrees with variables.

Where slashes at the end do not count, a path that a pattern with variables behind it matches is
matched with a wildcard in their place, which binds their values, joined with slashes; and the
other way round, where the path has as many segments there as there are variables, none of them
empty. -/
theorem wildcard_agrees {text : String} {options : MatchOptions} {p : Pattern}
    (hread : read text options = .ok p) (hlenient : options.ignoreTrailingSlash = true)
    (hclosed : IsClosed p.segments) {parts : List String} {whole : String}
    (hparts : ∀ name ∈ parts, IsName name.toList ∧ name ∉ p.names) (hdistinct : parts.Nodup)
    (hwhole : IsName whole.toList ∧ whole ∉ p.names) :
    ∃ q r, read (withVariables text parts) options = .ok q ∧
      read (withWildcard text whole) options = .ok r ∧
      ∀ path,
        (∀ split, q.match? path = some split →
          ∃ joined, r.match? path = some joined ∧ Joins p.names parts whole split joined) ∧
        ∀ joined, r.match? path = some joined →
          (p.tail path).length = parts.length → [] ∉ p.tail path →
          ∃ split, q.match? path = some split ∧ Joins p.names parts whole split joined := by
  refine ⟨_, _, read_withVariables hread hclosed (fun name h => (hparts name h).1) hdistinct
    fun name h => (hparts name h).2, read_withWildcard hread hclosed hwhole.1 hwhole.2, ?_⟩
  intro path
  rw [match?_of_lenient hlenient, match?_of_lenient hlenient, matchSegments_append _ _ hclosed,
    matchSegments_append _ _ hclosed]
  have hnames : ∀ {own : Captures}, matchSegments options.caseSensitive [] true p.segments
      ((segmentsOf path).take p.segments.length) = some own → own.map Prod.fst = p.names :=
    fun hown => map_fst_of_matchSegments hclosed hown
  simp only [matchSegments_whole, Option.map_some]
  constructor
  · intro split hsplit
    obtain ⟨own, hown, htail⟩ := Option.bind_eq_some_iff.mp hsplit
    obtain ⟨bound, hbound, rfl⟩ := Option.map_eq_some_iff.mp htail
    obtain ⟨hlength, -, rfl⟩ := matchSegments_variables_eq_some_iff.mp hbound
    exact ⟨_, by rw [hown]; rfl, own, _, hnames hown, by simpa using hlength, rfl, rfl⟩
  · intro joined hjoined hlength hsolid
    obtain ⟨own, hown, htail⟩ := Option.bind_eq_some_iff.mp hjoined
    obtain rfl := Option.some.inj htail
    have hbound : matchSegments options.caseSensitive [] true (parts.map .variable) (p.tail path) =
        some (parts.zip ((p.tail path).map decode)) :=
      matchSegments_variables_eq_some_iff.mpr ⟨hlength, hsolid, rfl⟩
    refine ⟨_, ?_, own, (p.tail path).map decode, hnames hown, by simpa using hlength, rfl, rfl⟩
    rw [hown, Option.bind_some]
    exact congrArg (Option.map _) hbound

/-- One of the items of a user. -/
def itemPattern : Pattern where
  raw := "/items/:id"
  segments := [.fixed "items", .variable "id"]
  options := {}

/-- A character that a slash cuts short is replaced on its side of the slash. -/
theorem wildcard_agrees_cut :
    read "/items/:id" {} = .ok itemPattern ∧
      ∃ q r, read (withVariables "/items/:id" ["x", "y"]) {} = .ok q ∧
        read (withWildcard "/items/:id" "rest") {} = .ok r ∧
        r.match? "/items/1/%E2%82/b%2Fc/" = some [("id", "1"), ("rest", "\ufffd/b/c")] ∧
        ∃ split, q.match? "/items/1/%E2%82/b%2Fc/" = some split ∧
          Joins ["id"] ["x", "y"] "rest" split [("id", "1"), ("rest", "\ufffd/b/c")] := by
  have hread : read "/items/:id" {} = .ok itemPattern := rfl
  have hparts : ∀ name ∈ ["x", "y"], IsName name.toList ∧ name ∉ itemPattern.names := by
    simp only [List.forall_mem_cons]
    exact ⟨by decide, by decide, by simp⟩
  obtain ⟨q, r, hq, hr, hagree⟩ := wildcard_agrees hread rfl (by decide) hparts (by decide)
    (show IsName "rest".toList ∧ "rest" ∉ itemPattern.names by decide)
  have hjoined : r.match? "/items/1/%E2%82/b%2Fc/" =
      some [("id", "1"), ("rest", "\ufffd/b/c")] := by
    rw [← Except.ok.inj hr]
    decide
  exact ⟨hread, q, r, hq, hr, hjoined, (hagree _).2 _ hjoined (by decide) (by decide)⟩

end HttpApp.Pattern
