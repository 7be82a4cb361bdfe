/-
  HttpApp/Proofs/Pattern/Grammar.lean --- which texts are patterns.

  `IsToken` lists the kinds of tokens, `meaning` is the segment that a token stands
  for, and `IsGrammatical` says how tokens may stand together: a wildcard comes last,
  and no name comes twice.  Reading tries the kinds one after the other, with faults of
  its own for each; `readSegment_eq_ok_iff` says that it takes the tokens of the
  grammar and no others.  Main statement: `pattern_exact`.
-/
import HttpApp.Proofs.Pattern.Building
import HttpApp.Router

set_option autoImplicit false

namespace HttpApp

namespace Pattern

/-! ## The grammar -/

/-- One or more letters, digits, low lines, hyphens and points. -/
structure IsName (name : List Char) : Prop where
  ne_nil : name ≠ []
  chars : ∀ c ∈ name, isNameChar c = true

instance (name : List Char) : Decidable (IsName name) :=
  decidable_of_iff (name ≠ [] ∧ name.all isNameChar = true)
    ⟨fun h => ⟨h.1, List.all_eq_true.mp h.2⟩, fun h => ⟨h.ne_nil, List.all_eq_true.mpr h.chars⟩⟩

/-- The tokens of patterns. -/
inductive IsToken : List Char → Prop where
  | colon {name : List Char} (h : IsName name) : IsToken (':' :: name)
  | braces {name : List Char} (h : IsName name) : IsToken ('\x7b' :: (name ++ ['\x7d']))
  | star : IsToken ['*']
  | namedStar {name : List Char} (h : IsName name) : IsToken ('*' :: name)
  | fixed {c : Char} {cs : List Char} (hfirst : c ≠ ':' ∧ c ≠ '\x7b' ∧ c ≠ '*')
    (hbraces : '\x7b' ∉ c :: cs ∧ '\x7d' ∉ c :: cs) : IsToken (c :: cs)

/-- The segment that a token stands for. -/
def meaning (caseSensitive : Bool) : List Char → Segment
  | ':' :: name => .variable (String.ofList name)
  | '\x7b' :: inner => .variable (String.ofList inner.dropLast)
  | ['*'] => .wildcard "*"
  | '*' :: name => .wildcard (String.ofList name)
  | token =>
    .fixed (if caseSensitive then String.ofList token else Text.toLowercase (String.ofList token))

/-- The name that a token binds. -/
def boundName? (token : List Char) : Option String := (meaning true token).name?

/-- Tokens that make up a pattern. -/
structure IsGrammatical (tokens : List (List Char)) : Prop where
  formed : ∀ token ∈ tokens, IsToken token
  wildcard_last : ∀ token ∈ tokens.dropLast, token.head? ≠ some '*'
  distinct : (tokens.filterMap boundName?).Nodup

theorem meaning_fixed {c : Char} (h : c ≠ ':' ∧ c ≠ '\x7b' ∧ c ≠ '*') (caseSensitive : Bool)
    (cs : List Char) : meaning caseSensitive (c :: cs) =
      .fixed (if caseSensitive then String.ofList (c :: cs)
        else Text.toLowercase (String.ofList (c :: cs))) := by
  unfold meaning
  split <;> simp_all

theorem name?_meaning (caseSensitive : Bool) (token : List Char) :
    (meaning caseSensitive token).name? = boundName? token := by
  unfold boundName? meaning
  split <;> rfl

/-- The wildcards are the tokens that start with a star. -/
theorem isWildcard_meaning (caseSensitive : Bool) (token : List Char) :
    (meaning caseSensitive token).isWildcard = true ↔ token.head? = some '*' := by
  unfold meaning
  split
  · simp [Segment.isWildcard]
  · simp [Segment.isWildcard]
  · simp [Segment.isWildcard]
  · simp [Segment.isWildcard]
  · next hstar => cases token <;> simp_all [Segment.isWildcard]

/-! ## Reading a token -/

theorem readVariable_eq_ok_iff {name : List Char} {segment : Segment} :
    readVariable name = .ok segment ↔
      IsName name ∧ segment = .variable (String.ofList name) := by
  constructor
  · intro h
    refine ⟨?_, readVariable_eq_ok h⟩
    unfold readVariable at h
    split at h
    · cases h
    · next hne =>
      split at h
      · next hchars => exact ⟨by simpa using hne, by simpa using hchars⟩
      · cases h
  · rintro ⟨⟨hne, hchars⟩, rfl⟩
    simp [readVariable, hne, List.all_eq_true.mpr hchars]

theorem beforeClosingBrace?_eq_some_iff {cs name : List Char} :
    beforeClosingBrace? cs = some name ↔ cs = name ++ ['\x7d'] := by
  unfold beforeClosingBrace?
  constructor
  · intro h
    split at h
    · next hlast =>
      obtain rfl := Option.some.inj h
      obtain ⟨front, rfl⟩ := List.getLast?_eq_some_iff.mp hlast
      simp
    · cases h
  · rintro rfl
    simp

theorem IsName.colon_notMem {name : List Char} (h : IsName name) : ':' ∉ name := by
  intro hmem
  exact absurd (h.chars _ hmem) (by decide)

theorem IsName.braces_notMem {name : List Char} (h : IsName name) :
    '\x7b' ∉ name ∧ '\x7d' ∉ name :=
  ⟨fun hmem => absurd (h.chars _ hmem) (by decide), fun hmem => absurd (h.chars _ hmem) (by decide)⟩

/-- What is read is a token of the grammar. -/
theorem isToken_of_readSegment {caseSensitive : Bool} {token : List Char} {segment : Segment}
    (hne : token ≠ []) (h : readSegment caseSensitive token = .ok segment) :
    IsToken token ∧ segment = meaning caseSensitive token := by
  unfold readSegment at h
  dsimp only at h
  split at h
  · obtain ⟨hname, rfl⟩ := readVariable_eq_ok_iff.mp h
    exact ⟨.colon hname, rfl⟩
  · split at h
    · cases h
    · next name hinner =>
      obtain rfl := beforeClosingBrace?_eq_some_iff.mp hinner
      split at h
      · cases h
      · obtain ⟨hname, rfl⟩ := readVariable_eq_ok_iff.mp h
        exact ⟨.braces hname, by simp [meaning]⟩
  · next hcolon hbrace =>
    split at h
    · cases h
    · next hbraces =>
      rw [not_or] at hbraces
      split at h
      · exact ⟨.star, (Except.ok.inj h).symm⟩
      · next name hstar =>
        split at h
        · next hchars =>
          have hname : IsName name := ⟨fun hnil => hstar (by rw [hnil]), by simpa using hchars⟩
          refine ⟨.namedStar hname, ?_⟩
          rw [← Except.ok.inj h]
          unfold meaning
          split <;> simp_all
        · cases h
      · next hstar hnamed =>
        obtain ⟨c, cs, rfl⟩ := List.exists_cons_of_ne_nil hne
        have hfirst : c ≠ ':' ∧ c ≠ '\x7b' ∧ c ≠ '*' :=
          ⟨fun hc => hcolon cs (by rw [hc]), fun hc => hbrace cs (by rw [hc]),
            fun hc => hnamed cs (by rw [hc])⟩
        refine ⟨.fixed hfirst hbraces, ?_⟩
        rw [meaning_fixed hfirst]
        exact (Except.ok.inj h).symm

/-- A token of the grammar is read as what it stands for. -/
theorem IsToken.readSegment_eq {token : List Char} (h : IsToken token) (caseSensitive : Bool) :
    readSegment caseSensitive token = .ok (meaning caseSensitive token) := by
  cases h with
  | colon hname => exact readVariable_eq_ok_iff.mpr ⟨hname, rfl⟩
  | @braces name hname =>
    have hinner : beforeClosingBrace? (name ++ ['\x7d']) = some name :=
      beforeClosingBrace?_eq_some_iff.mpr rfl
    have hread : readVariable name = .ok (.variable (String.ofList name)) :=
      readVariable_eq_ok_iff.mpr ⟨hname, rfl⟩
    simp [readSegment, meaning, hinner, hname.colon_notMem, hread]
  | star => rfl
  | @namedStar name hname =>
    obtain ⟨c, cs, rfl⟩ := List.exists_cons_of_ne_nil hname.ne_nil
    have hall : (c :: cs).all isNameChar = true := List.all_eq_true.mpr hname.chars
    have hbraces := hname.braces_notMem
    simp only [List.mem_cons, not_or] at hbraces
    simp [readSegment, meaning, hbraces, hall]
  | @fixed c cs hfirst hbraces =>
    rw [meaning_fixed hfirst]
    unfold readSegment
    dsimp only
    split
    · simp_all
    · simp_all
    · rw [if_neg (by simpa using hbraces)]
      split
      · simp_all
      · simp_all
      · rfl

/-- Reading a token that is not empty takes those of the grammar, as what they stand for. -/
theorem readSegment_eq_ok_iff {caseSensitive : Bool} {token : List Char} {segment : Segment}
    (hne : token ≠ []) :
    readSegment caseSensitive token = .ok segment ↔
      IsToken token ∧ segment = meaning caseSensitive token := by
  refine ⟨isToken_of_readSegment hne, ?_⟩
  rintro ⟨htoken, rfl⟩
  exact htoken.readSegment_eq caseSensitive

/-! ## Reading all tokens -/

/-- What stands in front of the last token of a list with one token more. -/
theorem forall_mem_dropLast_cons {α : Type} {P : α → Prop} {a : α} {l : List α} :
    (∀ b ∈ (a :: l).dropLast, P b) ↔ (l ≠ [] → P a) ∧ ∀ b ∈ l.dropLast, P b := by
  cases l with
  | nil => simp
  | cons b l => simp

theorem isGrammatical_cons_iff {token : List Char} {tokens : List (List Char)} :
    IsGrammatical (token :: tokens) ↔
      IsToken token ∧ (token.head? = some '*' → tokens = []) ∧
        (∀ name, boundName? token = some name → name ∉ tokens.filterMap boundName?) ∧
        IsGrammatical tokens := by
  have hnodup : ((token :: tokens).filterMap boundName?).Nodup ↔
      (∀ name, boundName? token = some name → name ∉ tokens.filterMap boundName?) ∧
        (tokens.filterMap boundName?).Nodup := by
    cases hname : boundName? token <;> simp [hname]
  constructor
  · rintro ⟨hformed, hlast, hdistinct⟩
    obtain ⟨htoken, hformed⟩ := List.forall_mem_cons.mp hformed
    obtain ⟨hstar, hlast⟩ := forall_mem_dropLast_cons.mp hlast
    obtain ⟨hfresh, hdistinct⟩ := hnodup.mp hdistinct
    exact ⟨htoken, fun h => Classical.byContradiction fun hne => hstar hne h, hfresh, hformed,
      hlast, hdistinct⟩
  · rintro ⟨htoken, hstar, hfresh, hformed, hlast, hdistinct⟩
    exact ⟨List.forall_mem_cons.mpr ⟨htoken, hformed⟩,
      forall_mem_dropLast_cons.mpr ⟨fun hne h => hne (hstar h), hlast⟩,
      hnodup.mpr ⟨hfresh, hdistinct⟩⟩

/-- A segment comes in front of those of the other tokens, if a wildcard is the last one and its
name is not bound before. -/
theorem readSegments_cons {caseSensitive : Bool} {bound : List String} {token : List Char}
    {tokens : List (List Char)} {segment : Segment} {rest : List Segment}
    (hsegment : readSegment caseSensitive token = .ok segment)
    (hlast : segment.isWildcard = true → tokens = [])
    (hfresh : ∀ name, segment.name? = some name → name ∉ bound)
    (hrest : readSegments caseSensitive (segment.name?.toList ++ bound) tokens = .ok rest) :
    readSegments caseSensitive bound (token :: tokens) = .ok (segment :: rest) := by
  have hwildcard : ¬ (segment.isWildcard && !tokens.isEmpty) = true := by simpa using hlast
  rw [readSegments, hsegment]
  change (if (segment.isWildcard && !tokens.isEmpty) = true then _ else _) = _
  rw [if_neg hwildcard]
  cases hname : segment.name? with
  | none =>
    rw [hname] at hrest
    change (readSegments caseSensitive bound tokens >>= _) = _
    rw [show readSegments caseSensitive bound tokens = .ok rest from hrest]
    rfl
  | some name =>
    rw [hname] at hrest
    dsimp only
    rw [if_neg (hfresh name hname)]
    change (readSegments caseSensitive (name :: bound) tokens >>= _) = _
    rw [show readSegments caseSensitive (name :: bound) tokens = .ok rest from hrest]
    rfl

theorem mem_boundNames_cons_iff {token : List Char} {tokens : List (List Char)} {name : String} :
    name ∈ (token :: tokens).filterMap boundName? ↔
      boundName? token = some name ∨ name ∈ tokens.filterMap boundName? := by
  simp only [List.mem_filterMap, List.mem_cons, exists_eq_or_imp]

/-- Reading takes the tokens that make up a pattern and bind no name that is bound before. -/
theorem readSegments_eq_ok_iff {caseSensitive : Bool} {bound : List String}
    {tokens : List (List Char)} {segments : List Segment} (hne : ∀ token ∈ tokens, token ≠ []) :
    readSegments caseSensitive bound tokens = .ok segments ↔
      IsGrammatical tokens ∧ (∀ name ∈ tokens.filterMap boundName?, name ∉ bound) ∧
        segments = tokens.map (meaning caseSensitive) := by
  induction tokens generalizing bound segments with
  | nil =>
    have hnil : IsGrammatical [] := ⟨by simp, by simp, by simp⟩
    simp [readSegments, hnil, eq_comm]
  | cons token tokens ih =>
    obtain ⟨htoken, hne⟩ := List.forall_mem_cons.mp hne
    rw [isGrammatical_cons_iff]
    constructor
    · intro h
      obtain ⟨segment, rest, rfl, hsegment, hlast, hfresh, hrest⟩ := readSegments_cons_eq_ok h
      obtain ⟨hformed, rfl⟩ := (readSegment_eq_ok_iff htoken).mp hsegment
      obtain ⟨hgrammar, hbound, rfl⟩ := (ih hne).mp hrest
      simp only [name?_meaning, List.mem_append, Option.mem_toList, not_or] at hfresh hbound
      rw [isWildcard_meaning] at hlast
      refine ⟨⟨hformed, hlast, ?_, hgrammar⟩, ?_, rfl⟩
      · exact fun name hname hmem => (hbound name hmem).1 hname
      · intro name hmem
        rcases mem_boundNames_cons_iff.mp hmem with hname | hmem
        · exact hfresh name hname
        · exact (hbound name hmem).2
    · rintro ⟨⟨hformed, hlast, hfresh, hgrammar⟩, hbound, rfl⟩
      refine readSegments_cons ((readSegment_eq_ok_iff htoken).mpr ⟨hformed, rfl⟩)
        (fun hstar => hlast ((isWildcard_meaning _ _).mp hstar)) ?_
        ((ih hne).mpr ⟨hgrammar, ?_, rfl⟩)
      · intro name hname
        rw [name?_meaning] at hname
        exact hbound name (mem_boundNames_cons_iff.mpr (.inl hname))
      · intro name hmem
        rw [name?_meaning, List.mem_append, Option.mem_toList, not_or]
        exact ⟨fun hname => hfresh name hname hmem,
          hbound name (mem_boundNames_cons_iff.mpr (.inr hmem))⟩

/-! ## What a pattern leaves open -/

/-- Where wildcards stand only at the end, the last segment tells whether there is one. -/
theorem any_isWildcard_iff {segments : List Segment}
    (h : ∀ s ∈ segments.dropLast, s.isWildcard = false) :
    segments.any Segment.isWildcard = true ↔
      ∃ name, segments.getLast? = some (.wildcard name) := by
  constructor
  · intro hany
    obtain ⟨s, hs, hwildcard⟩ := List.any_eq_true.mp hany
    obtain ⟨name, rfl⟩ : ∃ name, s = .wildcard name := by
      cases s with
      | wildcard name => exact ⟨name, rfl⟩
      | _ => cases hwildcard
    have hne : segments ≠ [] := List.ne_nil_of_mem hs
    rw [← List.dropLast_concat_getLast hne] at hs
    obtain hs | hs := List.mem_append.mp hs
    · exact absurd (h _ hs) (by simp [Segment.isWildcard])
    · exact ⟨name, by rw [List.getLast?_eq_some_getLast hne, ← List.mem_singleton.mp hs]⟩
  · rintro ⟨name, hlast⟩
    exact List.any_eq_true.mpr ⟨_, List.mem_of_getLast? hlast, rfl⟩

/-- A segment that binds a name is a variable, unless it is a wildcard. -/
theorem any_isSome_name?_iff {segments : List Segment}
    (h : segments.any Segment.isWildcard = false) :
    (segments.any fun s => s.name?.isSome) = true ↔ ∃ name, .variable name ∈ segments := by
  have hclosed := List.any_eq_false.mp h
  rw [List.any_eq_true]
  constructor
  · rintro ⟨s, hs, hname⟩
    rcases s with text | name | name
    · cases hname
    · exact ⟨name, hs⟩
    · exact absurd rfl (hclosed _ hs)
  · rintro ⟨name, hs⟩
    exact ⟨_, hs, rfl⟩

/-- The segments that are neither wildcards nor bind a name are fixed. -/
theorem forall_fixed_iff {segments : List Segment} :
    (∀ s ∈ segments, ∃ text, s = .fixed text) ↔
      segments.any Segment.isWildcard = false ∧
        (segments.any fun s => s.name?.isSome) = false := by
  simp only [List.any_eq_false]
  constructor
  · intro h
    refine ⟨fun s hs => ?_, fun s hs => ?_⟩
    all_goals
      obtain ⟨text, rfl⟩ := h s hs
      simp [Segment.isWildcard, Segment.name?]
  · rintro ⟨hclosed, hnone⟩ s hs
    rcases s with text | name | name
    · exact ⟨text, rfl⟩
    · exact absurd rfl (hnone _ hs)
    · exact absurd rfl (hclosed _ hs)

/-- A pattern is as open as its last segment if that is a wildcard, else as its variables. -/
theorem specificity_eq {p : Pattern} (h : ∀ s ∈ p.segments.dropLast, s.isWildcard = false) :
    (p.specificity = .wildcard ↔ ∃ name, p.segments.getLast? = some (.wildcard name)) ∧
    (p.specificity = .variable ↔ (¬∃ name, p.segments.getLast? = some (.wildcard name)) ∧
      ∃ name, .variable name ∈ p.segments) ∧
    (p.specificity = .static ↔ ∀ s ∈ p.segments, ∃ text, s = .fixed text) := by
  rw [← any_isWildcard_iff h, forall_fixed_iff, specificity]
  cases hopen : p.segments.any Segment.isWildcard with
  | true => simp
  | false =>
    rw [← any_isSome_name?_iff hopen]
    cases hnamed : p.segments.any fun s => s.name?.isSome <;> simp

/-! ## Reading a pattern -/

theorem withSlash_eq (text : String) :
    withSlash text = if text.toList.head? = some '/' then text else "/" ++ text := by
  unfold withSlash
  split
  · next h => simp [h]
  · next hslash =>
    rw [if_neg]
    · exact String.toList_injective (by simp)
    · intro h
      cases hcs : text.toList with
      | nil => simp [hcs] at h
      | cons c cs =>
        obtain rfl : c = '/' := by simpa [hcs] using h
        exact hslash cs hcs

/-- The slash in front is no part of a token. -/
theorem tokens_withSlash (text : String) : tokens (withSlash text) = tokens text := by
  rw [withSlash_eq]
  split
  · rfl
  · simp [tokens, Text.pieces]

theorem forall_mem_dropLast_meaning {caseSensitive : Bool} {tokens : List (List Char)}
    (h : IsGrammatical tokens) :
    ∀ s ∈ (tokens.map (meaning caseSensitive)).dropLast, s.isWildcard = false := by
  intro s hs
  rw [← List.map_dropLast] at hs
  obtain ⟨token, htoken, rfl⟩ := List.mem_map.mp hs
  rw [Bool.eq_false_iff]
  exact fun hstar => h.wildcard_last token htoken ((isWildcard_meaning _ _).mp hstar)

/-- Reading gives the meanings of the tokens, if they make up a pattern. -/
theorem read_eq_ok_iff {text : String} {options : MatchOptions} {p : Pattern} :
    read text options = .ok p ↔ IsGrammatical (tokens text) ∧
      p = ⟨withSlash text, (tokens text).map (meaning options.caseSensitive), options⟩ := by
  have hsegments : ∀ segments,
      readSegments options.caseSensitive [] (tokens text) = .ok segments ↔
        IsGrammatical (tokens text) ∧
          segments = (tokens text).map (meaning options.caseSensitive) := by
    intro segments
    simpa using @readSegments_eq_ok_iff _ [] _ segments fun _ => ne_nil_of_mem_tokens
  simp only [read, tokens_withSlash]
  constructor
  · intro h
    split at h
    · next segments hread =>
      obtain ⟨hgrammar, rfl⟩ := (hsegments segments).mp hread
      exact ⟨hgrammar, (Except.ok.inj h).symm⟩
    · cases h
  · rintro ⟨hgrammar, rfl⟩
    rw [(hsegments _).mpr ⟨hgrammar, rfl⟩]

theorem raw_of_read_eq_error {text raw : String} {options : MatchOptions} {fault : Fault}
    (h : read text options = .error (raw, fault)) : raw = withSlash text := by
  simp only [read] at h
  split at h
  · cases h
  · exact (Prod.mk.inj (Except.error.inj h)).1.symm

/-- Which texts are patterns, and what is read.

A text is a pattern exactly if its tokens make up one.  What is read has the text with a slash in
front and the meaning of each token, in order; it binds the names of the tokens, none of them
twice; how much it leaves open is told by its last segment and its variables.  A text that is no
pattern is refused with the text that has the slash in front. -/
theorem pattern_exact (r : Router) (text : String) :
    ((∃ p, r.pattern text = .ok p) ↔ IsGrammatical (tokens text)) ∧
    (∀ p, r.pattern text = .ok p →
      p.raw = (if text.toList.head? = some '/' then text else "/" ++ text) ∧
      p.options = r.options ∧
      p.segments = (tokens text).map (meaning r.options.caseSensitive) ∧
      p.names = (tokens text).filterMap boundName? ∧ p.names.Nodup ∧
      (p.specificity = .wildcard ↔ ∃ name, p.segments.getLast? = some (.wildcard name)) ∧
      (p.specificity = .variable ↔ (¬∃ name, p.segments.getLast? = some (.wildcard name)) ∧
        ∃ name, .variable name ∈ p.segments) ∧
      (p.specificity = .static ↔ ∀ s ∈ p.segments, ∃ t, s = .fixed t)) ∧
    ∀ e, r.pattern text = .error e → ∃ fault : Fault,
      e = .invalidPattern (if text.toList.head? = some '/' then text else "/" ++ text)
        fault.message := by
  rw [← withSlash_eq]
  rcases hread : read text r.options with ⟨raw, fault⟩ | q
  · have hpattern : r.pattern text = .error (.invalidPattern raw fault.message) := by
      rw [Router.pattern, hread]
      rfl
    have hnot : ¬IsGrammatical (tokens text) := by
      intro hgrammar
      have hok : read text r.options = .ok _ := read_eq_ok_iff.mpr ⟨hgrammar, rfl⟩
      rw [hread] at hok
      cases hok
    refine ⟨by simp [hpattern, hnot], by simp [hpattern], ?_⟩
    intro e he
    rw [hpattern] at he
    rw [← Except.error.inj he, raw_of_read_eq_error hread]
    exact ⟨fault, rfl⟩
  · have hpattern : r.pattern text = .ok q := by
      rw [Router.pattern, hread]
      rfl
    obtain ⟨hgrammar, rfl⟩ := read_eq_ok_iff.mp hread
    refine ⟨by simp [hpattern, hgrammar], ?_, by simp [hpattern]⟩
    intro p hp
    rw [hpattern] at hp
    obtain rfl := Except.ok.inj hp
    have hnames : ((tokens text).map (meaning r.options.caseSensitive)).filterMap Segment.name? =
        (tokens text).filterMap boundName? := by
      rw [List.filterMap_map]
      exact congrArg (List.filterMap · _) (funext (name?_meaning _))
    refine ⟨rfl, rfl, rfl, hnames, ?_, specificity_eq (forall_mem_dropLast_meaning hgrammar)⟩
    rw [names, hnames]
    exact hgrammar.distinct

/-- Tokens of all kinds make up a pattern; braces around two signs do not. -/
theorem pattern_exact_mixed :
    (({} : Router).pattern "users/:id/\x7bpost\x7d/*").toOption.map Pattern.names =
        some ["id", "post", "*"] ∧
      IsGrammatical (tokens "users/:id/\x7bpost\x7d/*") ∧
      ¬IsGrammatical (tokens "/users/\x7b:id\x7d") := by
  refine ⟨rfl, (pattern_exact {} _).1.mp ⟨_, rfl⟩, ?_⟩
  intro hgrammar
  obtain ⟨p, hp⟩ := (pattern_exact {} _).1.mpr hgrammar
  cases hp

end Pattern

end HttpApp
