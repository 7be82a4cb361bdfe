/-
  HttpApp/Proofs/Media/Accepting.lean --- what the ranges that a client sends accept.

  Of the ranges that cover a type the leftmost one of the highest precision decides
  (`MediaType.admittedBy_iff`), and its quality says how.  The ranges of a line are read
  as what was written, as long as no quoted value has a comma in it.  Only the first
  line of a request counts.  Main statement: `Context.accepts_first_line`.
-/
import Mathlib.Data.List.Basic
import HttpApp.Context
import HttpApp.Proofs.Media.Reading
import HttpApp.Proofs.Number.Decimals

set_option autoImplicit false

namespace HttpApp

/-! ## The range that decides -/

namespace MediaType

theorem mostPrecise?_eq_none_iff {rs : List MediaType} : mostPrecise? rs = none ↔ rs = [] := by
  cases rs with
  | nil => exact iff_of_true rfl rfl
  | cons r rs =>
    rw [mostPrecise?]
    split
    · simp
    · split <;> simp

/-- The most precise range stands behind less precise ones and in front of all that are as
precise. -/
def Leads (r : MediaType) (front back : List MediaType) : Prop :=
  (∀ v ∈ front, v.precision < r.precision) ∧ ∀ v ∈ back, v.precision ≤ r.precision

theorem exists_leads_of_mostPrecise? {rs : List MediaType} {r : MediaType}
    (h : mostPrecise? rs = some r) :
    ∃ front back, rs = front ++ r :: back ∧ Leads r front back := by
  induction rs generalizing r with
  | nil => cases h
  | cons v rs ih =>
    rw [mostPrecise?] at h
    split at h
    · next hnone =>
      obtain rfl := mostPrecise?_eq_none_iff.mp hnone
      obtain rfl := Option.some.inj h
      exact ⟨[], [], rfl, by simp, by simp⟩
    · next best hbest =>
      obtain ⟨front, back, rfl, hfront, hback⟩ := ih hbest
      split at h
      · next hlt =>
        obtain rfl := Option.some.inj h
        exact ⟨v :: front, back, rfl, List.forall_mem_cons.mpr ⟨hlt, hfront⟩, hback⟩
      · next hle =>
        obtain rfl := Option.some.inj h
        have hbest : ∀ w ∈ front ++ best :: back, w.precision ≤ best.precision := by
          simp only [List.forall_mem_append, List.forall_mem_cons]
          exact ⟨fun w hw => Nat.le_of_lt (hfront w hw), Nat.le_refl _, hback⟩
        exact ⟨[], _, rfl, by simp, fun w hw => Nat.le_trans (hbest w hw) (Nat.not_lt.mp hle)⟩

theorem Leads.mostPrecise?_eq {r : MediaType} {front back : List MediaType}
    (h : Leads r front back) : mostPrecise? (front ++ r :: back) = some r := by
  obtain ⟨hfront, hback⟩ := h
  induction front with
  | nil =>
    rw [List.nil_append, mostPrecise?]
    split
    · rfl
    · next best hbest =>
      obtain ⟨before, behind, rfl, -⟩ := exists_leads_of_mostPrecise? hbest
      exact if_neg (Nat.not_lt.mpr (hback best (by simp)))
  | cons v front ih =>
    obtain ⟨hv, hfront⟩ := List.forall_mem_cons.mp hfront
    rw [List.cons_append, mostPrecise?, ih hfront]
    exact if_pos hv

theorem mostPrecise?_filter_eq_some_iff {p : MediaType → Bool} {rs : List MediaType}
    {r : MediaType} :
    mostPrecise? (rs.filter p) = some r ↔ ∃ front back, rs = front ++ r :: back ∧ p r = true ∧
      Leads r (front.filter p) (back.filter p) := by
  constructor
  · intro h
    obtain ⟨front, back, hfilter, hleads⟩ := exists_leads_of_mostPrecise? h
    obtain ⟨before, rest, rfl, rfl, hrest⟩ := List.filter_eq_append_iff.mp hfilter
    obtain ⟨gap, back, rfl, hgap, hr, rfl⟩ := List.filter_eq_cons_iff.mp hrest
    refine ⟨before ++ gap, back, (List.append_assoc ..).symm, hr, ?_⟩
    rwa [List.filter_append, List.filter_eq_nil_iff.mpr hgap, List.append_nil]
  · rintro ⟨front, back, rfl, hr, hleads⟩
    rw [List.filter_append, List.filter_cons_of_pos hr]
    exact hleads.mostPrecise?_eq

/-- A type is admitted if the leftmost of the most precise ranges that cover it admits. -/
theorem admittedBy_iff {ranges : List MediaType} {m : MediaType} :
    m.admittedBy ranges = true ↔ ∃ front r back, ranges = front ++ r :: back ∧
      m.within r = true ∧ (∀ v ∈ front, m.within v = true → v.precision < r.precision) ∧
      (∀ v ∈ back, m.within v = true → v.precision ≤ r.precision) ∧ r.admits = true := by
  have hleads : ∀ (r : MediaType) (front back : List MediaType),
      Leads r (front.filter m.within) (back.filter m.within) ↔
        (∀ v ∈ front, m.within v = true → v.precision < r.precision) ∧
          ∀ v ∈ back, m.within v = true → v.precision ≤ r.precision := by
    simp [Leads]
  rw [admittedBy]
  constructor
  · intro h
    split at h
    · next r hr =>
      obtain ⟨front, back, hranges, hwithin, hr⟩ := mostPrecise?_filter_eq_some_iff.mp hr
      obtain ⟨hfront, hback⟩ := (hleads r front back).mp hr
      exact ⟨front, r, back, hranges, hwithin, hfront, hback, h⟩
    · cases h
  · rintro ⟨front, r, back, hranges, hwithin, hfront, hback, hadmits⟩
    rw [mostPrecise?_filter_eq_some_iff.mpr
      ⟨front, back, hranges, hwithin, (hleads r front back).mpr ⟨hfront, hback⟩⟩]
    exact hadmits

/-! ## Qualities -/

namespace WrittenParam

/-- Whether a parameter is a quality. -/
def isQuality (p : WrittenParam) : Bool := p.lowerName == ['q']

theorem equalIgnoringAsciiCase_pair (p : WrittenParam) :
    Text.equalIgnoringAsciiCase p.pair.1 "q" = p.isQuality := by
  have hlower : p.lowerName.map Char.toLower = p.lowerName := by
    rw [lowerName, List.map_map]
    exact List.map_congr_left fun c _ => Text.toLower_toLower c
  have hq : "q".toList.map Char.toLower = ['q'] := by decide
  rw [Text.equalIgnoringAsciiCase, hq, pair, String.toList_ofList, hlower, isQuality]

theorem not_isQuality_of_isCharset {p : WrittenParam} (h : p.isCharset = true) :
    p.isQuality = false := by
  have hname : p.lowerName = "charset".toList := by simpa [isCharset] using h
  rw [isQuality, hname]
  decide

/-- The first quality is found among the names and values by its value. -/
theorem find?_pairs (ps : List WrittenParam) :
    (pairs ps).find? (fun p => Text.equalIgnoringAsciiCase p.1 "q") =
      (ps.find? isQuality).map pair := by
  have hmap : (ps.map pair).find? (fun p => Text.equalIgnoringAsciiCase p.1 "q") =
      (ps.find? isQuality).map pair := by
    rw [List.find?_map]
    exact congrArg (fun f => (ps.find? f).map pair) (funext equalIgnoringAsciiCase_pair)
  rw [← hmap]
  match ps with
  | [] => rfl
  | [p] => rfl
  | p :: q :: ps =>
    rw [pairs]
    split
    · next hspaced =>
      have hcharset : p.isCharset = true := by
        simp only [isSpacedUtf8, Bool.and_eq_true] at hspaced
        exact hspaced.1.2
      have hp : ¬Text.equalIgnoringAsciiCase p.pair.1 "q" = true := by
        simp [equalIgnoringAsciiCase_pair, not_isQuality_of_isCharset hcharset]
      have hpass : ∀ (value : String) (rest : List (String × String)),
          ((p.pair.1, value) :: rest).find? (fun p => Text.equalIgnoringAsciiCase p.1 "q") =
            rest.find? fun p => Text.equalIgnoringAsciiCase p.1 "q" :=
        fun _ _ => List.find?_cons_of_neg hp
      exact (hpass _ _).trans (hpass _ _).symm
    · rfl
    · simp

end WrittenParam

end MediaType

namespace WrittenMedia

open MediaType (WrittenParam)

/-- The quality as it is written, where there is one. -/
def quality? (w : WrittenMedia) : Option (List Char) :=
  (w.params.find? WrittenParam.isQuality).map (·.value)

/-- Whether the qualities are plain decimals with at most 45 digits behind the point.  Those of
HTTP have at most three. -/
def HasQualities (w : WrittenMedia) : Prop :=
  ∀ p ∈ w.params, p.isQuality = true → ∃ d : PlainDecimal, d.Formed ∧
    (d.fraction.getD []).length ≤ 45 ∧ p.value = d.text

/-- Whether a range admits what it covers: it has no quality, or one that is above zero, which
is one with another digit than zero. -/
def Wanted (w : WrittenMedia) : Prop :=
  ∀ v, w.quality? = some v → ∃ c ∈ v, c ≠ '0' ∧ c ≠ '.'

theorem param?_q (w : WrittenMedia) : w.media.param? "q" = w.quality?.map String.ofList := by
  have hparams : w.media.params = WrittenParam.pairs w.params := rfl
  rw [MediaType.param?, hparams, WrittenParam.find?_pairs, quality?, Option.map_map, Option.map_map]
  cases hfind : w.params.find? WrittenParam.isQuality with
  | none => rfl
  | some p =>
    have hquality : p.isQuality = true := List.find?_some hfind
    have hcharset : p.isCharset = false := by
      rw [Bool.eq_false_iff]
      intro hcharset
      rw [WrittenParam.not_isQuality_of_isCharset hcharset] at hquality
      cases hquality
    simp [WrittenParam.pair, WrittenParam.plainValue, hcharset]

theorem admits_media_iff {w : WrittenMedia} (h : w.HasQualities) :
    w.media.admits = true ↔ w.Wanted := by
  rw [MediaType.admits, param?_q, Wanted]
  cases hquality : w.quality? with
  | none => simp
  | some v =>
    obtain ⟨p, hfind, rfl⟩ := Option.map_eq_some_iff.mp hquality
    obtain ⟨d, hd, hlength, hvalue⟩ :=
      h p (List.mem_of_find?_eq_some hfind) (List.find?_some hfind)
    rw [hvalue]
    simp only [Option.map_some, String.toList_ofList, d.trimBlanks_text hd, d.read?_text hd,
      d.isPositive_round_iff hd hlength, PlainDecimal.IsPositive]
    simp

/-! ## Lines -/

/-- Whether the quoted values of a media type are made of ASCII characters that are no
commas. -/
def IsSimple (w : WrittenMedia) : Prop :=
  ∀ p ∈ w.params, p.quoted = true → ∀ c ∈ p.value, c ≠ ',' ∧ c.toNat < 128

instance (w : WrittenMedia) : Decidable w.IsSimple :=
  decidable_of_iff
    (w.params.all fun p => !p.quoted || p.value.all fun c => c != ',' && c.toNat < 128) (by
      simp only [IsSimple, List.all_eq_true, Bool.or_eq_true, Bool.not_eq_true', Bool.and_eq_true,
        bne_iff_ne, decide_eq_true_eq]
      grind)

/-- Characters that may stand between the commas of a line. -/
def IsInner (c : Char) : Prop := c ≠ ',' ∧ 32 ≤ c.toNat ∧ c.toNat < 127

theorem isInner_of_isTokenChar {c : Char} (h : Text.isTokenChar c = true) : IsInner c := by
  obtain ⟨hlow, hhigh⟩ := Text.toNat_of_isTokenChar h
  refine ⟨?_, Nat.le_of_lt hlow, hhigh⟩
  rintro rfl
  exact absurd h (by decide)

instance : DecidablePred IsInner := fun _ => inferInstanceAs (Decidable (_ ∧ _))

theorem isInner_of_mem_spaces {l : List Char} (h : ∀ c ∈ l, c = ' ') : ∀ c ∈ l, IsInner c := by
  intro c hc
  rw [h c hc]
  decide

theorem isInner_of_mem_word {l : List Char} (h : ∀ c ∈ l, Text.isTokenChar c = true) :
    ∀ c ∈ l, IsInner c :=
  fun c hc => isInner_of_isTokenChar (h c hc)

theorem isInner_of_mem_value {w : WrittenMedia} (h : w.Formed) (hsimple : w.IsSimple)
    {p : WrittenParam} (hp : p ∈ w.params) : ∀ c ∈ p.value, IsInner c := by
  intro c hc
  cases hquoted : p.quoted with
  | true =>
    obtain ⟨hcomma, hlt⟩ := hsimple p hp hquoted c hc
    have hquotable := ((h.params p hp).quoted hquoted).1 c hc
    simp only [MediaType.isQuotable, Bool.and_eq_true, decide_eq_true_eq, bne_iff_ne] at hquotable
    exact ⟨hcomma, hquotable.1, by omega⟩
  | false => exact isInner_of_isTokenChar (((h.params p hp).bare hquoted).1 c hc)

theorem isInner_of_mem_param {w : WrittenMedia} (h : w.Formed) (hsimple : w.IsSimple)
    {p : WrittenParam} (hp : p ∈ w.params) : ∀ c ∈ p.written, IsInner c := by
  have hformed := h.params p hp
  have hvalue := isInner_of_mem_value h hsimple hp
  rw [WrittenParam.written]
  simp only [List.forall_mem_append, List.forall_mem_cons]
  refine ⟨⟨⟨isInner_of_mem_spaces hformed.lead, isInner_of_mem_word hformed.name⟩, by decide, ?_⟩,
    isInner_of_mem_spaces hformed.trail⟩
  split
  · simp only [List.forall_mem_append, List.forall_mem_cons]
    exact ⟨⟨by decide, hvalue⟩, by decide, by simp⟩
  · exact hvalue

theorem isInner_of_mem_written {w : WrittenMedia} (h : w.Formed) (hsimple : w.IsSimple) :
    ∀ c ∈ w.written, IsInner c := by
  rw [written_eq]
  simp only [List.forall_mem_append, List.forall_mem_cons, WrittenParam.joined]
  refine ⟨isInner_of_mem_word h.type, by decide, isInner_of_mem_word h.subtype, fun c hc => ?_⟩
  obtain ⟨p, hp, hc⟩ := List.mem_flatMap.mp hc
  rcases List.mem_cons.mp hc with rfl | hc
  · decide
  · exact isInner_of_mem_param h hsimple hp c hc

/-- A range of a line with the spaces around it. -/
def spaced (w : Nat × WrittenMedia × Nat) : List Char :=
  List.replicate w.1 ' ' ++ w.2.1.written ++ List.replicate w.2.2 ' '

theorem line_eq (ws : List (Nat × WrittenMedia × Nat)) :
    line ws = [','].intercalate (ws.map spaced) := rfl

theorem read?_spaced {w : Nat × WrittenMedia × Nat} (h : w.2.1.Formed) :
    MediaType.read? (String.ofList (spaced w)) = some w.2.1.trimmed.media := by
  rw [spaced]
  exact read?_padded h (fun _ => List.eq_of_mem_replicate) fun _ => List.eq_of_mem_replicate

theorem isInner_of_mem_spaced {w : Nat × WrittenMedia × Nat} (h : w.2.1.Formed)
    (hsimple : w.2.1.IsSimple) : ∀ c ∈ spaced w, IsInner c := by
  have hspaces : ∀ n, ∀ c ∈ List.replicate n ' ', IsInner c :=
    fun n => isInner_of_mem_spaces fun _ => List.eq_of_mem_replicate
  simp only [spaced, List.forall_mem_append]
  exact ⟨⟨hspaces _, isInner_of_mem_written h hsimple⟩, hspaces _⟩

variable {ws : List (Nat × WrittenMedia × Nat)}

/-- The ranges of a line are what was written. -/
theorem rangesOf_line (hne : ws ≠ []) (hformed : ∀ w ∈ ws, w.2.1.Formed)
    (hsimple : ∀ w ∈ ws, w.2.1.IsSimple) :
    MediaType.rangesOf (String.ofList (line ws)) = ws.map fun w => w.2.1.trimmed.media := by
  have hpieces : Text.pieces ',' (line ws) = ws.map spaced := by
    refine Text.pieces_intercalate (by simpa using hne) fun piece hpiece => ?_
    obtain ⟨w, hw, rfl⟩ := List.mem_map.mp hpiece
    exact fun hcomma => (isInner_of_mem_spaced (hformed w hw) (hsimple w hw) ',' hcomma).1 rfl
  rw [MediaType.rangesOf, String.toList_ofList, hpieces, List.filterMap_map,
    ← List.filterMap_eq_map]
  refine List.filterMap_congr fun w hw => ?_
  rw [Function.comp_apply, Function.comp_apply, read?_spaced (hformed w hw)]

theorem visible_line (hformed : ∀ w ∈ ws, w.2.1.Formed) (hsimple : ∀ w ∈ ws, w.2.1.IsSimple) :
    ∀ c ∈ line ws, 32 ≤ c.toNat ∧ c.toNat < 127 := by
  rw [line_eq]
  refine Text.forall_mem_intercalate (by simp) fun piece hpiece => ?_
  obtain ⟨w, hw, rfl⟩ := List.mem_map.mp hpiece
  exact fun c hc => (isInner_of_mem_spaced (hformed w hw) (hsimple w hw) c hc).2

theorem trim_line_ne_empty (hne : ws ≠ []) (hformed : ∀ w ∈ ws, w.2.1.Formed) :
    (Text.trim (String.ofList (line ws))).isEmpty = false := by
  obtain ⟨w, ws, rfl⟩ := List.exists_cons_of_ne_nil hne
  have hw := hformed w List.mem_cons_self
  obtain ⟨c, hc⟩ := List.exists_mem_of_ne_nil _ hw.type_ne_nil
  have hspaced : c ∈ spaced w := by
    simp [spaced, written_eq, hc]
  have hline : c ∈ line (w :: ws) := by
    rw [line_eq, List.map_cons]
    cases ws with
    | nil => simpa using hspaced
    | cons w' ws => simp [List.intercalate_cons_cons, hspaced]
  have htrim := Text.mem_trimEnds hline (Text.not_isBlank_of_isTokenChar (hw.type c hc))
  rw [Text.trim, String.toList_ofList, String.isEmpty_eq_false_iff]
  intro hempty
  have hnil : Text.trimBlanks (line (w :: ws)) = [] := by
    simpa using congrArg String.toList hempty
  exact List.ne_nil_of_mem htrim hnil

/-! ## Accepting -/

/-- Whether ranges accept a type: one covers it, and the leftmost one of the highest precision
among those that do admits it. -/
def Accepts (ranges : List WrittenMedia) (m : MediaType) : Prop :=
  ∃ front w back, ranges = front ++ w :: back ∧ m.within w.media = true ∧
    (∀ v ∈ front, m.within v.media = true → v.media.precision < w.media.precision) ∧
    (∀ v ∈ back, m.within v.media = true → v.media.precision ≤ w.media.precision) ∧ w.Wanted

theorem within_trimmed (m : MediaType) (w : WrittenMedia) :
    m.within w.trimmed.media = m.within w.media := by
  rw [media_trimmed]
  rfl

theorem precision_trimmed (w : WrittenMedia) :
    w.trimmed.media.precision = w.media.precision := by
  rw [media_trimmed]
  rfl

theorem admits_trimmed (w : WrittenMedia) : w.trimmed.media.admits = w.media.admits := by
  rw [media_trimmed]
  rfl

theorem admittedBy_trimmed_iff {ranges : List WrittenMedia} {m : MediaType}
    (h : ∀ w ∈ ranges, w.HasQualities) :
    m.admittedBy (ranges.map fun w => w.trimmed.media) = true ↔ Accepts ranges m := by
  rw [MediaType.admittedBy_iff]
  constructor
  · rintro ⟨front, r, back, hmap, hwithin, hfront, hback, hadmits⟩
    obtain ⟨before, rest, rfl, rfl, hrest⟩ := List.map_eq_append_iff.mp hmap
    obtain ⟨w, behind, rfl, rfl, rfl⟩ := List.map_eq_cons_iff.mp hrest
    rw [admits_trimmed, admits_media_iff (h w (by simp))] at hadmits
    simp only [List.forall_mem_map, within_trimmed, precision_trimmed] at hwithin hfront hback
    exact ⟨before, w, behind, rfl, hwithin, hfront, hback, hadmits⟩
  · rintro ⟨front, w, back, rfl, hwithin, hfront, hback, hwanted⟩
    refine ⟨front.map fun w => w.trimmed.media, w.trimmed.media,
      back.map fun w => w.trimmed.media, by simp, ?_⟩
    simp only [List.forall_mem_map, within_trimmed, precision_trimmed, admits_trimmed]
    exact ⟨hwithin, hfront, hback, (admits_media_iff (h w (by simp))).mpr hwanted⟩

end WrittenMedia

/-- A request that names media ranges, with any spaces around them, in the first line of its
`Accept` header accepts a type if one of the ranges covers it and the leftmost one of the
highest precision among those that do has no quality or one above zero.  What the other lines
say does not count.  The line is cut at every comma, and it is no text if it has other
characters than those of ASCII; so the quoted values have neither. -/
theorem Context.accepts_first_line {c : Context} {m : MediaType}
    {ws : List (Nat × WrittenMedia × Nat)} {later : List HeaderValue} (hne : ws ≠ [])
    (hformed : ∀ w ∈ ws, w.2.1.isWellFormed = true) (hqualities : ∀ w ∈ ws, w.2.1.HasQualities)
    (hsimple : ∀ w ∈ ws, w.2.1.IsSimple)
    (hlines : c.request.headers.getAll "accept" =
      Bytes.ofText (String.ofList (WrittenMedia.line ws)) :: later) :
    c.accepts m = true ↔ WrittenMedia.Accepts (ws.map fun w => w.2.1) m := by
  have hformed : ∀ w ∈ ws, w.2.1.Formed :=
    fun w hw => WrittenMedia.isWellFormed_iff.mp (hformed w hw)
  have htext : c.request.header "accept" = some (String.ofList (WrittenMedia.line ws)) := by
    have hvisible := WrittenMedia.visible_line hformed hsimple
    rw [Request.header, Headers.text?, Headers.get?, hlines, List.head?_cons, Option.bind_some,
      HeaderValue.text?_ofText (by simpa using hvisible)]
  have hqualities : ∀ w ∈ ws.map fun w => w.2.1, w.HasQualities := by
    simpa using fun w a b hw => hqualities (a, w, b) hw
  have hranges := WrittenMedia.rangesOf_line hne hformed hsimple
  rw [Context.accepts, htext, MediaType.acceptedBy, hranges,
    WrittenMedia.trim_line_ne_empty hne hformed, Bool.false_or,
    ← WrittenMedia.admittedBy_trimmed_iff hqualities, List.map_map]
  rfl

namespace Context

/-- The value of a header line with ranges. -/
def lineValue (ws : List (Nat × WrittenMedia × Nat)) : HeaderValue :=
  Bytes.ofText (String.ofList (WrittenMedia.line ws))

/-- A request with lines of ranges. -/
def ofLines (lines : List (List (Nat × WrittenMedia × Nat))) : Context where
  request := { method := .get, path := "/", headers := ⟨[("accept", lines.map lineValue)]⟩ }

theorem getAll_ofLines (lines : List (List (Nat × WrittenMedia × Nat))) :
    (ofLines lines).request.headers.getAll "accept" = lines.map lineValue :=
  Headers.getAll_singleton (by decide +kernel) _

def htmlRange : WrittenMedia := ⟨"text".toList, "html".toList, []⟩

def jsonRange : WrittenMedia := ⟨"application".toList, "json".toList, []⟩

/-- All types, refused by a quality that stands behind a quoted value. -/
def refusedRange : WrittenMedia where
  type := ['*']
  subtype := ['*']
  params := [⟨[' '], ['v'], "a; b".toList, true, [' ']⟩, ⟨[], ['Q'], ['0', '.', '0'], false, []⟩]

theorem hasQualities_refusedRange : refusedRange.HasQualities := by
  intro p hp hquality
  obtain rfl | rfl : p = _ ∨ p = _ := by simpa [refusedRange] using hp
  · exact absurd hquality (by decide)
  · exact ⟨⟨['0'], some ['0']⟩, ⟨by simp, by simp, by simp⟩, by decide, rfl⟩

theorem accepts_first_line_refused :
    refusedRange.isWellFormed = true ∧ refusedRange.quality? = some ['0', '.', '0'] ∧
      (ofLines [[(0, refusedRange, 1), (2, jsonRange, 0)], [(0, htmlRange, 0)]]).accepts .json =
        true := by
  have hdecides : WrittenMedia.Accepts [refusedRange, jsonRange] .json :=
    ⟨[refusedRange], jsonRange, [], rfl, by decide +kernel, by decide +kernel, by simp,
      fun v hv => by cases hv⟩
  refine ⟨by decide +kernel, rfl, (@accepts_first_line _ .json
    [(0, refusedRange, 1), (2, jsonRange, 0)] _ (List.cons_ne_nil _ _) (by decide +kernel) ?_
    (by decide +kernel) (getAll_ofLines _)).mpr hdecides⟩
  simp only [List.forall_mem_cons]
  exact ⟨hasQualities_refusedRange, fun p hp => (List.not_mem_nil hp).elim, by simp⟩

/-- A type with a comma in a quoted value. -/
def quotedRange : WrittenMedia where
  type := "text".toList
  subtype := "plain".toList
  params := [⟨[], ['v'], "a,b".toList, true, []⟩]

/-- A quoted value is cut at its comma, and neither half is a range. -/
theorem rangesOf_quotedRange :
    MediaType.rangesOf (String.ofList (WrittenMedia.line [(0, quotedRange, 0)])) = [] := by
  have hpieces : Text.pieces ',' (WrittenMedia.line [(0, quotedRange, 0)]) =
      ["text/plain;v=\"a".toList, "b\"".toList] := by decide +kernel
  have htrim : Text.trimBlanks "text/plain;v=\"a".toList = "text/plain;v=\"a".toList := by
    decide +kernel
  have hparams : MediaType.readParams 5 ['v', '=', '"', 'a'] = none := by
    rw [MediaType.readParams]
    rfl
  have hfirst : MediaType.read? (String.ofList "text/plain;v=\"a".toList) = none := by
    rw [MediaType.read?, String.toList_ofList, htrim]
    exact congrArg (Option.map _) hparams
  have hsecond : MediaType.read? (String.ofList "b\"".toList) = none := by decide +kernel
  rw [MediaType.rangesOf, String.toList_ofList, hpieces]
  simp only [List.filterMap_cons, hfirst, hsecond, List.filterMap_nil]

/-- Not every line counts, and not every comma stands between two ranges. -/
theorem not_accepted_over_lines :
    ¬((ofLines [[(0, htmlRange, 0)], [(0, jsonRange, 0)]]).accepts .json = true ↔
        WrittenMedia.Accepts [htmlRange, jsonRange] .json) ∧
      ¬((ofLines [[(0, quotedRange, 0)]]).accepts .text = true ↔
        WrittenMedia.Accepts [quotedRange] .text) := by
  constructor
  · have hlines : (ofLines [[(0, htmlRange, 0)], [(0, jsonRange, 0)]]).accepts .json = false := by
      decide +kernel
    have hranges : WrittenMedia.Accepts [htmlRange, jsonRange] .json :=
      ⟨[htmlRange], jsonRange, [], rfl, by decide +kernel, by decide +kernel, by simp,
        fun v hv => by cases hv⟩
    exact fun h => Bool.eq_false_iff.mp hlines (h.mpr hranges)
  · have hheader : (ofLines [[(0, quotedRange, 0)]]).request.header "accept" =
        some (String.ofList (WrittenMedia.line [(0, quotedRange, 0)])) := by decide +kernel
    have hline : (ofLines [[(0, quotedRange, 0)]]).accepts .text = false := by
      rw [accepts, hheader, MediaType.acceptedBy, rangesOf_quotedRange]
      decide +kernel
    have hranges : WrittenMedia.Accepts [quotedRange] .text :=
      ⟨[], quotedRange, [], rfl, by decide +kernel, by simp, by simp, fun v hv => by cases hv⟩
    exact fun h => Bool.eq_false_iff.mp hline (h.mpr hranges)

end Context

end HttpApp
