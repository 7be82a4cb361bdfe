/-
  HttpApp/Proofs/Media/Weighing.lean --- how the pieces of an `Accept` text are weighed.

  The pieces of a text that can be read and cover a type are its covering ranges.  Of
  them the first one of the highest precision decides, so an answer depends on nothing
  but the covering ranges of that precision, in their order, and on whether the text is
  blank.  Main statement: `MediaType.acceptedBy_exact`.
-/
import HttpApp.Proofs.Media.Accepting

set_option autoImplicit false

namespace HttpApp

/-! ## Blank texts -/

namespace Text

def AllBlank (cs : List Char) : Prop := ∀ c ∈ cs, isBlank c = true

instance (cs : List Char) : Decidable (AllBlank cs) :=
  decidable_of_iff (cs.all isBlank = true) List.all_eq_true

/-- Nothing is left of a text that is trimmed exactly if all of it is blank. -/
theorem isEmpty_trim_iff {s : String} : (trim s).isEmpty = true ↔ AllBlank s.toList := by
  have hnil : (trim s).isEmpty = true ↔ trimBlanks s.toList = [] := by
    rw [String.isEmpty_iff, ← String.toList_inj, trim, String.toList_ofList, String.toList_empty]
  rw [hnil]
  constructor
  · intro hempty c hc
    by_contra hblank
    have hmem := mem_trimEnds hc (Bool.eq_false_iff.mpr hblank)
    rw [trimBlanks] at hempty
    simp [hempty] at hmem
  · intro hblank
    have hcut := @trimEnds_padded isBlank s.toList [] [] hblank (by simp) (by simp) (by simp)
    rwa [List.nil_append, List.append_nil] at hcut

/-- Pieces in one text, with commas between them. -/
def listed (pieces : List (List Char)) : String := String.ofList ([','].intercalate pieces)

theorem pieces_listed {ps : List (List Char)} (hne : ps ≠ []) (h : ∀ w ∈ ps, ',' ∉ w) :
    pieces ',' (listed ps).toList = ps := by
  rw [listed, String.toList_ofList, pieces_intercalate hne h]

/-- A comma is no blank, so a blank text has at most one piece. -/
theorem allBlank_listed_iff {ps : List (List Char)} :
    AllBlank (listed ps).toList ↔ ps = [] ∨ ∃ w, ps = [w] ∧ AllBlank w := by
  rw [listed, String.toList_ofList]
  match ps with
  | [] => simp [AllBlank]
  | [w] => simp
  | v :: w :: ps =>
    have hcomma : ',' ∈ [','].intercalate (v :: w :: ps) := by
      simp [List.intercalate_cons_cons]
    refine iff_of_false (fun h => absurd (h ',' hcomma) (by decide)) ?_
    rintro (hnil | ⟨w', hone, -⟩)
    · cases hnil
    · cases hone

/-- Whether a text is blank does not depend on the order of its pieces. -/
theorem allBlank_listed_of_perm {ps qs : List (List Char)} (h : ps.Perm qs) :
    AllBlank (listed ps).toList ↔ AllBlank (listed qs).toList := by
  have hnil : ps = [] ↔ qs = [] := by
    rw [← List.length_eq_zero_iff, h.length_eq, List.length_eq_zero_iff]
  have hone : ∀ w, ps = [w] ↔ qs = [w] := by
    intro w
    constructor
    · rintro rfl
      exact List.perm_singleton.mp h.symm
    · rintro rfl
      exact List.perm_singleton.mp h
  simp only [allBlank_listed_iff, hnil, hone]

/-- A text with one piece more is not blank if it was not. -/
theorem not_allBlank_listed_insert {front back : List (List Char)} (piece : List Char)
    (h : ¬AllBlank (listed (front ++ back)).toList) :
    ¬AllBlank (listed (front ++ piece :: back)).toList := by
  rw [allBlank_listed_iff] at h ⊢
  rintro (hnil | ⟨w, hone, -⟩)
  · simp at hnil
  · have hlength := congrArg List.length hone
    simp only [List.length_append, List.length_cons, List.length_nil] at hlength
    refine h (.inl (List.length_eq_zero_iff.mp ?_))
    rw [List.length_append]
    omega

end Text

namespace MediaType

/-! ## Qualities -/

/-- The number that the quality of a range stands for; it is one if there is none that can be
read. -/
def quality (range : MediaType) : Decimal :=
  ((range.param? "q").bind fun q => Decimal.read? (Text.trimBlanks q.toList)).getD
    (.finite false 1 0)

/-- A quality is above zero if it is so as a number of 32 bits; what is no number is not. -/
def HasWeight (range : MediaType) : Prop :=
  BinaryFormat.single.isPositive (BinaryFormat.single.round range.quality) = true

instance (range : MediaType) : Decidable range.HasWeight := inferInstanceAs (Decidable (_ = _))

theorem admits_iff {range : MediaType} : range.admits = true ↔ range.HasWeight := by
  have hone : BinaryFormat.single.isPositive
      (BinaryFormat.single.round (.finite false 1 0)) = true := by decide
  rw [admits, HasWeight, quality]
  cases range.param? "q" with
  | none => simp [hone]
  | some q =>
    dsimp only [Option.bind_some]
    cases Decimal.read? (Text.trimBlanks q.toList) with
    | none => simp [hone]
    | some d => rfl

/-! ## The ranges of the highest precision -/

/-- The ranges that are as precise as any, in their order. -/
def highest (rs : List MediaType) : List MediaType :=
  rs.filter fun r => rs.all fun v => v.precision ≤ r.precision

theorem head?_highest (rs : List MediaType) : (highest rs).head? = mostPrecise? rs := by
  cases hbest : mostPrecise? rs with
  | none =>
    obtain rfl := mostPrecise?_eq_none_iff.mp hbest
    rfl
  | some r =>
    obtain ⟨front, back, rfl, hfront, hback⟩ := exists_leads_of_mostPrecise? hbest
    have hlow : ∀ v ∈ front,
        ¬((front ++ r :: back).all fun w => w.precision ≤ v.precision) = true := by
      intro v hv hall
      have hr := List.all_eq_true.mp hall r (by simp)
      exact absurd (of_decide_eq_true hr) (Nat.not_le.mpr (hfront v hv))
    have hhigh : ((front ++ r :: back).all fun w => w.precision ≤ r.precision) = true := by
      simp only [List.all_eq_true, decide_eq_true_eq, List.forall_mem_append, List.forall_mem_cons]
      exact ⟨fun v hv => Nat.le_of_lt (hfront v hv), Nat.le_refl _, hback⟩
    have hfilter := List.filter_cons_of_pos
      (p := fun v => (front ++ r :: back).all fun w => w.precision ≤ v.precision) (l := back) hhigh
    rw [highest, List.filter_append, List.filter_eq_nil_iff.mpr hlow, List.nil_append, hfilter,
      List.head?_cons]

/-! ## Texts -/

/-- The ranges among pieces that cover a type, in their order. -/
def covering (m : MediaType) (pieces : List (List Char)) : List MediaType :=
  (pieces.filterMap fun piece => read? (String.ofList piece)).filter fun r => m.within r

theorem covering_append (m : MediaType) (ps qs : List (List Char)) :
    m.covering (ps ++ qs) = m.covering ps ++ m.covering qs := by
  simp [covering]

/-- Among the pieces that cover a type, the leftmost one of the highest precision has a quality
above zero. -/
def Weighs (m : MediaType) (pieces : List (List Char)) : Prop :=
  ∃ front r back, m.covering pieces = front ++ r :: back ∧ Leads r front back ∧ r.HasWeight

theorem weighs_iff_mostPrecise? {m : MediaType} {ps : List (List Char)} :
    m.Weighs ps ↔ ∃ r, mostPrecise? (m.covering ps) = some r ∧ r.HasWeight := by
  constructor
  · rintro ⟨front, r, back, hsplit, hleads, hweight⟩
    exact ⟨r, by rw [hsplit, hleads.mostPrecise?_eq], hweight⟩
  · rintro ⟨r, hr, hweight⟩
    obtain ⟨front, back, hsplit, hleads⟩ := exists_leads_of_mostPrecise? hr
    exact ⟨front, r, back, hsplit, hleads, hweight⟩

/-- Nothing but the covering ranges of the highest precision counts, in their order. -/
theorem weighs_congr {m : MediaType} {ps qs : List (List Char)}
    (h : highest (m.covering ps) = highest (m.covering qs)) : m.Weighs ps ↔ m.Weighs qs := by
  rw [weighs_iff_mostPrecise?, weighs_iff_mostPrecise?, ← head?_highest, ← head?_highest, h]

/-- A piece that is no range or does not cover the type adds no range. -/
theorem covering_insert {m : MediaType} {piece : List Char} (h : m.covering [piece] = [])
    (front back : List (List Char)) :
    m.covering (front ++ piece :: back) = m.covering (front ++ back) := by
  rw [← List.singleton_append, covering_append, covering_append, covering_append, h,
    List.nil_append]

theorem acceptedBy_some_iff {m : MediaType} {h : String} :
    m.acceptedBy (some h) = true ↔
      Text.AllBlank h.toList ∨ m.Weighs (Text.pieces ',' h.toList) := by
  have hadmitted : m.admittedBy (rangesOf h) = true ↔
      ∃ r, mostPrecise? (m.covering (Text.pieces ',' h.toList)) = some r ∧ r.admits = true := by
    have hranges : (rangesOf h).filter m.within = m.covering (Text.pieces ',' h.toList) := rfl
    rw [admittedBy, hranges]
    cases mostPrecise? (m.covering (Text.pieces ',' h.toList)) <;> simp
  rw [acceptedBy, Bool.or_eq_true, Text.isEmpty_trim_iff, hadmitted, weighs_iff_mostPrecise?]
  simp only [admits_iff]

theorem acceptedBy_listed_congr {m : MediaType} {ps qs : List (List Char)} (hps : ps ≠ [])
    (hqs : qs ≠ []) (hpcomma : ∀ w ∈ ps, ',' ∉ w) (hqcomma : ∀ w ∈ qs, ',' ∉ w)
    (hblank : Text.AllBlank (Text.listed ps).toList ↔ Text.AllBlank (Text.listed qs).toList)
    (hweighs : m.Weighs ps ↔ m.Weighs qs) :
    m.acceptedBy (some (Text.listed ps)) = m.acceptedBy (some (Text.listed qs)) := by
  rw [Bool.eq_iff_iff, acceptedBy_some_iff, acceptedBy_some_iff, Text.pieces_listed hps hpcomma,
    Text.pieces_listed hqs hqcomma, hblank, hweighs]

/-- What an `Accept` text admits.  It is blank, or it has pieces that cover the type, and the
leftmost one of the highest precision among them has a quality above zero.  A piece that is none of
them counts nowhere, so that it can be put anywhere into a text that is not blank without a change
to the answer.  Nor does the order of the pieces count, as long as the covering ones of the highest
precision keep theirs. -/
theorem acceptedBy_exact (m : MediaType) :
    (∀ h : String, m.acceptedBy (some h) = true ↔
      Text.AllBlank h.toList ∨ m.Weighs (Text.pieces ',' h.toList)) ∧
    (∀ front piece back, m.covering [piece] = [] →
      (m.Weighs (front ++ piece :: back) ↔ m.Weighs (front ++ back)) ∧
      ((∀ w ∈ front ++ piece :: back, ',' ∉ w) →
        ¬Text.AllBlank (Text.listed (front ++ back)).toList →
        m.acceptedBy (some (Text.listed (front ++ piece :: back))) =
          m.acceptedBy (some (Text.listed (front ++ back))))) ∧
    ∀ ps qs, ps.Perm qs → highest (m.covering ps) = highest (m.covering qs) →
      (m.Weighs ps ↔ m.Weighs qs) ∧
      (ps ≠ [] → (∀ w ∈ ps, ',' ∉ w) →
        m.acceptedBy (some (Text.listed ps)) = m.acceptedBy (some (Text.listed qs))) := by
  refine ⟨fun h => acceptedBy_some_iff, fun front piece back hpiece => ?_,
    fun ps qs hperm hhighest => ?_⟩
  · have hweighs : m.Weighs (front ++ piece :: back) ↔ m.Weighs (front ++ back) :=
      weighs_congr (congrArg highest (covering_insert hpiece front back))
    refine ⟨hweighs, fun hcomma hblank => ?_⟩
    have hne : front ++ back ≠ [] := fun hnil => hblank (Text.allBlank_listed_iff.mpr (.inl hnil))
    have hrest : ∀ w ∈ front ++ back, ',' ∉ w := by
      intro w hw
      refine hcomma w ?_
      simp only [List.mem_append, List.mem_cons] at hw ⊢
      exact hw.imp id .inr
    exact acceptedBy_listed_congr (by simp) hne hcomma hrest
      (iff_of_false (Text.not_allBlank_listed_insert piece hblank) hblank) hweighs
  · have hweighs : m.Weighs ps ↔ m.Weighs qs := weighs_congr hhighest
    refine ⟨hweighs, fun hne hcomma => ?_⟩
    have hne' : qs ≠ [] := by
      rintro rfl
      exact hne (List.perm_nil.mp hperm)
    exact acceptedBy_listed_congr hne hne' hcomma (fun w hw => hcomma w (hperm.mem_iff.mpr hw))
      (Text.allBlank_listed_of_perm hperm) hweighs

/-- All types are refused behind JSON, and then in front of it; in between stands a piece that is
no range. -/
theorem acceptedBy_exact_refused :
    let refused := WrittenMedia.spaced (0, Context.refusedRange, 1)
    let json := WrittenMedia.spaced (2, Context.jsonRange, 0)
    let broken := "json".toList
    MediaType.json.covering [broken] = [] ∧ ¬Text.AllBlank (Text.listed [json, refused]).toList ∧
      [json, refused].Perm [refused, json] ∧
      highest (MediaType.json.covering [json, refused]) =
        highest (MediaType.json.covering [refused, json]) ∧
      MediaType.json.acceptedBy (some (Text.listed [json, refused])) = true ∧
      MediaType.json.acceptedBy (some (Text.listed [json, broken, refused])) = true ∧
      MediaType.json.acceptedBy (some (Text.listed [refused, json])) = true := by
  intro refused json broken
  have hrefused : read? (String.ofList refused) = some Context.refusedRange.trimmed.media :=
    WrittenMedia.read?_spaced (w := (0, Context.refusedRange, 1))
      (WrittenMedia.isWellFormed_iff.mp (by decide +kernel))
  have hjson : read? (String.ofList json) = some Context.jsonRange.trimmed.media :=
    WrittenMedia.read?_spaced (w := (2, Context.jsonRange, 0))
      (WrittenMedia.isWellFormed_iff.mp (by decide +kernel))
  have hbroken : MediaType.json.covering [broken] = [] := by decide +kernel
  have hjoined : MediaType.json.covering [json, refused] =
      [Context.jsonRange.trimmed.media, Context.refusedRange.trimmed.media] := by
    simp only [covering, List.filterMap_cons, hjson, hrefused, List.filterMap_nil]
    decide +kernel
  have hturned : MediaType.json.covering [refused, json] =
      [Context.refusedRange.trimmed.media, Context.jsonRange.trimmed.media] := by
    simp only [covering, List.filterMap_cons, hjson, hrefused, List.filterMap_nil]
    decide +kernel
  have hhighest : highest (MediaType.json.covering [json, refused]) =
      highest (MediaType.json.covering [refused, json]) := by
    rw [hjoined, hturned]
    decide +kernel
  have hcomma : ∀ w ∈ [json, broken, refused], ',' ∉ w := by decide +kernel
  have hblank : ¬Text.AllBlank (Text.listed [json, refused]).toList := by decide +kernel
  have hswap : [json, refused].Perm [refused, json] := .swap _ _ _
  obtain ⟨hiff, hinsert, hperm⟩ := acceptedBy_exact MediaType.json
  have haccepted : MediaType.json.acceptedBy (some (Text.listed [json, refused])) = true := by
    have hleads : Leads Context.jsonRange.trimmed.media [] [Context.refusedRange.trimmed.media] :=
      ⟨by simp, List.forall_mem_singleton.mpr (by decide +kernel)⟩
    have hpieces : Text.pieces ',' (Text.listed [json, refused]).toList = [json, refused] := by
      decide +kernel
    have hweighs : MediaType.json.Weighs [json, refused] :=
      ⟨[], _, _, hjoined, hleads, by decide +kernel⟩
    rw [← hpieces] at hweighs
    exact (hiff _).mpr (.inr hweighs)
  refine ⟨hbroken, hblank, hswap, hhighest, haccepted, ?_, ?_⟩
  · rw [← haccepted]
    exact (hinsert [json] broken [refused] hbroken).2 hcomma hblank
  · rw [← haccepted]
    exact ((hperm _ _ hswap hhighest).2 (by simp) (by decide +kernel)).symm

end MediaType

end HttpApp
