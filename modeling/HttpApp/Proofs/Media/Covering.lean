/-
  HttpApp/Proofs/Media/Covering.lean --- which media types a range covers.

  A range covers a type by its subtype without the suffix, which is the part behind the
  last plus sign; two types are the same by their whole subtypes.  Cutting the suffix off
  loses nothing, and the case of letters does not matter to where it is cut.  So a range
  without stars covers the types that are the same as itself up to the suffix.  Main
  statement: `MediaType.within_exact`.
-/
import HttpApp.Media.Range
import HttpApp.Proofs.Text.LetterCase

set_option autoImplicit false

namespace HttpApp

namespace Text

theorem equalIgnoringAsciiCase_iff {a b : String} :
    equalIgnoringAsciiCase a b = true ↔ a.toList.map Char.toLower = b.toList.map Char.toLower :=
  beq_iff_eq

theorem equalIgnoringAsciiCase_comm (a b : String) :
    equalIgnoringAsciiCase a b = equalIgnoringAsciiCase b a :=
  BEq.comm

/-- The characters of tokens stay so in lower case. -/
theorem isTokenChar_toLower (c : Char) : isTokenChar c.toLower = isTokenChar c :=
  apply_toLower (by decide) c

theorem forall_isTokenChar_toLower {cs : List Char} (h : ∀ c ∈ cs, isTokenChar c = true) :
    ∀ c ∈ cs.map Char.toLower, isTokenChar c = true := by
  simpa only [List.forall_mem_map, isTokenChar_toLower] using h

end Text

namespace MediaType

/-! ## What is read is made of tokens -/

/-- A media type or range whose type and subtype are made of the characters of tokens. -/
structure OfTokens (m : MediaType) : Prop where
  type : ∀ c ∈ m.type.toList, Text.isTokenChar c = true
  subtype : ∀ c ∈ m.fullSubtype.toList, Text.isTokenChar c = true

theorem ofTokens_assemble {type subtype : List Char} (params : List WrittenParam)
    (last : Option (List Char)) (htype : ∀ c ∈ type, Text.isTokenChar c = true)
    (hsubtype : ∀ c ∈ subtype, Text.isTokenChar c = true) :
    (assemble type subtype params last).OfTokens where
  type := by
    simpa only [assemble, String.toList_ofList] using Text.forall_isTokenChar_toLower htype
  subtype := by
    simpa only [assemble, String.toList_ofList] using Text.forall_isTokenChar_toLower hsubtype

theorem ofTokens_of_readTrimmed? {cs : List Char} {m : MediaType} (h : readTrimmed? cs = some m) :
    m.OfTokens := by
  have hword : ∀ l : List Char, ∀ c ∈ l.takeWhile Text.isTokenChar, Text.isTokenChar c = true :=
    fun _ => List.all_eq_true.mp List.all_takeWhile
  unfold readTrimmed? at h
  dsimp only at h
  split at h
  · next type rest htype hrest =>
    split at h
    · obtain rfl := Option.some.inj h
      exact ofTokens_assemble _ _ (htype ▸ hword cs) (hword _)
    · split at h
      · cases h
      · obtain ⟨p, -, rfl⟩ := Option.map_eq_some_iff.mp h
        exact ofTokens_assemble _ _ (htype ▸ hword cs) (hword _)
    · cases h
  · cases h

/-- Every media type that can be read is made of tokens. -/
theorem ofTokens_of_read? {s : String} {m : MediaType} (h : read? s = some m) : m.OfTokens :=
  ofTokens_of_readTrimmed? h

/-- A slash is in no type, so the essence is cut at its first one. -/
theorem OfTokens.slash_notMem {m : MediaType} (h : m.OfTokens) : '/' ∉ m.type.toList :=
  fun hmem => absurd (h.type '/' hmem) (by decide)

theorem toList_essence (m : MediaType) :
    m.essence.toList = m.type.toList ++ '/' :: m.fullSubtype.toList := by
  have hslash : "/".toList = ['/'] := rfl
  simp [essence, hslash]

/-! ## Suffixes -/

/-- Cutting the suffix off loses nothing. -/
theorem append_split (before cs : List Char) :
    (subtypeParts.split before cs).1 ++
      (subtypeParts.split before cs).2.elim [] (fun suffix => '+' :: suffix) = cs := by
  induction cs generalizing before with
  | nil => rfl
  | cons c cs ih =>
    have ih := ih (c :: before)
    rw [subtypeParts.split]
    split
    · next base suffix heq =>
      rw [heq] at ih
      exact congrArg (c :: ·) ih
    · next base heq =>
      rw [heq] at ih
      split
      · next hplus => exact congrArg (· :: cs) hplus.1.symm
      · exact congrArg (c :: ·) ih

/-- Where a subtype is cut does not depend on the case of its letters. -/
theorem split_map_toLower (before cs : List Char) :
    subtypeParts.split (before.map Char.toLower) (cs.map Char.toLower) =
      ((subtypeParts.split before cs).1.map Char.toLower,
        (subtypeParts.split before cs).2.map (List.map Char.toLower)) := by
  induction cs generalizing before with
  | nil => rfl
  | cons c cs ih =>
    have ih := ih (c :: before)
    have hplus : c.toLower = '+' ↔ c = '+' := Text.toLower_eq_iff (by decide)
    rw [List.map_cons] at ih ⊢
    rw [subtypeParts.split, subtypeParts.split, ih]
    rcases subtypeParts.split (c :: before) cs with ⟨base, _ | suffix⟩
    · simp only [Option.map_none, hplus, ne_eq, List.map_eq_nil_iff]
      split <;> rfl
    · rfl

/-- A media type without its suffix and its parameters. -/
def withoutSuffix (m : MediaType) : MediaType := plain m.type m.subtype

/-- Whether two media types have the same suffix, or none, the case of letters aside. -/
def SameSuffix (t r : MediaType) : Prop :=
  t.subtypeParts.2.map (List.map Char.toLower) = r.subtypeParts.2.map (List.map Char.toLower)

instance (t r : MediaType) : Decidable (SameSuffix t r) := inferInstanceAs (Decidable (_ = _))

/-- Whole subtypes are equal if what stands in front of their suffixes and the suffixes are. -/
theorem equal_fullSubtype_iff {t r : MediaType} :
    Text.equalIgnoringAsciiCase t.fullSubtype r.fullSubtype = true ↔
      Text.equalIgnoringAsciiCase t.subtype r.subtype = true ∧ SameSuffix t r := by
  simp only [Text.equalIgnoringAsciiCase_iff, subtype, String.toList_ofList, SameSuffix,
    subtypeParts]
  have ht := split_map_toLower [] t.fullSubtype.toList
  have hr := split_map_toLower [] r.fullSubtype.toList
  constructor
  · intro h
    rw [h, hr] at ht
    exact ⟨(congrArg Prod.fst ht).symm, (congrArg Prod.snd ht).symm⟩
  · rintro ⟨hbase, hsuffix⟩
    rw [hbase, hsuffix, ← hr] at ht
    rw [← append_split ([].map Char.toLower) (t.fullSubtype.toList.map Char.toLower), ht,
      append_split]

/-! ## Covering -/

theorem sameEssence_iff {t r : MediaType} (ht : '/' ∉ t.type.toList) (hr : '/' ∉ r.type.toList) :
    t.sameEssence r = true ↔ Text.equalIgnoringAsciiCase t.type r.type = true ∧
      Text.equalIgnoringAsciiCase t.fullSubtype r.fullSubtype = true := by
  have hlower : ∀ {cs : List Char}, '/' ∉ cs → '/' ∉ cs.map Char.toLower := by
    intro cs hcs hmem
    obtain ⟨c, hc, hslash⟩ := List.mem_map.mp hmem
    exact hcs ((Text.toLower_eq_iff (by decide)).mp hslash ▸ hc)
  have hcut : ∀ m : MediaType, '/' ∉ m.type.toList →
      Text.cutAt? '/' (m.essence.toList.map Char.toLower) =
        some (m.type.toList.map Char.toLower, m.fullSubtype.toList.map Char.toLower) := by
    intro m hm
    rw [toList_essence, List.map_append, List.map_cons]
    exact Text.cutAt?_append _ (hlower hm)
  simp only [sameEssence, Text.equalIgnoringAsciiCase_iff]
  constructor
  · intro h
    have hparts := hcut t ht
    rw [h, hcut r hr] at hparts
    obtain ⟨htype, hsubtype⟩ := Prod.mk.inj (Option.some.inj hparts)
    exact ⟨htype.symm, hsubtype.symm⟩
  · rintro ⟨htype, hsubtype⟩
    simp only [toList_essence, List.map_append, List.map_cons, htype, hsubtype]

theorem partCovers_iff {range part : String} :
    partCovers range part = true ↔
      range = "*" ∨ Text.equalIgnoringAsciiCase part range = true := by
  rw [partCovers, Bool.or_eq_true, beq_iff_eq, Text.equalIgnoringAsciiCase_comm]

theorem within_iff {t r : MediaType} :
    t.within r = true ↔ (r.type = "*" ∨ Text.equalIgnoringAsciiCase t.type r.type = true) ∧
      (r.subtype = "*" ∨ Text.equalIgnoringAsciiCase t.subtype r.subtype = true) := by
  rw [within, Bool.and_eq_true, partCovers_iff, partCovers_iff]

/-- A star as the whole subtype is the subtype without a suffix. -/
theorem subtype_eq_star {r : MediaType} (h : r.fullSubtype = "*") : r.subtype = "*" := by
  rw [subtype, subtypeParts, h]
  rfl

/-- An essence tells the type and the whole subtype. -/
theorem OfTokens.eq_of_essence {r : MediaType} (hr : r.OfTokens) {type subtype : List Char}
    (htype : '/' ∉ type) (h : r.essence.toList = type ++ '/' :: subtype) :
    r.type.toList = type ∧ r.fullSubtype.toList = subtype := by
  have hcut := Text.cutAt?_append r.fullSubtype.toList hr.slash_notMem
  rw [← toList_essence, h, Text.cutAt?_append _ htype] at hcut
  obtain ⟨htype, hsubtype⟩ := Prod.mk.inj (Option.some.inj hcut)
  exact ⟨htype.symm, hsubtype.symm⟩

/-- What a range covers.  A range without stars covers the types that are the same as itself, apart
from their suffixes; among those that have its own suffix, or none like itself, these are exactly
the types of the same essence, and the others it covers are not of its essence.  A range of all
subtypes covers the types of its top-level type, also if it has a suffix, and the range of all
types covers every type. -/
theorem within_exact {t r : MediaType} (ht : t.OfTokens) (hr : r.OfTokens) :
    (r.type ≠ "*" → r.subtype ≠ "*" →
      (t.within r = true ↔ t.withoutSuffix.sameEssence r.withoutSuffix = true) ∧
      (SameSuffix t r → (t.within r = true ↔ t.sameEssence r = true)) ∧
      (¬SameSuffix t r → t.sameEssence r = false)) ∧
    (r.type ≠ "*" → r.essence = r.type ++ "/*" ∨ r.subtype = "*" →
      (t.within r = true ↔ Text.equalIgnoringAsciiCase t.type r.type = true)) ∧
    (r.essence = "*/*" → t.within r = true) := by
  refine ⟨fun htype hsubtype => ?_, fun htype hstar => ?_, fun hessence => ?_⟩
  · have hwithin : t.within r = true ↔ Text.equalIgnoringAsciiCase t.type r.type = true ∧
        Text.equalIgnoringAsciiCase t.subtype r.subtype = true := by
      rw [within_iff, or_iff_right htype, or_iff_right hsubtype]
    have hessence : t.sameEssence r = true ↔ t.within r = true ∧ SameSuffix t r := by
      rw [sameEssence_iff ht.slash_notMem hr.slash_notMem, equal_fullSubtype_iff, hwithin,
        and_assoc]
    refine ⟨?_, fun hsuffix => ?_, fun hsuffix => ?_⟩
    · rw [hwithin]
      exact (@sameEssence_iff t.withoutSuffix r.withoutSuffix ht.slash_notMem hr.slash_notMem).symm
    · rw [hessence, and_iff_left hsuffix]
    · exact Bool.eq_false_iff.mpr fun hsame => hsuffix (hessence.mp hsame).2
  · have hsubtype : r.subtype = "*" := by
      refine hstar.elim (fun hessence => subtype_eq_star ?_) id
      have hlist : r.essence.toList = r.type.toList ++ '/' :: ['*'] := by
        rw [hessence, String.toList_append]
        rfl
      exact String.toList_inj.mp (hr.eq_of_essence hr.slash_notMem hlist).2
    rw [within_iff, or_iff_right htype, and_iff_left (.inl hsubtype)]
  · obtain ⟨htype, hsubtype⟩ := @OfTokens.eq_of_essence r hr ['*'] ['*'] (by decide)
      (congrArg String.toList hessence)
    exact within_iff.mpr ⟨.inl (String.toList_inj.mp htype),
      .inl (subtype_eq_star (String.toList_inj.mp hsubtype))⟩

/-- A type with a suffix. -/
def apiJson : MediaType := plain "application" "vnd.api+json"

/-- The same type but for the suffix, as a range. -/
def apiXml : MediaType := plain "application" "vnd.api+xml"

theorem within_exact_api :
    read? "Application/Vnd.API+JSON" = some apiJson ∧ read? "application/vnd.api+xml" = some apiXml ∧
      apiJson.OfTokens ∧ apiXml.OfTokens ∧ apiXml.type ≠ "*" ∧ apiXml.subtype ≠ "*" ∧
      ¬SameSuffix apiJson apiXml ∧ apiJson.within apiXml = true ∧
      apiJson.sameEssence apiXml = false := by
  have hjson : read? "Application/Vnd.API+JSON" = some apiJson := by decide +kernel
  have hxml : read? "application/vnd.api+xml" = some apiXml := by decide +kernel
  have hsuffix : ¬SameSuffix apiJson apiXml := by decide
  obtain ⟨hwithin, -, hessence⟩ := (within_exact (ofTokens_of_read? hjson)
    (ofTokens_of_read? hxml)).1 (by decide) (by decide)
  exact ⟨hjson, hxml, ofTokens_of_read? hjson, ofTokens_of_read? hxml, by decide, by decide,
    hsuffix, hwithin.mpr (by decide), hessence hsuffix⟩

/-- A range without stars covers a type that is not of its essence. -/
theorem not_exact_suffix :
    ¬∀ t r : MediaType, t.OfTokens → r.OfTokens → r.type ≠ "*" → r.subtype ≠ "*" →
      (t.within r = true ↔ t.sameEssence r = true) := by
  intro h
  have hjson : read? "application/vnd.api+json" = some apiJson := by decide +kernel
  have hxml : read? "application/vnd.api+xml" = some apiXml := by decide +kernel
  have hiff := h apiJson apiXml (ofTokens_of_read? hjson) (ofTokens_of_read? hxml) (by decide)
    (by decide)
  revert hiff
  decide

end MediaType

end HttpApp
