/-
  HttpApp/Proofs/Text/LetterCase.lean --- the case of ASCII letters.

  ASCII letters are bytes and characters of their own, so their case can be changed in a
  text or in its bytes.  It does not matter to the digits of percent triples, nor to the
  form that the letters around them have in lower case: an ASCII letter of either case
  is a letter, and none of them is ignored at the end of a word.  Main statements:
  `Text.toLowercase_toAsciiLowercase` and `Percent.toAsciiLowercase_decode`.
-/
import HttpApp.Proofs.Text.Decoding
import HttpApp.Text.Lowercase

set_option autoImplicit false

namespace HttpApp

/-! ## Characters -/

namespace Text

theorem toNat_toLower (c : Char) :
    c.toLower.toNat = if 65 ≤ c.toNat ∧ c.toNat ≤ 90 then c.toNat + 32 else c.toNat := by
  have hiff : c.val ≥ 'A'.val ∧ c.val ≤ 'Z'.val ↔ 65 ≤ c.toNat ∧ c.toNat ≤ 90 := by
    simp [UInt32.le_iff_toNat_le]
  by_cases h : c.val ≥ 'A'.val ∧ c.val ≤ 'Z'.val
  · have hval : c.toLower.val = c.val + ('a'.val - 'A'.val) := congrArg Char.val (dif_pos h)
    have hrange := hiff.mp h
    rw [if_pos hrange, ← Char.toNat_val, hval, UInt32.toNat_add, Char.toNat_val]
    simp
    omega
  · have hself : c.toLower = c := dif_neg h
    rw [hself, if_neg (mt hiff.mpr h)]

theorem toLower_eq_self {c : Char} (h : c.toNat < 65 ∨ 90 < c.toNat) : c.toLower = c := by
  rw [← Char.toNat_inj, toNat_toLower, if_neg (by omega)]

/-- No other character becomes one that is no letter. -/
theorem toLower_eq_iff {c d : Char} (hd : d.toNat < 65 ∨ 122 < d.toNat) :
    c.toLower = d ↔ c = d := by
  rw [← Char.toNat_inj, ← Char.toNat_inj, toNat_toLower]
  split <;> omega

/-- The case of ASCII letters does not matter where it does not matter for any of them. -/
theorem apply_toLower {α : Type} {f : Char → α}
    (h : ∀ n, n < 128 → f (Char.ofNat n).toLower = f (Char.ofNat n)) (c : Char) :
    f c.toLower = f c := by
  by_cases hc : c.toNat < 128
  · have hchar := h c.toNat hc
    rwa [Char.ofNat_toNat] at hchar
  · rw [toLower_eq_self (by omega)]

theorem isCased_toLower (c : Char) : isCased c.toLower = isCased c :=
  apply_toLower (by decide) c

theorem isCaseIgnorable_toLower (c : Char) : isCaseIgnorable c.toLower = isCaseIgnorable c :=
  apply_toLower (by decide) c

theorem lowerChar_toLower (c : Char) : lowerChar c.toLower = lowerChar c :=
  apply_toLower (by decide) c

theorem startsCased_map_toLower (cs : List Char) :
    startsCased (cs.map Char.toLower) = startsCased cs := by
  have hignorable : isCaseIgnorable ∘ Char.toLower = isCaseIgnorable :=
    funext isCaseIgnorable_toLower
  have hcased : isCased ∘ Char.toLower = isCased := funext isCased_toLower
  rw [startsCased, startsCased, List.dropWhile_map, hignorable, List.head?_map, Option.map_map,
    hcased]

theorem lowerFrom_map_toLower (before cs : List Char) :
    lowerFrom (before.map Char.toLower) (cs.map Char.toLower) = lowerFrom before cs := by
  induction cs generalizing before with
  | nil => rfl
  | cons c cs ih =>
    have hsigma : c.toLower = '\u03A3' ↔ c = '\u03A3' := toLower_eq_iff (by decide)
    have ih := ih (c :: before)
    rw [List.map_cons] at ih
    simp only [List.map_cons, lowerFrom, hsigma, startsCased_map_toLower, lowerChar_toLower, ih]

theorem toList_toAsciiLowercase (s : String) :
    (toAsciiLowercase s).toList = s.toList.map Char.toLower := by
  rw [toAsciiLowercase, String.toList_map]

/-- The lower case of a text does not depend on the case of its ASCII letters. -/
theorem toLowercase_toAsciiLowercase (s : String) :
    toLowercase (toAsciiLowercase s) = toLowercase s := by
  rw [toLowercase, toLowercase, toList_toAsciiLowercase]
  exact congrArg String.ofList (lowerFrom_map_toLower [] s.toList)

end Text

/-! ## Bytes -/

namespace Bytes

/-- The byte of an ASCII letter in lower case, and any other byte as it is. -/
def lower (b : UInt8) : UInt8 :=
  if 65 ≤ b.toNat ∧ b.toNat ≤ 90 then UInt8.ofNat (b.toNat + 32) else b

theorem toNat_lower (b : UInt8) :
    (lower b).toNat = if 65 ≤ b.toNat ∧ b.toNat ≤ 90 then b.toNat + 32 else b.toNat := by
  rw [lower]
  split
  · rw [UInt8.toNat_ofNat']
    omega
  · rfl

theorem lower_eq_self {b : UInt8} (h : b.toNat < 65 ∨ 90 < b.toNat) : lower b = b := by
  rw [← UInt8.toNat_inj, toNat_lower, if_neg (by omega)]

theorem lower_lower (b : UInt8) : lower (lower b) = lower b := by
  apply lower_eq_self
  rw [toNat_lower]
  split <;> omega

theorem map_lower_lower (b : Bytes) : (b.map lower).map lower = b.map lower := by
  rw [List.map_map]
  exact List.map_congr_left fun x _ => lower_lower x

theorem utf8EncodeChar_toLower (c : Char) :
    String.utf8EncodeChar c.toLower = (String.utf8EncodeChar c).map lower := by
  have hnat := Text.toNat_toLower c
  by_cases hc : c.toNat < 128
  · have hlower : c.toLower.toNat < 128 := by
      rw [hnat]
      split <;> omega
    have hbyte : UInt8.ofNat c.toLower.toNat = lower (UInt8.ofNat c.toNat) := by
      rw [← UInt8.toNat_inj, toNat_lower, UInt8.toNat_ofNat', UInt8.toNat_ofNat',
        Nat.mod_eq_of_lt (by omega), Nat.mod_eq_of_lt (by omega), hnat]
    rw [utf8EncodeChar_of_lt hc, utf8EncodeChar_of_lt hlower, hbyte, List.map_singleton]
  · -- No byte of the character is below 128.
    have hself : (String.utf8EncodeChar c).map lower = String.utf8EncodeChar c := by
      refine (List.map_congr_left fun x hx => ?_).trans (List.map_id _)
      have heq := @toNat_eq_of_mem_utf8EncodeChar c x hx
      exact lower_eq_self (by omega)
    rw [hself, Text.toLower_eq_self (by omega)]

theorem ofText_toAsciiLowercase (s : String) :
    ofText (Text.toAsciiLowercase s) = (ofText s).map lower := by
  rw [ofText, ofText, Text.toList_toAsciiLowercase, List.flatMap_map, List.map_flatMap,
    funext utf8EncodeChar_toLower]

end Bytes

/-! ## Percent triples -/

namespace Percent

theorem digit?_lower (b : UInt8) : digit? (Bytes.lower b) = digit? b := by
  have hnat := Bytes.toNat_lower b
  unfold digit?
  rw [hnat]
  grind

theorem lower_eq_percent_iff (b : UInt8) : Bytes.lower b = 37 ↔ b = 37 := by
  have hnat := Bytes.toNat_lower b
  rw [← UInt8.toNat_inj, ← UInt8.toNat_inj, hnat]
  simp only [UInt8.reduceToNat]
  split <;> omega

/-- The case of ASCII letters does not matter in triples, and is kept elsewhere. -/
theorem map_lower_decodeBytes (b : Bytes) :
    (decodeBytes (b.map Bytes.lower)).map Bytes.lower = (decodeBytes b).map Bytes.lower := by
  induction b using decodeBytes.induct with
  | case1 => rfl
  | case2 a => exact Bytes.map_lower_lower [a]
  | case3 a c => exact Bytes.map_lower_lower [a, c]
  | case4 h l rest x y hx hy ih =>
    simp only [List.map_cons]
    rw [decodeBytes, decodeBytes, if_pos rfl, if_pos ((lower_eq_percent_iff 37).mpr rfl),
      digit?_lower, digit?_lower, hx, hy]
    exact congrArg (_ :: ·) ih
  | case5 h l rest hnone ih =>
    have hdigits : digit? h = none ∨ digit? l = none := by
      rcases hx : digit? h with _ | x
      · exact .inl rfl
      · exact .inr (Option.eq_none_iff_forall_ne_some.mpr fun y hy => hnone x y hx hy)
    have hplain : decodeBytes (37 :: h :: l :: rest) = 37 :: decodeBytes (h :: l :: rest) := by
      refine decodeBytes_cons_of_no_digits 37 fun x y tail heq => ?_
      obtain ⟨rfl, rfl, -⟩ := heq
      exact hdigits
    have hlower : decodeBytes ((37 :: h :: l :: rest).map Bytes.lower) =
        Bytes.lower 37 :: decodeBytes ((h :: l :: rest).map Bytes.lower) := by
      refine decodeBytes_cons_of_no_digits _ fun x y tail heq => ?_
      obtain ⟨rfl, rfl, -⟩ := heq
      rwa [digit?_lower, digit?_lower]
    rw [hplain, hlower]
    exact List.cons_eq_cons.mpr ⟨Bytes.lower_lower 37, ih⟩
  | case6 a h l rest ha ih =>
    have hlower : decodeBytes ((a :: h :: l :: rest).map Bytes.lower) =
        Bytes.lower a :: decodeBytes ((h :: l :: rest).map Bytes.lower) :=
      decodeBytes_cons (mt (lower_eq_percent_iff a).mp ha) _
    rw [decodeBytes_cons ha, hlower]
    exact List.cons_eq_cons.mpr ⟨Bytes.lower_lower a, ih⟩

end Percent

/-! ## Reading leniently -/

namespace Utf8

/-- What a byte sequence starts with when its ASCII letters are in lower case. -/
def Front.lowered : Front → Front
  | .char c rest => .char c.toLower (rest.map Bytes.lower)
  | .invalid size rest => .invalid size (rest.map Bytes.lower)
  | .finished => .finished
  | .truncated => .truncated

theorem lower_of_isTail {b : UInt8} (h : isTail b = true) : Bytes.lower b = b := by
  simp only [isTail, Bool.and_eq_true, decide_eq_true_eq] at h
  exact Bytes.lower_eq_self (by omega)

theorem isTail_lower (b : UInt8) : isTail (Bytes.lower b) = isTail b := by
  have hnat := Bytes.toNat_lower b
  rw [isTail, isTail, hnat, Bool.eq_iff_iff]
  simp only [Bool.and_eq_true, decide_eq_true_eq]
  split <;> omega

theorem secondOfThree_lower (x : Nat) (b : UInt8) :
    secondOfThree x (Bytes.lower b) = secondOfThree x b := by
  cases h : isTail b with
  | true => rw [lower_of_isTail h]
  | false => rw [secondOfThree, secondOfThree, isTail_lower, h, Bool.false_and, Bool.false_and]; rfl

theorem secondOfFour_lower (x : Nat) (b : UInt8) :
    secondOfFour x (Bytes.lower b) = secondOfFour x b := by
  cases h : isTail b with
  | true => rw [lower_of_isTail h]
  | false => rw [secondOfFour, secondOfFour, isTail_lower, h, Bool.false_and, Bool.false_and]; rfl

theorem toLower_ofNat {n : Nat} (h : 128 ≤ n) : (Char.ofNat n).toLower = Char.ofNat n := by
  apply Text.toLower_eq_self
  by_cases hn : n.isValidChar
  · have heq : Char.ofNat n = Char.ofNatAux n hn := dif_pos hn
    have hnat : (Char.ofNat n).toNat = n := by rw [heq]; rfl
    omega
  · have heq : Char.ofNat n = '\x00' := dif_neg hn
    rw [heq]
    decide

theorem frontTwo_map_lower {x : Nat} (hx : 0xC2 ≤ x) (l : Bytes) :
    frontTwo x (l.map Bytes.lower) = (frontTwo x l).lowered := by
  rcases l with _ | ⟨b, l⟩
  · rfl
  · simp only [List.map_cons, frontTwo, isTail_lower]
    split
    · next hb => rw [lower_of_isTail hb, Front.lowered, toLower_ofNat (by omega)]
    · rfl

theorem frontThree_map_lower {x : Nat} (hx : 0xE0 ≤ x) (l : Bytes) :
    frontThree x (l.map Bytes.lower) = (frontThree x l).lowered := by
  rcases l with _ | ⟨b, _ | ⟨c, l⟩⟩
  · rfl
  · simp only [List.map_cons, List.map_nil, frontThree, secondOfThree_lower]
    split <;> rfl
  · simp only [List.map_cons, frontThree, secondOfThree_lower, isTail_lower]
    split
    · next hb =>
      split
      · next hc =>
        have hlarge : 128 ≤ (x - 0xE0) * 4096 + (b.toNat - 0x80) * 64 + (c.toNat - 0x80) := by
          simp only [secondOfThree, isTail, Bool.and_eq_true, Bool.or_eq_true, bne_iff_ne,
            decide_eq_true_eq] at hb
          omega
        rw [lower_of_isTail hc, lower_of_isTail (by simp_all [secondOfThree]), Front.lowered,
          toLower_ofNat hlarge]
      · rfl
    · rfl

theorem frontFour_map_lower {x : Nat} (hx : 0xF0 ≤ x) (l : Bytes) :
    frontFour x (l.map Bytes.lower) = (frontFour x l).lowered := by
  rcases l with _ | ⟨b, _ | ⟨c, _ | ⟨d, l⟩⟩⟩
  · rfl
  · simp only [List.map_cons, List.map_nil, frontFour, secondOfFour_lower]
    split <;> rfl
  · simp only [List.map_cons, List.map_nil, frontFour, secondOfFour_lower, isTail_lower]
    split
    · split <;> rfl
    · rfl
  · simp only [List.map_cons, frontFour, secondOfFour_lower, isTail_lower]
    split
    · next hb =>
      split
      · next hc =>
        split
        · next hd =>
          have hlarge : 128 ≤ (x - 0xF0) * 262144 + (b.toNat - 0x80) * 4096 +
              (c.toNat - 0x80) * 64 + (d.toNat - 0x80) := by
            simp only [secondOfFour, isTail, Bool.and_eq_true, Bool.or_eq_true, bne_iff_ne,
              decide_eq_true_eq] at hb
            omega
          rw [lower_of_isTail hd, lower_of_isTail hc, lower_of_isTail (by simp_all [secondOfFour]),
            Front.lowered, toLower_ofNat hlarge]
        · rfl
      · rfl
    · rfl

theorem front_map_lower (b : Bytes) : front (b.map Bytes.lower) = (front b).lowered := by
  cases b with
  | nil => rfl
  | cons a l =>
    rw [List.map_cons, front, front]
    by_cases ha : a.toNat < 0x80
    · have hnat := Bytes.toNat_lower a
      have hlower : (Bytes.lower a).toNat < 0x80 := by
        rw [hnat]
        split <;> omega
      have hchar : Char.ofNat (Bytes.lower a).toNat = (Char.ofNat a.toNat).toLower := by
        rw [← Char.toNat_inj, Bytes.toNat_ofNat_of_lt hlower, Text.toNat_toLower,
          Bytes.toNat_ofNat_of_lt ha, hnat]
      rw [if_pos ha, if_pos hlower, hchar]
      rfl
    · have hself : Bytes.lower a = a := Bytes.lower_eq_self (by omega)
      rw [hself, if_neg ha, if_neg ha]
      split
      · rfl
      · split
        · exact frontTwo_map_lower (by omega) l
        · split
          · exact frontThree_map_lower (by omega) l
          · split
            · exact frontFour_map_lower (by omega) l
            · rfl

/-- Lower case goes through reading: the ASCII letters of a text are those of its bytes. -/
theorem lossy_map_lower (b : Bytes) :
    lossy (b.map Bytes.lower) = Text.toAsciiLowercase (lossy b) := by
  apply String.toList_injective
  rw [Text.toList_toAsciiLowercase]
  induction hn : b.length using Nat.strongRecOn generalizing b with
  | ind n ih =>
    subst hn
    have hfront := front_map_lower b
    cases hb : front b with
    | finished =>
      rw [hb] at hfront
      rw [toList_lossy_of_finished hb, toList_lossy_of_finished hfront]
      rfl
    | char c rest =>
      rw [hb] at hfront
      rw [toList_lossy_of_char hb, toList_lossy_of_char hfront,
        ih _ (length_of_front (by rw [hb]; rfl)) rest rfl, List.map_cons]
    | invalid size rest =>
      rw [hb] at hfront
      rw [toList_lossy_of_invalid hb, toList_lossy_of_invalid hfront,
        ih _ (length_of_front (by rw [hb]; rfl)) rest rfl, List.map_cons]
      rfl
    | truncated =>
      rw [hb] at hfront
      rw [toList_lossy_of_truncated hb, toList_lossy_of_truncated hfront]
      rfl

end Utf8

/-- Changing the case of ASCII letters in a text changes no more in what it is decoded to. -/
theorem Percent.toAsciiLowercase_decode (s : String) :
    Text.toAsciiLowercase (decode (Text.toAsciiLowercase s)) =
      Text.toAsciiLowercase (decode s) := by
  rw [decode, decode, ← Utf8.lossy_map_lower, ← Utf8.lossy_map_lower,
    Bytes.ofText_toAsciiLowercase, map_lower_decodeBytes]

end HttpApp
