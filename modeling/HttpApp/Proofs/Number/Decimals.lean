/-
  HttpApp/Proofs/Number/Decimals.lean --- plain decimals are read, and stay above zero.

  A plain decimal is one or more digits and, where there is a point, more digits behind
  it.  The number that is read has these digits, and it is above zero if one of them
  is.  Rounding keeps that as long as the fraction is not longer than the smallest
  binary number allows.  Main statement: `isPositive_round_plain_iff`.
-/
import Mathlib.Data.List.TakeDrop
import HttpApp.Number.Binary
import HttpApp.Text.Blank
import HttpApp.Text.Cut

set_option autoImplicit false

namespace HttpApp

/-! ## Digits -/

namespace Numeral

/-- Digits are a run in front of nothing, or of a character that is no digit. -/
theorem digitRun_append {ds rest : List Char} (hds : ∀ c ∈ ds, c.isDigit = true)
    (hrest : ∀ c, rest.head? = some c → c.isDigit = false) :
    digitRun (ds ++ rest) = (ds.filterMap IntegerRange.digit?, rest) := by
  obtain ⟨htake, hdrop⟩ := Text.takeWhile_append_stop hds hrest
  rw [digitRun, List.span_eq_takeWhile_dropWhile, htake, hdrop]

theorem digitRun_digits {ds : List Char} (h : ∀ c ∈ ds, c.isDigit = true) :
    digitRun ds = (ds.filterMap IntegerRange.digit?, []) := by
  have hrun := @digitRun_append ds [] h (by simp)
  rwa [List.append_nil] at hrun

theorem foldl_push_eq_zero_iff {n : Nat} {ds : List Nat} :
    ds.foldl push n = 0 ↔ n = 0 ∧ ∀ d ∈ ds, d = 0 := by
  induction ds generalizing n with
  | nil => simp
  | cons d ds ih =>
    rw [List.foldl_cons, ih, List.forall_mem_cons, push]
    constructor
    · rintro ⟨hn, hds⟩
      exact ⟨by omega, by omega, hds⟩
    · rintro ⟨hn, hd, hds⟩
      exact ⟨by omega, hds⟩

/-- The number that digits spell is above zero if one of the digits is. -/
theorem ofDigits_pos_iff {ds : List Nat} : 0 < ofDigits ds ↔ ∃ d ∈ ds, d ≠ 0 := by
  rw [ofDigits_eq_foldl, Nat.pos_iff_ne_zero, Ne, foldl_push_eq_zero_iff]
  simp

theorem digit?_of_isDigit {c : Char} (h : c.isDigit = true) :
    IntegerRange.digit? c = some (c.toNat - '0'.toNat) := by
  simp only [Char.isDigit, Bool.and_eq_true, decide_eq_true_eq] at h
  exact if_pos h

/-- A digit spells nothing above zero only if it is the zero. -/
theorem digit_ne_zero_iff {c : Char} (h : c.isDigit = true) : c.toNat - '0'.toNat ≠ 0 ↔ c ≠ '0' := by
  simp only [Char.isDigit, Bool.and_eq_true, decide_eq_true_eq, UInt32.le_iff_toNat_le,
    Char.toNat_val] at h
  have hzero : '0'.toNat = 48 := rfl
  constructor
  · rintro hne rfl
    exact hne (Nat.sub_self _)
  · intro hne hsub
    refine hne (Char.toNat_inj.mp ?_)
    simp at h
    omega

theorem exists_digit_ne_zero_iff {cs : List Char} (h : ∀ c ∈ cs, c.isDigit = true) :
    (∃ d ∈ cs.filterMap IntegerRange.digit?, d ≠ 0) ↔ ∃ c ∈ cs, c ≠ '0' := by
  constructor
  · rintro ⟨d, hd, hne⟩
    obtain ⟨c, hc, hdigit⟩ := List.mem_filterMap.mp hd
    rw [digit?_of_isDigit (h c hc)] at hdigit
    obtain rfl := Option.some.inj hdigit
    exact ⟨c, hc, (digit_ne_zero_iff (h c hc)).mp hne⟩
  · rintro ⟨c, hc, hne⟩
    exact ⟨_, List.mem_filterMap.mpr ⟨c, hc, digit?_of_isDigit (h c hc)⟩,
      (digit_ne_zero_iff (h c hc)).mpr hne⟩

theorem filterMap_digit?_ne_nil {cs : List Char} (hne : cs ≠ [])
    (h : ∀ c ∈ cs, c.isDigit = true) : cs.filterMap IntegerRange.digit? ≠ [] := by
  obtain ⟨c, cs, rfl⟩ := List.exists_cons_of_ne_nil hne
  rw [List.filterMap_cons_some (digit?_of_isDigit (h c List.mem_cons_self))]
  exact List.cons_ne_nil _ _

end Numeral

/-! ## Plain decimals -/

/-- A plain decimal: digits, and where there is a point the digits behind it. -/
structure PlainDecimal where
  whole : List Char
  fraction : Option (List Char) := none

namespace PlainDecimal

/-- The text of a plain decimal. -/
def text (d : PlainDecimal) : List Char :=
  d.whole ++ (d.fraction.elim [] fun ds => '.' :: ds)

/-- There is a digit in front of the point, and all are digits. -/
structure Formed (d : PlainDecimal) : Prop where
  whole_ne_nil : d.whole ≠ []
  whole : ∀ c ∈ d.whole, c.isDigit = true
  fraction : ∀ c ∈ d.fraction.getD [], c.isDigit = true

/-- What the digits spell. -/
def numeral (d : PlainDecimal) : Numeral where
  negative := false
  whole := d.whole.filterMap IntegerRange.digit?
  fraction := d.fraction.map (·.filterMap IntegerRange.digit?)
  power := none

/-- A plain decimal is read as its digits. -/
theorem readNumeral?_text {d : PlainDecimal} (h : d.Formed) :
    Decimal.readNumeral? false d.text = some d.numeral := by
  obtain ⟨whole, fraction⟩ := d
  have hempty : (whole.filterMap IntegerRange.digit?).isEmpty = false :=
    List.isEmpty_eq_false_iff.mpr (Numeral.filterMap_digit?_ne_nil h.whole_ne_nil h.whole)
  cases fraction with
  | none =>
    have hwhole : Numeral.digitRun whole = _ := Numeral.digitRun_digits h.whole
    simp [Decimal.readNumeral?, text, hwhole, hempty, Decimal.readPower?, numeral]
  | some ds =>
    have hwhole : Numeral.digitRun (whole ++ '.' :: ds) = _ := Numeral.digitRun_append h.whole (by
      intro c hc
      obtain rfl := Option.some.inj hc
      decide)
    have hfraction : Numeral.digitRun ds = _ := Numeral.digitRun_digits h.fraction
    simp [Decimal.readNumeral?, text, hwhole, hfraction, hempty, Decimal.readPower?, numeral]

theorem read?_text {d : PlainDecimal} (h : d.Formed) :
    Decimal.read? d.text = some (.ofNumeral d.numeral) := by
  obtain ⟨c, cs, htext, hc⟩ : ∃ c cs, d.text = c :: cs ∧ c.isDigit = true := by
    obtain ⟨c, cs, hwhole⟩ := List.exists_cons_of_ne_nil h.whole_ne_nil
    exact ⟨c, _, by rw [text, hwhole, List.cons_append], h.whole c (by simp [hwhole])⟩
  have hminus : c ≠ '-' := by
    rintro rfl
    cases hc
  have hplus : c ≠ '+' := by
    rintro rfl
    cases hc
  have hread := readNumeral?_text h
  rw [htext] at hread ⊢
  simp [Decimal.read?, hminus, hplus, hread]

theorem mem_text_iff {d : PlainDecimal} {c : Char} :
    c ∈ d.text ↔ c ∈ d.whole ++ d.fraction.getD [] ∨ (c = '.' ∧ d.fraction ≠ none) := by
  cases hfraction : d.fraction with
  | none => simp [text, hfraction]
  | some ds => simp [text, hfraction, or_comm, or_assoc]

theorem Formed.isDigit {d : PlainDecimal} (h : d.Formed) :
    ∀ c ∈ d.whole ++ d.fraction.getD [], c.isDigit = true :=
  fun c hc => (List.mem_append.mp hc).elim (h.whole c) (h.fraction c)

/-- There are no blanks in a decimal. -/
theorem trimBlanks_text {d : PlainDecimal} (h : d.Formed) : Text.trimBlanks d.text = d.text := by
  have hblank : ∀ c ∈ d.text, Text.isBlank c = false := by
    intro c hc
    rcases mem_text_iff.mp hc with hc | ⟨rfl, -⟩
    · exact Text.not_isBlank_of_isDigit (h.isDigit c hc)
    · decide
  exact Text.trimEnds_of_ends (fun c hc => hblank c (List.mem_of_head? hc))
    fun c hc => hblank c (List.mem_of_getLast? hc)

/-- Whether the decimal is above zero: one of its digits is. -/
def IsPositive (d : PlainDecimal) : Prop := ∃ c ∈ d.text, c ≠ '0' ∧ c ≠ '.'

theorem coefficient_pos_iff {d : PlainDecimal} (h : d.Formed) :
    0 < d.numeral.coefficient ↔ d.IsPositive := by
  have hdigits : d.numeral.whole ++ d.numeral.fraction.getD [] =
      (d.whole ++ d.fraction.getD []).filterMap IntegerRange.digit? := by
    cases hfraction : d.fraction <;> simp [numeral, hfraction]
  rw [Numeral.coefficient, hdigits, Numeral.ofDigits_pos_iff,
    Numeral.exists_digit_ne_zero_iff h.isDigit]
  constructor
  · rintro ⟨c, hc, hzero⟩
    refine ⟨c, mem_text_iff.mpr (.inl hc), hzero, ?_⟩
    rintro rfl
    cases h.isDigit '.' hc
  · rintro ⟨c, hc, hzero, hpoint⟩
    exact ⟨c, (mem_text_iff.mp hc).resolve_right fun h => hpoint h.1, hzero⟩

end PlainDecimal

/-! ## Rounding -/

namespace BinaryFormat

/-- A quotient of more than a half is not rounded down to zero. -/
theorem roundQuotient_pos {num den : Nat} (h : den < 2 * num) : 0 < roundQuotient num den := by
  simp only [roundQuotient]
  rcases Nat.eq_zero_or_pos (num / den) with hzero | hpos
  · have hmod : num % den = num := by
      have hdiv := Nat.div_add_mod num den
      rw [hzero] at hdiv
      simpa using hdiv
    rw [hmod, if_neg (by omega), if_pos h]
    exact Nat.succ_pos _
  · split
    · exact hpos
    · split
      · exact Nat.succ_pos _
      · split
        · exact hpos
        · exact Nat.succ_pos _

theorem leastExponent_single : single.leastExponent = -149 := rfl

/-- A quotient of more than half the smallest number of 32 bits is not rounded down to zero. -/
theorem roundBits_pos {num den : Nat} (h : den < num * Nat.pow 2 150) :
    0 < single.roundBits num den := by
  unfold roundBits
  generalize hq : max (floorLog2 num den - single.fractionBits) single.leastExponent = q
  refine Nat.lt_min.mpr ⟨?_, by decide⟩
  rcases Int.lt_or_eq_of_le (hq ▸ Int.le_max_right _ _ : single.leastExponent ≤ q) with hlt | heq
  · -- Above the smallest step a leading bit is counted.
    have hsteps : 0 < (q - single.leastExponent).toNat := by omega
    exact Nat.add_pos_left (Nat.mul_pos hsteps (by decide)) _
  · refine Nat.add_pos_right _ ?_
    rw [← heq, leastExponent_single, if_neg (by decide)]
    have hpow : Nat.pow 2 150 = 2 * Nat.pow 2 (-(-149 : Int)).toNat := by decide
    rw [hpow, Nat.mul_left_comm] at h
    exact roundQuotient_pos h

theorem isPositive_roundBits {num den : Nat} (h : den < num * Nat.pow 2 150) :
    single.isPositive (single.roundBits num den) = true := by
  have hle : single.roundBits num den ≤ single.infinityBits := Nat.min_le_right _ _
  simp [isPositive, roundBits_pos h, hle]

/-- With at most 45 digits behind the point a decimal above zero is rounded to a number above
zero: half of the smallest number of 32 bits is less than the last of these digits counts. -/
theorem isPositive_round_iff {n : Nat} {exponent : Int} (hlow : -45 ≤ exponent)
    (hhigh : exponent ≤ 0) :
    single.isPositive (single.round (.finite false n exponent)) = true ↔ 0 < n := by
  rcases Nat.eq_zero_or_pos n with rfl | hn
  · simp [round, isPositive]
  · refine iff_of_true ?_ hn
    have hpow : Nat.pow 10 (-exponent).toNat < n * Nat.pow 2 150 :=
      calc Nat.pow 10 (-exponent).toNat
        _ ≤ Nat.pow 10 45 := Nat.pow_le_pow_right (by decide) (by omega)
        _ < Nat.pow 2 150 := by decide
        _ ≤ n * Nat.pow 2 150 := Nat.le_mul_of_pos_left _ hn
    have hbound : ¬(binaryBounds n exponent).2 < -reach := by
      simp only [binaryBounds, reach]
      split <;> dsimp only <;> omega
    have hzero : ¬(n = 0 ∨ (binaryBounds n exponent).2 < -reach) :=
      not_or.mpr ⟨Nat.ne_of_gt hn, hbound⟩
    simp only [round, Bool.false_eq_true, if_false, Nat.zero_add, if_neg hzero]
    split
    · decide
    · split
      · exact isPositive_roundBits (calc
          1 < Nat.pow 2 150 := by decide
          _ ≤ n * Nat.pow 10 exponent.toNat * Nat.pow 2 150 :=
            Nat.le_mul_of_pos_left _ (Nat.mul_pos hn (Nat.pow_pos (by decide))))
      · exact isPositive_roundBits hpow

end BinaryFormat

/-- A plain decimal of at most 45 digits behind the point is rounded to a number above zero if
it is above zero. -/
theorem PlainDecimal.isPositive_round_iff {d : PlainDecimal} (h : d.Formed)
    (hlength : (d.fraction.getD []).length ≤ 45) :
    BinaryFormat.single.isPositive (BinaryFormat.single.round (.ofNumeral d.numeral)) = true ↔
      d.IsPositive := by
  have hexponent : d.numeral.exponent = -((d.numeral.fraction.getD []).length : Int) :=
    Int.zero_sub _
  have hdigits : (d.numeral.fraction.getD []).length ≤ (d.fraction.getD []).length := by
    cases hfraction : d.fraction <;> simp [numeral, hfraction, List.length_filterMap_le]
  rw [← d.coefficient_pos_iff h]
  exact BinaryFormat.isPositive_round_iff (by omega) (by omega)

end HttpApp
