/-
  HttpApp/Proofs/Text/Decoding.lean --- decoding what stands between slashes.

  A slash is no part of a percent triple, and no byte below 128 goes on with a
  character that was begun.  So a text that is cut at its slashes can be decoded piece
  by piece: a triple that a slash cuts short stays as it is, and a character that a
  slash cuts short is U+FFFD, as at the end of a text.  Main statements:
  `Percent.decodeBytes_append` and `Utf8.lossy_append`.
-/
import HttpApp.Text.Percent

set_option autoImplicit false

namespace HttpApp

namespace Utf8

/-! ## Reading leniently, step by step -/

/-- What is left behind the front of a byte sequence. -/
def Front.rest? : Front → Option Bytes
  | .char _ rest => some rest
  | .invalid _ rest => some rest
  | _ => none

theorem length_of_frontTwo {x : Nat} {l rest : Bytes} (h : (frontTwo x l).rest? = some rest) :
    rest.length ≤ l.length := by
  cases l with
  | nil => cases h
  | cons b l =>
    rw [frontTwo] at h
    split at h <;> obtain rfl := Option.some.inj h <;> simp

theorem length_of_frontThree {x : Nat} {l rest : Bytes} (h : (frontThree x l).rest? = some rest) :
    rest.length ≤ l.length := by
  rcases l with _ | ⟨b, _ | ⟨c, l⟩⟩
  · cases h
  · rw [frontThree] at h
    split at h
    · cases h
    · obtain rfl := Option.some.inj h
      exact Nat.le_refl _
  · rw [frontThree] at h
    split at h
    · split at h
      all_goals
        obtain rfl := Option.some.inj h
        simp only [List.length_cons]
        omega
    · obtain rfl := Option.some.inj h
      exact Nat.le_refl _

theorem length_of_frontFour {x : Nat} {l rest : Bytes} (h : (frontFour x l).rest? = some rest) :
    rest.length ≤ l.length := by
  rcases l with _ | ⟨b, _ | ⟨c, _ | ⟨d, l⟩⟩⟩
  · cases h
  · rw [frontFour] at h
    split at h
    · cases h
    · obtain rfl := Option.some.inj h
      exact Nat.le_refl _
  · rw [frontFour] at h
    split at h
    · split at h
      · cases h
      · obtain rfl := Option.some.inj h
        simp
    · obtain rfl := Option.some.inj h
      exact Nat.le_refl _
  · rw [frontFour] at h
    split at h
    · split at h
      · split at h
        all_goals
          obtain rfl := Option.some.inj h
          simp only [List.length_cons]
          omega
      · obtain rfl := Option.some.inj h
        simp
    · obtain rfl := Option.some.inj h
      exact Nat.le_refl _

/-- Reading takes at least one byte. -/
theorem length_of_front {b rest : Bytes} (h : (front b).rest? = some rest) :
    rest.length < b.length := by
  cases b with
  | nil => cases h
  | cons a l =>
    rw [front] at h
    rw [List.length_cons, Nat.lt_succ_iff]
    split at h
    · obtain rfl := Option.some.inj h
      exact Nat.le_refl _
    · split at h
      · obtain rfl := Option.some.inj h
        exact Nat.le_refl _
      · split at h
        · exact length_of_frontTwo h
        · split at h
          · exact length_of_frontThree h
          · split at h
            · exact length_of_frontFour h
            · obtain rfl := Option.some.inj h
              exact Nat.le_refl _

/-- Reading does not depend on the fuel, if there is enough of it. -/
theorem lossyFrom_of_le {b : Bytes} {m n : Nat} (hm : b.length ≤ m) (hn : b.length ≤ n) :
    lossyFrom m b = lossyFrom n b := by
  induction m generalizing b n with
  | zero =>
    obtain rfl := List.eq_nil_of_length_eq_zero (Nat.le_zero.mp hm)
    cases n <;> rfl
  | succ m ih =>
    cases n with
    | zero =>
      obtain rfl := List.eq_nil_of_length_eq_zero (Nat.le_zero.mp hn)
      rfl
    | succ n =>
      have hrest : ∀ rest, (front b).rest? = some rest → lossyFrom m rest = lossyFrom n rest := by
        intro rest h
        have hlt := length_of_front h
        exact ih (by omega) (by omega)
      rw [lossyFrom, lossyFrom]
      cases hfront : front b with
      | finished => rfl
      | char c rest => exact congrArg (c :: ·) (hrest rest (by rw [hfront]; rfl))
      | invalid size rest => exact congrArg ('\uFFFD' :: ·) (hrest rest (by rw [hfront]; rfl))
      | truncated => rfl

theorem toList_lossy (b : Bytes) : (lossy b).toList = lossyFrom (b.length + 1) b := by
  rw [lossy, String.toList_ofList, lossyFrom_of_le (Nat.le_refl _) (Nat.le_succ _)]

theorem toList_lossy_of_char {b rest : Bytes} {c : Char} (h : front b = .char c rest) :
    (lossy b).toList = c :: (lossy rest).toList := by
  have hlt : rest.length < b.length := length_of_front (by rw [h]; rfl)
  rw [toList_lossy, lossyFrom, h, toList_lossy]
  exact congrArg (c :: ·) (lossyFrom_of_le (by omega) (by omega))

theorem toList_lossy_of_invalid {b rest : Bytes} {size : Nat} (h : front b = .invalid size rest) :
    (lossy b).toList = '\uFFFD' :: (lossy rest).toList := by
  have hlt : rest.length < b.length := length_of_front (by rw [h]; rfl)
  rw [toList_lossy, lossyFrom, h, toList_lossy]
  exact congrArg ('\uFFFD' :: ·) (lossyFrom_of_le (by omega) (by omega))

theorem toList_lossy_of_finished {b : Bytes} (h : front b = .finished) :
    (lossy b).toList = [] := by
  rw [toList_lossy, lossyFrom, h]

theorem toList_lossy_of_truncated {b : Bytes} (h : front b = .truncated) :
    (lossy b).toList = ['\uFFFD'] := by
  rw [toList_lossy, lossyFrom, h]

/-! ## Reading up to a byte below 128 -/

/-- What a byte sequence starts with, and what it starts with when it goes on with bytes that do
not belong to a character that was begun: that one is cut short in both cases. -/
inductive Front.Extends (behind : Bytes) : Front → Front → Prop where
  | char (c : Char) (rest : Bytes) : Extends behind (.char c rest) (.char c (rest ++ behind))
  | invalid (size : Nat) (rest : Bytes) :
      Extends behind (.invalid size rest) (.invalid size (rest ++ behind))
  | truncated (size : Nat) : Extends behind .truncated (.invalid size behind)

theorem isTail_of_lt {b : UInt8} (h : b.toNat < 128) : isTail b = false := by
  simp only [isTail, Bool.and_eq_false_iff, decide_eq_false_iff_not]
  omega

section

variable {b : UInt8} (hb : b.toNat < 128) (behind : Bytes)
include hb

theorem extends_frontTwo (x : Nat) (l : Bytes) :
    Front.Extends (b :: behind) (frontTwo x l) (frontTwo x (l ++ b :: behind)) := by
  rcases l with _ | ⟨c, l⟩
  · rw [List.nil_append, frontTwo, frontTwo, isTail_of_lt hb]
    exact .truncated 1
  · rw [List.cons_append, frontTwo, frontTwo]
    split
    · exact .char _ l
    · exact .invalid 1 (c :: l)

theorem extends_frontThree (x : Nat) (l : Bytes) :
    Front.Extends (b :: behind) (frontThree x l) (frontThree x (l ++ b :: behind)) := by
  have hb := isTail_of_lt hb
  have hsecond : secondOfThree x b = false := by simp [secondOfThree, hb]
  rcases l with _ | ⟨c, _ | ⟨d, l⟩⟩
  · unfold frontThree
    simp only [List.nil_append, hsecond]
    exact .truncated 1
  · simp only [List.cons_append, List.nil_append, frontThree, hb]
    split
    · exact .truncated 2
    · exact .invalid 1 [c]
  · simp only [List.cons_append, frontThree]
    split
    · split
      · exact .char _ l
      · exact .invalid 2 (d :: l)
    · exact .invalid 1 (c :: d :: l)

theorem extends_frontFour (x : Nat) (l : Bytes) :
    Front.Extends (b :: behind) (frontFour x l) (frontFour x (l ++ b :: behind)) := by
  have hb := isTail_of_lt hb
  have hsecond : secondOfFour x b = false := by simp [secondOfFour, hb]
  rcases l with _ | ⟨c, _ | ⟨d, _ | ⟨e, l⟩⟩⟩
  · unfold frontFour
    simp only [List.nil_append, hsecond]
    exact .truncated 1
  · unfold frontFour
    simp only [List.cons_append, List.nil_append, hb]
    split
    · exact .truncated 2
    · exact .invalid 1 [c]
  · simp only [List.cons_append, List.nil_append, frontFour, hb]
    split
    · split
      · exact .truncated 3
      · exact .invalid 2 [d]
    · exact .invalid 1 [c, d]
  · simp only [List.cons_append, frontFour]
    split
    · split
      · split
        · exact .char _ l
        · exact .invalid 3 (e :: l)
      · exact .invalid 2 (d :: e :: l)
    · exact .invalid 1 (c :: d :: e :: l)

theorem extends_front (a : UInt8) (l : Bytes) :
    Front.Extends (b :: behind) (front (a :: l)) (front (a :: (l ++ b :: behind))) := by
  rw [front, front]
  split
  · exact .char _ l
  · split
    · exact .invalid 1 l
    · split
      · exact extends_frontTwo hb behind _ l
      · split
        · exact extends_frontThree hb behind _ l
        · split
          · exact extends_frontFour hb behind _ l
          · exact .invalid 1 l

/-- What stands in front of a byte below 128 is read as if nothing followed. -/
theorem lossy_append (front : Bytes) :
    lossy (front ++ b :: behind) = lossy front ++ lossy (b :: behind) := by
  apply String.toList_injective
  rw [String.toList_append]
  induction hn : front.length using Nat.strongRecOn generalizing front with
  | ind n ih =>
    subst hn
    cases front with
    | nil => rfl
    | cons a l =>
      have hfronts := extends_front hb behind a l
      rw [List.cons_append]
      generalize hshort : Utf8.front (a :: l) = short at hfronts
      generalize hlong : Utf8.front (a :: (l ++ b :: behind)) = long at hfronts
      cases hfronts with
      | char c rest =>
        rw [toList_lossy_of_char hshort, toList_lossy_of_char hlong,
          ih _ (length_of_front (by rw [hshort]; rfl)) rest rfl, List.cons_append]
      | invalid size rest =>
        rw [toList_lossy_of_invalid hshort, toList_lossy_of_invalid hlong,
          ih _ (length_of_front (by rw [hshort]; rfl)) rest rfl, List.cons_append]
      | truncated size =>
        rw [toList_lossy_of_truncated hshort, toList_lossy_of_invalid hlong]
        rfl

end

/-- A byte below 128 is a character wherever it stands. -/
theorem lossy_cons {b : UInt8} (hb : b.toNat < 128) (behind : Bytes) :
    (lossy (b :: behind)).toList = Char.ofNat b.toNat :: (lossy behind).toList := by
  apply toList_lossy_of_char
  rw [front]
  exact if_pos hb

end Utf8

namespace Percent

/-! ## Percent triples -/

/-- A byte in front of which no triple can begin stands for itself. -/
theorem decodeBytes_cons_of_no_digits (b : UInt8) {rest : Bytes}
    (h : ∀ x y l, rest = x :: y :: l → digit? x = none ∨ digit? y = none) :
    decodeBytes (b :: rest) = b :: decodeBytes rest := by
  by_cases hb : b = 37
  · cases rest with
    | nil => rfl
    | cons x rest =>
      cases rest with
      | nil => rfl
      | cons y l =>
        rw [decodeBytes, if_pos hb]
        obtain hx | hy := h x y l rfl
        · rw [hx]
        · rw [hy]
          cases digit? x <;> rfl
  · exact decodeBytes_cons hb rest

/-- No triple goes over a byte that is neither a percent sign nor a digit. -/
theorem decodeBytes_append {b : UInt8} (hb : b ≠ 37) (hdigit : digit? b = none)
    (front behind : Bytes) :
    decodeBytes (front ++ b :: behind) = decodeBytes front ++ b :: decodeBytes behind := by
  induction front using decodeBytes.induct with
  | case1 => exact decodeBytes_cons hb behind
  | case2 a =>
    rw [List.singleton_append, decodeBytes_cons_of_no_digits a, decodeBytes_cons hb]
    · rfl
    · rintro x y l heq
      exact .inl ((List.cons.inj heq).1 ▸ hdigit)
  | case3 a c =>
    have hlast : decodeBytes (c :: b :: behind) = c :: b :: decodeBytes behind := by
      rw [decodeBytes_cons_of_no_digits c, decodeBytes_cons hb]
      rintro x y l heq
      exact .inl ((List.cons.inj heq).1 ▸ hdigit)
    rw [List.cons_append, List.singleton_append, decodeBytes_cons_of_no_digits a, hlast]
    · rfl
    · rintro x y l heq
      exact .inr ((List.cons.inj (List.cons.inj heq).2).1 ▸ hdigit)
  | case4 h l rest x y hx hy ih =>
    simp only [List.cons_append]
    rw [decodeBytes, decodeBytes, if_pos rfl, if_pos rfl, hx, hy, ih]
    rfl
  | case5 h l rest hnone ih =>
    simp only [List.cons_append] at ih ⊢
    rw [decodeBytes, decodeBytes, if_pos rfl, if_pos rfl]
    cases hx : digit? h with
    | none => exact congrArg (_ :: ·) ih
    | some x =>
      cases hy : digit? l with
      | none => exact congrArg (_ :: ·) ih
      | some y => exact absurd hy (hnone x y hx)
  | case6 a h l rest ha ih =>
    simp only [List.cons_append] at ih ⊢
    rw [decodeBytes_cons ha, decodeBytes_cons ha, ih, List.cons_append]

end Percent

end HttpApp
