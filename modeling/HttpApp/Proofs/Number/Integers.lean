/-
  HttpApp/Proofs/Number/Integers.lean --- whole numbers of a fixed width are read exactly.

  How a whole number is written is a relation, `IntegerWidth.Spelling`: a sign or none,
  and decimal digits, which spell a number without any bound.  Reading a text invents no
  number (`read_sound`) and misses none that lies in the range (`read_complete`), although
  digits are summed up from the left and given up as soon as the sum leaves the range.
  Main statement: what a value of a request is as a whole number (`Param.integer_exact`).
-/
import Mathlib.Data.Nat.Digits.Lemmas
import HttpApp.Param

set_option autoImplicit false

namespace HttpApp

/-! ## Digits -/

namespace IntegerRange

/-- One or more decimal digits. -/
def IsDigits (ds : List Char) : Prop := ds ≠ [] ∧ ∀ c ∈ ds, c.isDigit = true

/-- The number that decimal digits spell, the highest first. -/
def spelled (ds : List Char) : Nat :=
  Nat.ofDigits 10 (ds.map fun c => c.toNat - '0'.toNat).reverse

theorem spelled_concat (ds : List Char) (c : Char) :
    spelled (ds ++ [c]) = spelled ds * 10 + (c.toNat - '0'.toNat) := by
  unfold spelled
  rw [List.map_append, List.reverse_append, List.map_singleton, List.reverse_singleton,
    List.singleton_append, Nat.ofDigits_cons, Nat.mul_comm, Nat.add_comm]

/-- More digits never spell less. -/
theorem spelled_le_append (ds es : List Char) : spelled ds ≤ spelled (ds ++ es) := by
  unfold spelled
  rw [List.map_append, List.reverse_append, Nat.ofDigits_append]
  exact Nat.le_add_left_of_le (Nat.le_mul_of_pos_left _ (Nat.pow_pos (by decide)))

theorem digit?_eq_some_iff {c : Char} {d : Nat} :
    digit? c = some d ↔ c.isDigit = true ∧ d = c.toNat - '0'.toNat := by
  have hdigit : c.isDigit = true ↔ '0' ≤ c ∧ c ≤ '9' := by
    simp [Char.isDigit, Char.le_def]
  rw [hdigit, digit?]
  split
  · next h => simp [h, eq_comm]
  · next h => simp [h]

/-- Digits are read onto those that were read before, exactly as long as all are digits and spell
a number within the limit. -/
theorem readDigits_eq_ok_iff {limit n : Nat} {beyond : Fault} {done cs : List Char}
    (hdone : spelled done ≤ limit) :
    readDigits limit beyond (spelled done) cs = .ok n ↔
      (∀ c ∈ cs, c.isDigit = true) ∧ n = spelled (done ++ cs) ∧ n ≤ limit := by
  induction cs generalizing done with
  | nil =>
    rw [readDigits, List.append_nil]
    constructor
    · intro h
      obtain rfl := Except.ok.inj h
      exact ⟨by simp, rfl, hdone⟩
    · rintro ⟨-, rfl, -⟩
      rfl
  | cons c cs ih =>
    rw [readDigits]
    cases hc : digit? c with
    | none =>
      refine iff_of_false (by simp) ?_
      rintro ⟨hdigits, -⟩
      have hsome := digit?_eq_some_iff.2 ⟨hdigits c List.mem_cons_self, rfl⟩
      rw [hc] at hsome
      cases hsome
    | some d =>
      obtain ⟨hdigit, rfl⟩ := digit?_eq_some_iff.1 hc
      dsimp only
      rw [← spelled_concat, List.forall_mem_cons, List.append_cons done c cs]
      split
      · next hle =>
        rw [ih hle]
        simp [hdigit]
      · next hlt =>
        -- The sum has left the range, to which no further digit brings it back.
        refine iff_of_false (by simp) ?_
        rintro ⟨-, rfl, hle⟩
        exact hlt ((spelled_le_append _ cs).trans hle)

/-- What is made of digits is made of the number that they spell. -/
theorem map_readDigits_eq_ok_iff {limit : Nat} {beyond : Fault} {ds : List Char} {f : Nat → Int}
    {n : Int} : (readDigits limit beyond 0 ds).map f = .ok n ↔
      (∀ c ∈ ds, c.isDigit = true) ∧ n = f (spelled ds) ∧ spelled ds ≤ limit := by
  have hread : ∀ m, readDigits limit beyond 0 ds = .ok m ↔
      (∀ c ∈ ds, c.isDigit = true) ∧ m = spelled ds ∧ m ≤ limit := fun m =>
    readDigits_eq_ok_iff (show spelled [] ≤ limit from Nat.zero_le limit)
  cases hresult : readDigits limit beyond 0 ds with
  | error fault =>
    refine iff_of_false (by simp [Except.map]) ?_
    rintro ⟨hdigits, -, hle⟩
    have hok := (hread (spelled ds)).2 ⟨hdigits, rfl, hle⟩
    rw [hresult] at hok
    cases hok
  | ok m =>
    obtain ⟨hdigits, rfl, hle⟩ := (hread m).1 hresult
    constructor
    · intro h
      exact ⟨hdigits, (Except.ok.inj h).symm, hle⟩
    · rintro ⟨-, rfl, -⟩
      rfl

/-- Digits are no sign. -/
theorem read_digits (r : IntegerRange) {ds : List Char} (h : IsDigits ds) :
    r.read ds = (readDigits r.greatest.toNat .tooLarge 0 ds).map Int.ofNat := by
  obtain ⟨hne, hdigits⟩ := h
  obtain ⟨c, cs, rfl⟩ := List.exists_cons_of_ne_nil hne
  have hdigit : c.isDigit = true := hdigits c List.mem_cons_self
  have hplus : c ≠ '+' := by
    rintro rfl
    cases hdigit
  have hminus : c ≠ '-' := by
    rintro rfl
    cases hdigit
  simp [read, hplus, hminus]

theorem read_plus (r : IntegerRange) {ds : List Char} (h : IsDigits ds) :
    r.read ('+' :: ds) = (readDigits r.greatest.toNat .tooLarge 0 ds).map Int.ofNat := by
  simp [read, h.1]

theorem read_minus {r : IntegerRange} (hneg : r.least < 0) {ds : List Char} (h : IsDigits ds) :
    r.read ('-' :: ds) = (readDigits (-r.least).toNat .tooSmall 0 ds).map fun n => -Int.ofNat n := by
  simp [read, h.1, hneg]

end IntegerRange

/-! ## Widths -/

/-- The whole numbers of some bits, of which one is for the sign or none. -/
structure IntegerWidth where
  signed : Bool
  bits : Nat
  bits_pos : 0 < bits := by decide
  deriving DecidableEq, Repr

namespace IntegerWidth

/-- The numbers of a width. -/
def range (w : IntegerWidth) : IntegerRange :=
  if w.signed then ⟨-2 ^ (w.bits - 1), 2 ^ (w.bits - 1) - 1⟩ else ⟨0, 2 ^ w.bits - 1⟩

example : range ⟨true, 8, by decide⟩ = .int8 ∧ range ⟨true, 64, by decide⟩ = .int64 ∧
    range ⟨false, 8, by decide⟩ = .word8 ∧ range ⟨false, 32, by decide⟩ = .word32 ∧
    range ⟨false, 64, by decide⟩ = .word64 := by decide

theorem least_neg_iff (w : IntegerWidth) : w.range.least < 0 ↔ w.signed = true := by
  unfold range
  cases w.signed <;> simp

theorem least_nonpos (w : IntegerWidth) : w.range.least ≤ 0 := by
  unfold range
  split
  · exact Int.neg_nonpos_of_nonneg (Int.pow_nonneg (by decide))
  · exact Int.le_refl 0

theorem greatest_nonneg (w : IntegerWidth) : 0 ≤ w.range.greatest := by
  unfold range
  split
  · exact Int.sub_nonneg_of_le (Int.pow_pos (by decide))
  · exact Int.sub_nonneg_of_le (Int.pow_pos (by decide))

theorem contains_ofNat_iff (w : IntegerWidth) (n : Nat) :
    w.range.contains n = true ↔ n ≤ w.range.greatest.toNat := by
  have hleast := w.least_nonpos
  rw [Int.le_toNat w.greatest_nonneg, IntegerRange.contains, Bool.and_eq_true, decide_eq_true_eq,
    decide_eq_true_eq]
  omega

theorem contains_neg_iff (w : IntegerWidth) (n : Nat) :
    w.range.contains (-n) = true ↔ n ≤ (-w.range.least).toNat := by
  have hleast := w.least_nonpos
  have hgreatest := w.greatest_nonneg
  rw [Int.le_toNat (by omega), IntegerRange.contains, Bool.and_eq_true, decide_eq_true_eq,
    decide_eq_true_eq]
  omega

/-! ## Numbers in writing -/

open IntegerRange (IsDigits spelled map_readDigits_eq_ok_iff)

/-- A whole number in writing: digits behind a sign or none, where a minus sign needs a width with a
sign. -/
inductive Spelling (w : IntegerWidth) : List Char → Int → Prop where
  | bare {ds : List Char} (h : IsDigits ds) : Spelling w ds (spelled ds)
  | plus {ds : List Char} (h : IsDigits ds) : Spelling w ('+' :: ds) (spelled ds)
  | minus {ds : List Char} (hsigned : w.signed = true) (h : IsDigits ds) :
    Spelling w ('-' :: ds) (-spelled ds)

/-- There are no blanks inside of a number. -/
theorem Spelling.not_isBlank {w : IntegerWidth} {cs : List Char} {n : Int} (h : w.Spelling cs n) :
    ∀ c ∈ cs, Text.isBlank c = false := by
  have hdigits : ∀ {ds : List Char}, IsDigits ds → ∀ c ∈ ds, Text.isBlank c = false :=
    fun h c hc => Text.not_isBlank_of_isDigit (h.2 c hc)
  cases h with
  | bare h => exact hdigits h
  | plus h => exact List.forall_mem_cons.2 ⟨by decide, hdigits h⟩
  | minus _ h => exact List.forall_mem_cons.2 ⟨by decide, hdigits h⟩

/-- A number that is read is the one in writing, and lies in the range. -/
theorem read_sound {w : IntegerWidth} {cs : List Char} {n : Int} (h : w.range.read cs = .ok n) :
    w.Spelling cs n ∧ w.range.contains n = true := by
  unfold IntegerRange.read at h
  split at h
  · cases h
  · cases h
  · cases h
  · next ds hne =>
    obtain ⟨hdigits, rfl, hle⟩ := map_readDigits_eq_ok_iff.1 h
    exact ⟨.plus ⟨hne, hdigits⟩, (w.contains_ofNat_iff _).2 hle⟩
  · next ds hne =>
    split at h
    · next hneg =>
      obtain ⟨hdigits, rfl, hle⟩ := map_readDigits_eq_ok_iff.1 h
      exact ⟨.minus (w.least_neg_iff.1 hneg) ⟨hne, hdigits⟩, (w.contains_neg_iff _).2 hle⟩
    · cases h
  · next hne _ _ _ _ =>
    obtain ⟨hdigits, rfl, hle⟩ := map_readDigits_eq_ok_iff.1 h
    exact ⟨.bare ⟨hne, hdigits⟩, (w.contains_ofNat_iff _).2 hle⟩

/-- A number in writing that lies in the range is read. -/
theorem read_complete {w : IntegerWidth} {cs : List Char} {n : Int} (h : w.Spelling cs n)
    (hrange : w.range.contains n = true) : w.range.read cs = .ok n := by
  cases h with
  | bare h =>
    rw [IntegerRange.read_digits _ h]
    exact map_readDigits_eq_ok_iff.2 ⟨h.2, rfl, (w.contains_ofNat_iff _).1 hrange⟩
  | plus h =>
    rw [IntegerRange.read_plus _ h]
    exact map_readDigits_eq_ok_iff.2 ⟨h.2, rfl, (w.contains_ofNat_iff _).1 hrange⟩
  | minus hsigned h =>
    rw [IntegerRange.read_minus (w.least_neg_iff.2 hsigned) h]
    exact map_readDigits_eq_ok_iff.2 ⟨h.2, rfl, (w.contains_neg_iff _).1 hrange⟩

/-- A text is a number of a width in writing, with any blanks around it. -/
def Written (w : IntegerWidth) (text : String) (n : Int) : Prop :=
  ∃ front cs back, text.toList = front ++ (cs ++ back) ∧
    (∀ c ∈ front, Text.isBlank c = true) ∧ (∀ c ∈ back, Text.isBlank c = true) ∧
    w.Spelling cs n ∧ w.range.contains n = true

/-- A text is read without the blanks around it. -/
theorem read_trimBlanks_iff {w : IntegerWidth} {text : String} {n : Int} :
    w.range.read (Text.trimBlanks text.toList) = .ok n ↔ w.Written text n := by
  constructor
  · intro h
    obtain ⟨front, back, hpadded, hfront, hback⟩ := Text.exists_padding Text.isBlank text.toList
    obtain ⟨hspelling, hrange⟩ := read_sound h
    exact ⟨front, _, back, hpadded, hfront, hback, hspelling, hrange⟩
  · rintro ⟨front, cs, back, hpadded, hfront, hback, hspelling, hrange⟩
    have hdark := hspelling.not_isBlank
    have htrimmed : Text.trimBlanks text.toList = cs := by
      rw [hpadded]
      exact Text.trimEnds_padded hfront hback (fun c hc => hdark c (List.mem_of_head? hc))
        fun c hc => hdark c (List.mem_of_getLast? hc)
    rw [htrimmed]
    exact read_complete hspelling hrange

end IntegerWidth

/-! ## Values of requests -/

namespace Param

/-- The first occurrence decides alone. -/
theorem read_cons {α : Type} (name v : String) (vs : List String) (expected : String)
    (reader : List Char → Option α) :
    (⟨name, v :: vs⟩ : Param).read expected reader =
      match reader (Text.trimBlanks v.toList) with
      | some a => .ok a
      | none => .error (.invalidValue name v expected) := rfl

theorem readInteger_eq_some_iff {w : IntegerWidth} {v : String} {n : Int} :
    readInteger w.range (Text.trimBlanks v.toList) = some n ↔ w.Written v n := by
  rw [← IntegerWidth.read_trimBlanks_iff, readInteger]
  cases w.range.read (Text.trimBlanks v.toList) <;> simp [Except.toOption]

theorem integer_cons_eq_ok_iff {name v : String} {vs : List String} {w : IntegerWidth}
    {expected : String} {n : Int} :
    (⟨name, v :: vs⟩ : Param).integer w.range expected = .ok n ↔ w.Written v n := by
  rw [← readInteger_eq_some_iff, integer, read_cons]
  cases readInteger w.range (Text.trimBlanks v.toList) <;> simp

theorem integer_cons_of_not_written {name v : String} {vs : List String} {w : IntegerWidth}
    (h : ¬ ∃ n, w.Written v n) (expected : String) :
    (⟨name, v :: vs⟩ : Param).integer w.range expected =
      .error (.invalidValue name v expected) := by
  have hnone : readInteger w.range (Text.trimBlanks v.toList) = none := by
    refine Option.eq_none_iff_forall_ne_some.2 fun n hn => ?_
    exact h ⟨n, readInteger_eq_some_iff.1 hn⟩
  rw [integer, read_cons, hnone]

/-- Whole numbers of a fixed width are read exactly.  Let a value of a request be read as a number
of a width.  If there is no occurrence, it is missing, and nothing as an optional value.  Otherwise
the first occurrence decides alone: the value is a number exactly if that text is one of the width
in writing, with any blanks around it, and then it is that number; in all other cases it is
invalid, and the error has the name and the whole text.  As an optional value it is the same
number or the same error. -/
theorem integer_exact (name : String) (values : List String) (w : IntegerWidth)
    (expected : String) :
    let p : Param := ⟨name, values⟩
    (p.integer w.range expected = .error (.missingValue name) ↔ values = []) ∧
    (∀ v vs, values = v :: vs →
      (∀ n, p.integer w.range expected = .ok n ↔ w.Written v n) ∧
      ((¬ ∃ n, w.Written v n) →
        p.integer w.range expected = .error (.invalidValue name v expected)) ∧
      ∀ us, (⟨name, v :: us⟩ : Param).integer w.range expected = p.integer w.range expected) ∧
    (p.readOptional expected (readInteger w.range) = .ok none ↔ values = []) ∧
    (values ≠ [] →
      p.readOptional expected (readInteger w.range) = (p.integer w.range expected).map some) := by
  intro p
  cases values with
  | nil =>
    refine ⟨iff_of_true rfl rfl, ?_, iff_of_true rfl rfl, fun h => absurd rfl h⟩
    intro v vs h
    cases h
  | cons v vs =>
    have hoptional : p.readOptional expected (readInteger w.range) =
        (p.integer w.range expected).map some := rfl
    have hresult : (∃ n, p.integer w.range expected = .ok n) ∨
        p.integer w.range expected = .error (.invalidValue name v expected) := by
      by_cases h : ∃ n, w.Written v n
      · exact .inl (h.imp fun n hn => integer_cons_eq_ok_iff.2 hn)
      · exact .inr (integer_cons_of_not_written h expected)
    refine ⟨iff_of_false ?_ (List.cons_ne_nil v vs), ?_, iff_of_false ?_ (List.cons_ne_nil v vs),
      fun _ => hoptional⟩
    · rcases hresult with ⟨n, hn⟩ | herror
      · simp [hn]
      · simp [herror]
    · rintro _ _ ⟨⟩
      refine ⟨fun n => integer_cons_eq_ok_iff, ?_, fun us => rfl⟩
      intro h
      exact integer_cons_of_not_written h expected
    · rw [hoptional]
      rcases hresult with ⟨n, hn⟩ | herror
      · simp [hn, Except.map]
      · simp [herror, Except.map]

/-- The least number of 8 bits with a sign is read, with a blank on each side; one more than the
greatest is not. -/
theorem integer_exact_ends :
    let w : IntegerWidth := ⟨true, 8, by decide⟩
    w.Written "\u00a0-128 " (-128) ∧ (¬ ∃ n, w.Written "128" n) ∧
    (⟨"n", ["\u00a0-128 ", "x"]⟩ : Param).integer w.range "a small integer" = .ok (-128) ∧
    (⟨"n", ["128", "7"]⟩ : Param).integer w.range "a small integer" =
      .error (.invalidValue "n" "128" "a small integer") := by
  intro w
  have hleast : w.Written "\u00a0-128 " (-128) :=
    IntegerWidth.read_trimBlanks_iff.1 (by decide +kernel)
  have habove : ¬ ∃ n, w.Written "128" n := by
    rintro ⟨n, hn⟩
    have hread : w.range.read (Text.trimBlanks "128".toList) = .error .tooLarge := by decide +kernel
    rw [IntegerWidth.read_trimBlanks_iff.2 hn] at hread
    cases hread
  obtain ⟨-, hread, -⟩ := integer_exact "n" ["\u00a0-128 ", "x"] w "a small integer"
  obtain ⟨-, hrefused, -⟩ := integer_exact "n" ["128", "7"] w "a small integer"
  exact ⟨hleast, habove, ((hread _ _ rfl).1 _).2 hleast, (hrefused _ _ rfl).2.1 habove⟩

end Param

end HttpApp
