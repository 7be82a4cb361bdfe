/-
  HttpApp/Proofs/Json/Tokens.lean --- printed numbers and strings are read back.

  Every statement is about a text that goes on: what is read is the number or the
  string in front, and the place behind it has the rest ahead, untouched.  For a number
  the rest has to close it, by ending the text or by starting with a blank or with a
  character of lists and objects.  A string closes itself.  How many bytes lie behind a
  place plays no part in what is read, and is left open.
-/
import Mathlib.Data.List.TakeDrop
import HttpApp.Json.Lexicon
import HttpApp.Json.Printer
import HttpApp.Proofs.Number.Decimals

set_option autoImplicit false

namespace HttpApp.Json

/-! ## What closes a token -/

/-- A text that ends the token in front of it. -/
def Closes (rest : List Char) : Prop :=
  ∀ c ∈ rest.head?, (isSpace c || isStructural c) = true

theorem tokenEnd_of_closes {rest : List Char} (h : Closes rest) (offset : Nat) :
    Place.tokenEnd ⟨offset, rest⟩ = ⟨offset, rest⟩ := by
  cases rest with
  | nil => rfl
  | cons c cs =>
    have hc := h c rfl
    simp [Place.tokenEnd, passToken, hc]

theorem endToken_of_closes {rest : List Char} (h : Closes rest) (offset : Nat) :
    Place.endToken ⟨offset, rest⟩ = .ok ⟨offset, rest⟩ := by
  cases rest with
  | nil => rfl
  | cons c cs =>
    have hc := h c rfl
    simp [Place.endToken, hc, tokenEnd_of_closes h]

/-- What closes a token is no part of a number. -/
theorem not_isDigit_of_closes {c : Char} (h : (isSpace c || isStructural c) = true) :
    c.isDigit = false ∧ c ≠ '.' ∧ c ≠ 'e' ∧ c ≠ 'E' := by
  simp only [isSpace, isStructural, Bool.or_eq_true, beq_iff_eq] at h
  rcases h with (((rfl | rfl) | rfl) | rfl) | (((((rfl | rfl) | rfl) | rfl) | rfl) | rfl) <;> decide

/-! ## Whole numbers -/

/-- A digit spells its value. -/
theorem digit?_digitChar {d : Nat} (h : d < 10) :
    IntegerRange.digit? (Nat.digitChar d) = some d := by
  revert d
  decide

/-- The digits of a number spell it. -/
theorem foldl_push_toDigits (n : Nat) :
    ((Nat.toDigits 10 n).filterMap IntegerRange.digit?).foldl Numeral.push 0 = n := by
  induction n using Nat.strongRecOn with
  | ind n ih =>
    by_cases hn : n < 10
    · simp [Nat.toDigits_of_lt_base hn, digit?_digitChar hn, Numeral.push]
    · have hm : n % 10 < 10 := Nat.mod_lt _ (by omega)
      rw [Nat.toDigits_of_base_le (by omega) (by omega), List.filterMap_append, List.foldl_append,
        ih (n / 10) (by omega)]
      simp [digit?_digitChar hm, Numeral.push]
      omega

/-- A number above zero starts with a digit above zero. -/
theorem head_toDigits {n : Nat} (h : 0 < n) :
    ∃ c cs, Nat.toDigits 10 n = c :: cs ∧ c ≠ '0' ∧ c.isDigit = true := by
  induction n using Nat.strongRecOn with
  | ind n ih =>
    by_cases hn : n < 10
    · have hd : ∀ d : Fin 10, 0 < d.val →
          Nat.digitChar d ≠ '0' ∧ (Nat.digitChar d).isDigit = true := by decide
      exact ⟨_, [], Nat.toDigits_of_lt_base hn, hd ⟨n, hn⟩ h⟩
    · obtain ⟨c, cs, hc, h0⟩ := ih (n / 10) (by omega) (by omega)
      exact ⟨c, cs ++ [Nat.digitChar (n % 10)],
        by rw [Nat.toDigits_of_base_le (by omega) (by omega), hc]; rfl, h0⟩

/-- The digits in front of a text that closes them are a run. -/
theorem digitRun_toDigits {rest : List Char} (h : Closes rest) (n : Nat) :
    Numeral.digitRun (Nat.toDigits 10 n ++ rest) =
      ((Nat.toDigits 10 n).filterMap IntegerRange.digit?, rest) :=
  Numeral.digitRun_append
    (fun c hc => Nat.isDigit_of_mem_toDigits (by omega) (by omega) hc)
    fun c hc => (not_isDigit_of_closes (h c hc)).1

/-- The digits of a number are read as its whole part. -/
theorem readWhole_toDigits {rest : List Char} (h : Closes rest) (n offset : Nat) :
    ∃ ds later, readWhole ⟨offset, Nat.toDigits 10 n ++ rest⟩ = .ok (ds, ⟨later, rest⟩) ∧
      Numeral.ofDigits ds = n := by
  rcases Nat.eq_zero_or_pos n with rfl | hn
  · exact ⟨[0], offset + 1, rfl, rfl⟩
  · obtain ⟨c, cs, hc, h0, hdig⟩ := head_toDigits hn
    have hw : readWhole ⟨offset, Nat.toDigits 10 n ++ rest⟩ =
        readDigits ⟨offset, Nat.toDigits 10 n ++ rest⟩ := by
      rw [hc, List.cons_append]
      simp only [readWhole]
      split
      next heq => exact absurd (List.cons.inj heq).1 h0
      next => rfl
    obtain ⟨d, ds, hds⟩ : ∃ d ds, (Nat.toDigits 10 n).filterMap IntegerRange.digit? = d :: ds := by
      refine List.exists_cons_of_ne_nil fun hnil => ?_
      have := foldl_push_toDigits n
      rw [hnil] at this
      exact absurd this (by simpa using Nat.ne_of_lt hn)
    refine ⟨d :: ds, offset + (d :: ds).length, ?_, ?_⟩
    · rw [hw, readDigits, digitRun_toDigits h, hds]
    · rw [Numeral.ofDigits_eq_foldl, ← hds, foldl_push_toDigits]

/-- The digits of a number are a numeral without fraction and power. -/
theorem readNumeral_toDigits {rest : List Char} (h : Closes rest) (negative : Bool)
    (n offset : Nat) :
    ∃ ds later, readNumeral negative ⟨offset, Nat.toDigits 10 n ++ rest⟩ =
        .ok (⟨negative, ds, none, none⟩, ⟨later, rest⟩) ∧
      Numeral.ofDigits ds = n := by
  obtain ⟨ds, later, hr, hds⟩ := readWhole_toDigits h n offset
  have hf : readFraction ⟨later, rest⟩ = .ok (none, ⟨later, rest⟩) := by
    cases rest with
    | nil => rfl
    | cons c cs =>
      have hc := (not_isDigit_of_closes (h c rfl)).2.1
      simp only [readFraction]
      split
      next heq => exact absurd (List.cons.inj heq).1 hc
      next => rfl
  have hp : readPower ⟨later, rest⟩ = .ok (none, ⟨later, rest⟩) := by
    cases rest with
    | nil => rfl
    | cons c cs =>
      have hc := (not_isDigit_of_closes (h c rfl)).2.2
      simp [readPower, hc.1, hc.2]
  refine ⟨ds, later, ?_, hds⟩
  simp [readNumeral, hr, hf, hp, bind, Except.bind]

/-- The digits of a number of the range are read as the number, with its sign. -/
theorem readBoundedNumber_toDigits {rest : List Char} (h : Closes rest) {negative : Bool}
    {n : Nat} {z : Int} (hz : z = if negative then -Int.ofNat n else Int.ofNat n)
    (hr : (wholeRange negative).contains z = true) (offset : Nat) :
    ∃ later, readBoundedNumber negative ⟨offset, Nat.toDigits 10 n ++ rest⟩ =
      .ok (.integer z, ⟨later, rest⟩) := by
  obtain ⟨ds, later, hn, hds⟩ := readNumeral_toDigits h negative n offset
  have hi : (Numeral.mk negative ds none none).integer = z := by
    simp [Numeral.integer, Numeral.coefficient, hds, hz]
  refine ⟨later, ?_⟩
  simp only [readBoundedNumber, hn, bind, Except.bind, boundedPower, Numeral.isWhole,
    Option.isNone_none, Bool.and_self, if_true, hi, hr, endToken_of_closes h, tokenEnd_of_closes h]
  split <;> rfl

/-! ## Strings -/

/-- The two digits of a control character are no quote and no backslash, and spell it. -/
theorem hexPair_control {n : Nat} (h : n < 32) :
    ∃ a b, Bytes.hexPair (UInt8.ofNat n) = [a, b] ∧ a ≠ '"' ∧ a ≠ '\\' ∧ b ≠ '"' ∧ b ≠ '\\' ∧
      ∀ rest, readUnit ('0' :: '0' :: a :: b :: rest) = .ok (n, rest) := by
  have hall : ∀ m : Fin 32, ∃ x : Fin 16, ∃ y : Fin 16,
      Bytes.hexPair (UInt8.ofNat m) = [Nat.digitChar x, Nat.digitChar y] ∧ x.val * 16 + y.val = m := by
    decide
  have hdigit : ∀ x : Fin 16, Nat.digitChar x ≠ '"' ∧ Nat.digitChar x ≠ '\\' ∧
      Text.hexDigit? (Nat.digitChar x) = some x.val := by
    decide
  obtain ⟨x, y, hp, hxy⟩ := hall ⟨n, h⟩
  refine ⟨_, _, hp, (hdigit x).1, (hdigit x).2.1, (hdigit y).1, (hdigit y).2.1, fun rest => ?_⟩
  have h0 : Text.hexDigit? '0' = some 0 := by decide
  simp only [readUnit, h0, (hdigit x).2.2, (hdigit y).2.2, Nat.zero_mul, Nat.zero_add, hxy]

/-- How a character can be written in a string. -/
inductive Written : Char → List Char → Prop where
  | quote : Written '"' ['\\', '"']
  | backslash : Written '\\' ['\\', '\\']
  | newline : Written '\n' ['\\', 'n']
  | carriageReturn : Written '\r' ['\\', 'r']
  | tab : Written '\t' ['\\', 't']
  | backspace : Written '\x08' ['\\', 'b']
  | formFeed : Written '\x0c' ['\\', 'f']
  | control (c : Char) (h : c.toNat < 32) :
    Written c ('\\' :: 'u' :: '0' :: '0' :: Bytes.hexPair (UInt8.ofNat c.toNat))
  | plain (c : Char) (hq : c ≠ '"') (hb : c ≠ '\\') (h : 32 ≤ c.toNat) : Written c [c]

theorem written_escapeChar (c : Char) : Written c (escapeChar c) := by
  fun_cases escapeChar c with
  | case1 h => exact h ▸ .quote
  | case2 _ h => exact h ▸ .backslash
  | case3 _ _ h => exact h ▸ .newline
  | case4 _ _ _ h => exact h ▸ .carriageReturn
  | case5 _ _ _ _ h => exact h ▸ .tab
  | case6 _ _ _ _ _ h => exact h ▸ .backspace
  | case7 _ _ _ _ _ _ h => exact h ▸ .formFeed
  | case8 _ _ _ _ _ _ _ h => exact .control c h
  | case9 hq hb _ _ _ _ _ h => exact .plain c hq hb (Nat.not_lt.mp h)

theorem Written.ne_nil {c : Char} {cs : List Char} (h : Written c cs) : cs ≠ [] := by
  cases h <;> exact List.cons_ne_nil _ _

/-- No quote of a written character closes the string. -/
theorem Written.takeWritten {c : Char} {cs : List Char} (h : Written c cs)
    (done more : List Char) (offset : Nat) :
    ∃ later, takeWritten done false offset (cs ++ more) =
      Json.takeWritten (cs.reverse ++ done) false later more := by
  cases h with
  | control c h =>
    obtain ⟨a, b, hp, haq, hab, hbq, hbb, -⟩ := hexPair_control h
    have he : (b == '\\') = false := by simpa using hbb
    exact ⟨_, by simp [hp, Json.takeWritten, haq, hab, hbq, he]; rfl⟩
  | plain c hq hb h =>
    have he : (c == '\\') = false := by simpa using hb
    exact ⟨_, by simp [Json.takeWritten, hq, he]; rfl⟩
  | _ => exact ⟨_, rfl⟩

/-- A written character is read as that character. -/
theorem Written.readWritten {c : Char} {cs : List Char} (h : Written c cs)
    (done more : List Char) (fuel : Nat) :
    readWritten readJoined done (fuel + 1) (cs ++ more) =
      Json.readWritten readJoined (c :: done) fuel more := by
  cases h with
  | control c h =>
    obtain ⟨a, b, hp, -, -, -, -, hu⟩ := hexPair_control h
    have hs : isHighSurrogate c.toNat = false ∧ isLowSurrogate c.toNat = false := by
      simp [isHighSurrogate, isLowSurrogate]
      omega
    have hj : readJoined ('0' :: '0' :: a :: b :: more) = .ok ([c], more) := by
      simp [readJoined, hu, hs, bind, Except.bind, Char.ofNat_toNat]
    simp [hp, Json.readWritten, hj, bind, Except.bind]
  | plain c hq hb h =>
    simp [Json.readWritten, Nat.not_lt.mpr h]
  | _ => rfl

/-- The written characters of a string are taken up to its closing quote. -/
theorem takeWritten_flatMap (s done rest : List Char) (offset : Nat) :
    ∃ later, takeWritten done false offset (s.flatMap escapeChar ++ '"' :: rest) =
      .ok ((s.flatMap escapeChar).reverse ++ done, ⟨later, rest⟩) := by
  induction s generalizing done offset with
  | nil => exact ⟨offset + 1, rfl⟩
  | cons c cs ih =>
    obtain ⟨mid, hm⟩ := (written_escapeChar c).takeWritten done
      (cs.flatMap escapeChar ++ '"' :: rest) offset
    obtain ⟨later, hl⟩ := ih ((escapeChar c).reverse ++ done) mid
    refine ⟨later, ?_⟩
    rw [List.flatMap_cons, List.append_assoc, hm, hl, List.reverse_append, List.append_assoc]

/-- The written characters of a string stand for its characters. -/
theorem readWritten_flatMap (s done : List Char) {fuel : Nat}
    (h : (s.flatMap escapeChar).length ≤ fuel) :
    readWritten readJoined done fuel (s.flatMap escapeChar) = .ok (s.reverse ++ done) := by
  induction s generalizing done fuel with
  | nil => cases fuel <;> rfl
  | cons c cs ih =>
    have hw := written_escapeChar c
    have hl := List.length_pos_iff.mpr hw.ne_nil
    rw [List.flatMap_cons, List.length_append] at h
    obtain ⟨fuel, rfl⟩ : ∃ f, fuel = f + 1 := ⟨fuel - 1, by omega⟩
    rw [List.flatMap_cons, hw.readWritten, ih (c :: done) (by omega)]
    simp

/-- A printed string is read back, behind its opening quote. -/
theorem readText_escaped (s : String) (rest : List Char) (offset : Nat) :
    ∃ later, readText readJoined ⟨offset, s.toList.flatMap escapeChar ++ '"' :: rest⟩ =
      .ok (s, ⟨later, rest⟩) := by
  obtain ⟨later, hl⟩ := takeWritten_flatMap s.toList [] rest offset
  refine ⟨later, ?_⟩
  have hr := readWritten_flatMap s.toList [] (Nat.le_refl _)
  simp only [readText, hl, List.append_nil, List.reverse_reverse, List.length_reverse, hr, bind,
    Except.bind, String.ofList_toList]

end HttpApp.Json
