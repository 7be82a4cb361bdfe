/-
  HttpApp/Number/Integer.lean --- reading whole numbers of a bounded range.

  A whole number is an optional sign and one or more decimal digits; a minus sign
  is part of the notation only where the range has negative numbers.  Digits are
  read from the left, and the first one that leaves the range or is no digit
  decides what is wrong.
-/

set_option autoImplicit false

namespace HttpApp

/-- The whole numbers from `least` to `greatest`. -/
structure IntegerRange where
  least : Int
  greatest : Int
  deriving DecidableEq, Repr

namespace IntegerRange

/-- Signed numbers of 8 bits. -/
def int8 : IntegerRange := ⟨-128, 127⟩

/-- Signed numbers of 64 bits. -/
def int64 : IntegerRange := ⟨-9223372036854775808, 9223372036854775807⟩

/-- Unsigned numbers of 8 bits. -/
def word8 : IntegerRange := ⟨0, 255⟩

/-- Unsigned numbers of 16 bits. -/
def word16 : IntegerRange := ⟨0, 65535⟩

/-- Unsigned numbers of 32 bits. -/
def word32 : IntegerRange := ⟨0, 4294967295⟩

/-- Unsigned numbers of 64 bits. -/
def word64 : IntegerRange := ⟨0, 18446744073709551615⟩

/-- Why a text is no whole number of a range. -/
inductive Fault where
  /-- there is nothing to read -/
  | empty
  /-- a character is no digit, or there is a sign and nothing else -/
  | invalidDigit
  /-- the number lies above the range -/
  | tooLarge
  /-- the number lies below the range -/
  | tooSmall
  deriving DecidableEq, Repr, Inhabited

/-- The wording of a fault. -/
def Fault.message : Fault → String
  | .empty => "cannot parse integer from empty string"
  | .invalidDigit => "invalid digit found in string"
  | .tooLarge => "number too large to fit in target type"
  | .tooSmall => "number too small to fit in target type"

/-- The value of a decimal digit. -/
def digit? (c : Char) : Option Nat :=
  if '0' ≤ c ∧ c ≤ '9' then some (c.toNat - '0'.toNat) else none

/-- Reads digits onto `value`, as long as it stays within `limit`. -/
def readDigits (limit : Nat) (beyond : Fault) (value : Nat) : List Char → Except Fault Nat
  | [] => .ok value
  | c :: cs =>
    match digit? c with
    | none => .error .invalidDigit
    | some d =>
      if value * 10 + d ≤ limit then readDigits limit beyond (value * 10 + d) cs
      else .error beyond

/-- Reads a whole number of the range `r`. -/
def read (r : IntegerRange) (cs : List Char) : Except Fault Int :=
  match cs with
  | [] => .error .empty
  | ['+'] => .error .invalidDigit
  | ['-'] => .error .invalidDigit
  | '+' :: ds => (readDigits r.greatest.toNat .tooLarge 0 ds).map Int.ofNat
  | '-' :: ds =>
    if r.least < 0 then (readDigits (-r.least).toNat .tooSmall 0 ds).map fun n => -Int.ofNat n
    else .error .invalidDigit
  | ds => (readDigits r.greatest.toNat .tooLarge 0 ds).map Int.ofNat

/-- The number, if the text is one of the range. -/
def read? (r : IntegerRange) (s : String) : Option Int := (r.read s.toList).toOption

/-- Whether a number lies in the range. -/
def contains (r : IntegerRange) (n : Int) : Bool := r.least ≤ n && n ≤ r.greatest

theorem digit?_lt {c : Char} {d : Nat} (h : digit? c = some d) : d < 10 := by
  unfold digit? at h
  split at h
  · next hc =>
    have h9 : c.toNat ≤ 57 := by simpa [Char.le_def, UInt32.le_iff_toNat_le] using hc.2
    simp only [Option.some.injEq] at h
    have : '0'.toNat = 48 := rfl
    omega
  · simp at h

/-- Reading never leaves the limit. -/
theorem readDigits_le {limit value n : Nat} {beyond : Fault} {cs : List Char}
    (hv : value ≤ limit) (h : readDigits limit beyond value cs = .ok n) : n ≤ limit := by
  induction cs generalizing value with
  | nil => simp only [readDigits, Except.ok.injEq] at h; omega
  | cons c cs ih =>
    rw [readDigits] at h
    split at h
    · simp at h
    · split at h
      · next hle => exact ih hle h
      · simp at h

end IntegerRange

end HttpApp
