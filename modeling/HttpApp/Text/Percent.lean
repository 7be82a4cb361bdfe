/-
  HttpApp/Text/Percent.lean --- percent encoding.

  `encodeBytes` writes every byte that is not unreserved as `%` and two digits of
  base sixteen; `decodeBytes` reads any such triple back and keeps all else.  Main
  statements: decoding undoes encoding, of bytes and of texts.
-/
import HttpApp.Text.Utf8

set_option autoImplicit false

namespace HttpApp.Percent

/-- The value of a byte as a digit of base sixteen, of either case. -/
def digit? (b : UInt8) : Option Nat :=
  if 48 ≤ b.toNat ∧ b.toNat ≤ 57 then some (b.toNat - 48)
  else if 97 ≤ b.toNat ∧ b.toNat ≤ 102 then some (b.toNat - 87)
  else if 65 ≤ b.toNat ∧ b.toNat ≤ 70 then some (b.toNat - 55)
  else none

/-- The upper-case digit of base sixteen for a value below 16. -/
def digitByte (n : Nat) : UInt8 := UInt8.ofNat (if n < 10 then 48 + n else 55 + n)

/-- Reads every `%` with two digits behind it as one byte. -/
def decodeBytes : Bytes → Bytes
  | [] => []
  | [b] => [b]
  | [b, c] => [b, c]
  | b :: h :: l :: rest =>
    if b = 37 then
      match digit? h, digit? l with
      | some x, some y => UInt8.ofNat (x * 16 + y) :: decodeBytes rest
      | _, _ => b :: decodeBytes (h :: l :: rest)
    else b :: decodeBytes (h :: l :: rest)

/-- Letters, digits and `-`, `_`, `.`, `~`, which stand for themselves. -/
def isUnreserved (b : UInt8) : Bool :=
  let n := b.toNat
  (48 ≤ n && n ≤ 57) || (65 ≤ n && n ≤ 90) || (97 ≤ n && n ≤ 122) ||
    n == 45 || n == 95 || n == 46 || n == 126

def encodeByte (b : UInt8) : Bytes :=
  if isUnreserved b then [b] else [37, digitByte (b.toNat / 16), digitByte (b.toNat % 16)]

/-- A byte sequence in percent encoding. -/
def encodeBytes (b : Bytes) : Bytes := b.flatMap encodeByte

/-- The text that a percent-encoded text stands for, U+FFFD where it is not UTF-8. -/
def decode (s : String) : String := Utf8.lossy (decodeBytes (Bytes.ofText s))

def encode (s : String) : String := Bytes.ascii (encodeBytes (Bytes.ofText s))

theorem digit?_digitByte {n : Nat} (h : n < 16) : digit? (digitByte n) = some n := by
  have : ∀ m : Fin 16, digit? (digitByte m.val) = some m.val := by decide
  exact this ⟨n, h⟩

/-- A byte that is not `%` stands for itself. -/
theorem decodeBytes_cons {b : UInt8} (h : b ≠ 37) (rest : Bytes) :
    decodeBytes (b :: rest) = b :: decodeBytes rest := by
  match rest with
  | [] => simp [decodeBytes]
  | [c] => simp [decodeBytes]
  | c :: d :: rest => rw [decodeBytes, if_neg h]

theorem decodeBytes_eq_self {b : Bytes} (h : 37 ∉ b) : decodeBytes b = b := by
  induction b with
  | nil => rfl
  | cons x b ih =>
    rw [List.mem_cons, not_or] at h
    rw [decodeBytes_cons (Ne.symm h.1), ih h.2]

/-- A text without a percent sign stands for itself. -/
theorem decode_eq_self {s : String} (h : '%' ∉ s.toList) : decode s = s := by
  have hbytes : 37 ∉ Bytes.ofText s := by
    intro hmem
    obtain ⟨c, hc, hx⟩ := List.mem_flatMap.1 hmem
    have hnat : c.toNat = '%'.toNat := Bytes.toNat_eq_of_mem_utf8EncodeChar hx (by decide)
    exact h (Char.toNat_inj.1 hnat ▸ hc)
  rw [decode, decodeBytes_eq_self hbytes, Utf8.lossy_ofText]

theorem decodeBytes_encodeByte (b : UInt8) (rest : Bytes) :
    decodeBytes (encodeByte b ++ rest) = b :: decodeBytes rest := by
  unfold encodeByte
  split
  · next h =>
    have : b ≠ 37 := by rintro rfl; revert h; decide
    exact decodeBytes_cons this rest
  · have hb : b.toNat < 256 := b.toNat_lt
    simp only [List.cons_append, List.nil_append]
    rw [decodeBytes, if_pos rfl]
    simp only [digit?_digitByte (show b.toNat / 16 < 16 by omega),
      digit?_digitByte (show b.toNat % 16 < 16 by omega)]
    rw [show b.toNat / 16 * 16 + b.toNat % 16 = b.toNat by omega]
    simp

/-- Decoding undoes encoding. -/
@[simp] theorem decodeBytes_encodeBytes (b : Bytes) : decodeBytes (encodeBytes b) = b := by
  induction b with
  | nil => rfl
  | cons a b ih =>
    rw [encodeBytes, List.flatMap_cons, decodeBytes_encodeByte]
    exact congrArg _ ih

theorem isUnreserved_digitByte {n : Nat} (h : n < 16) : isUnreserved (digitByte n) = true := by
  have hdigit : ∀ m : Fin 16, isUnreserved (digitByte m.val) = true := by decide
  exact hdigit ⟨n, h⟩

/-- An encoded byte sequence is made of unreserved bytes and of `%`. -/
theorem of_mem_encodeBytes {b : Bytes} {x : UInt8} (h : x ∈ encodeBytes b) :
    isUnreserved x = true ∨ x = 37 := by
  obtain ⟨a, -, hx⟩ := List.mem_flatMap.1 h
  unfold encodeByte at hx
  have ha : a.toNat < 256 := a.toNat_lt
  split at hx
  · next ha => 
    obtain rfl := List.mem_singleton.1 hx
    exact .inl ha
  · simp only [List.mem_cons, List.not_mem_nil, or_false] at hx
    obtain rfl | rfl | rfl := hx
    · exact .inr rfl
    · exact .inl (isUnreserved_digitByte (by omega))
    · exact .inl (isUnreserved_digitByte (by omega))

theorem lt_of_mem_encodeBytes {b : Bytes} {x : UInt8} (h : x ∈ encodeBytes b) :
    x.toNat < 128 ∧ x.toNat ≠ 47 := by
  obtain hx | rfl := of_mem_encodeBytes h
  · simp only [isUnreserved, Bool.or_eq_true, Bool.and_eq_true, decide_eq_true_eq, beq_iff_eq] at hx
    omega
  · decide

theorem ofText_encode (s : String) : Bytes.ofText (encode s) = encodeBytes (Bytes.ofText s) :=
  Bytes.ofText_ascii fun _ hx => (lt_of_mem_encodeBytes hx).1

/-- Decoding gives an encoded text back. -/
@[simp] theorem decode_encode (s : String) : decode (encode s) = s := by
  rw [decode, ofText_encode, decodeBytes_encodeBytes, Utf8.lossy_ofText]

/-- There is no slash in an encoded text. -/
theorem slash_notMem_encode (s : String) : '/' ∉ (encode s).toList := by
  intro h
  rw [encode, Bytes.ascii, String.toList_ofList, List.mem_map] at h
  obtain ⟨x, hx, heq⟩ := h
  have hlt := lt_of_mem_encodeBytes hx
  have hnat := Bytes.toNat_ofNat_of_lt hlt.1
  rw [heq] at hnat
  exact hlt.2 hnat.symm

/-- Only the empty text is encoded as the empty one. -/
theorem toList_encode_eq_nil_iff {s : String} : (encode s).toList = [] ↔ s = "" := by
  constructor
  · intro h
    rw [← decode_encode s, String.toList_eq_nil_iff.1 h]
    rfl
  · rintro rfl
    rfl

end HttpApp.Percent
