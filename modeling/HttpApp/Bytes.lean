/-
  HttpApp/Bytes.lean --- byte sequences and the bytes of a text.
-/

set_option autoImplicit false

namespace HttpApp

/-- What travels in bodies and header values. -/
abbrev Bytes : Type := List UInt8

namespace Bytes

def ofText (s : String) : Bytes := s.toList.flatMap String.utf8EncodeChar

/-- A text of bytes below 128, each its own character. -/
def ascii (b : Bytes) : String := String.ofList (b.map fun x => Char.ofNat x.toNat)

theorem toNat_ofNat_of_lt {n : Nat} (h : n < 128) : (Char.ofNat n).toNat = n := by
  rw [Char.ofNat, dif_pos (.inl (by omega))]
  rfl

/-- A character below 128 is one byte. -/
theorem utf8EncodeChar_of_lt {c : Char} (h : c.toNat < 128) :
    String.utf8EncodeChar c = [UInt8.ofNat c.toNat] := by
  have hval : c.val.toNat = c.toNat := rfl
  unfold String.utf8EncodeChar
  dsimp only
  rw [hval, if_pos (by omega)]

/-- The bytes of a text of bytes below 128 are those bytes. -/
theorem ofText_ascii {b : Bytes} (h : ∀ x ∈ b, x.toNat < 128) : ofText (ascii b) = b := by
  have hchar : ∀ x : UInt8, x.toNat < 128 → String.utf8EncodeChar (Char.ofNat x.toNat) = [x] := by
    intro x hx
    have hnat := toNat_ofNat_of_lt hx
    rw [utf8EncodeChar_of_lt (by omega), hnat, UInt8.ofNat_toNat]
  rw [ofText, ascii, String.toList_ofList, List.flatMap_map]
  induction b with
  | nil => rfl
  | cons x b ih =>
    rw [List.flatMap_cons, hchar x (h x List.mem_cons_self),
      ih fun y hy => h y (List.mem_cons_of_mem _ hy), List.singleton_append]

/-- The bytes of a text of characters below 128, each its own character, are the text. -/
theorem ascii_ofText {s : String} (h : ∀ c ∈ s.toList, c.toNat < 128) : ascii (ofText s) = s := by
  have hchars : ∀ cs : List Char, (∀ c ∈ cs, c.toNat < 128) →
      (cs.flatMap String.utf8EncodeChar).map (fun x => Char.ofNat x.toNat) = cs := by
    intro cs hcs
    induction cs with
    | nil => rfl
    | cons c cs ih =>
      obtain ⟨hc, hcs⟩ := List.forall_mem_cons.mp hcs
      have hnat : (UInt8.ofNat c.toNat).toNat = c.toNat := by
        rw [UInt8.toNat_ofNat']
        omega
      rw [List.flatMap_cons, utf8EncodeChar_of_lt hc, List.singleton_append, List.map_cons, hnat,
        Char.ofNat_toNat, ih hcs]
  rw [ascii, ofText, hchars s.toList h, String.ofList_toList]

/-- A byte below 128 of a character is the whole character. -/
theorem toNat_eq_of_mem_utf8EncodeChar {c : Char} {x : UInt8} (hx : x ∈ String.utf8EncodeChar c)
    (hlt : x.toNat < 128) : c.toNat = x.toNat := by
  have hval : c.toNat = c.val.toNat := rfl
  unfold String.utf8EncodeChar at hx
  dsimp only at hx
  split at hx
  · obtain rfl := List.mem_singleton.1 hx
    rw [UInt8.toNat_ofNat']
    omega
  · split at hx
    · simp only [List.mem_cons, List.not_mem_nil, or_false] at hx
      obtain rfl | rfl := hx <;> rw [UInt8.toNat_ofNat'] at hlt <;> omega
    · split at hx
      · simp only [List.mem_cons, List.not_mem_nil, or_false] at hx
        obtain rfl | rfl | rfl := hx <;> rw [UInt8.toNat_ofNat'] at hlt <;> omega
      · simp only [List.mem_cons, List.not_mem_nil, or_false] at hx
        obtain rfl | rfl | rfl | rfl := hx <;> rw [UInt8.toNat_ofNat'] at hlt <;> omega

/-- Two digits of base sixteen, lower case. -/
def hexPair (b : UInt8) : List Char :=
  (Nat.toDigits 16 (b.toNat / 16)) ++ (Nat.toDigits 16 (b.toNat % 16))

/-- Two lower-case hexadecimal digits for each byte. -/
def hex (b : Bytes) : String := String.ofList (b.flatMap hexPair)

end Bytes

end HttpApp
