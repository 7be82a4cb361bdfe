/-
  HttpApp/Text/Utf8.lean --- reading UTF-8, strictly and leniently.

  `front` takes one character, or one maximal run of bytes that no character can
  start with, off a byte sequence.  `decode` refuses the first such run and says
  where it stands; `lossy` puts U+FFFD in its place.  Main statements: both give
  back the characters that `Bytes.ofText` encoded.
-/
import HttpApp.Bytes

set_option autoImplicit false

namespace HttpApp.Utf8

/-- What a byte sequence starts with. -/
inductive Front where
  /-- nothing is left -/
  | finished
  /-- a whole character -/
  | char (c : Char) (rest : Bytes)
  /-- `size` bytes that belong to no character -/
  | invalid (size : Nat) (rest : Bytes)
  /-- a character that the end of the sequence cuts short -/
  | truncated
  deriving Inhabited

/-- Bytes `10xxxxxx`, the second and later ones of a character. -/
def isTail (b : UInt8) : Bool := 0x80 ≤ b.toNat && b.toNat < 0xC0

/-- After the first byte `x` of a character of two bytes. -/
def frontTwo (x : Nat) : Bytes → Front
  | [] => .truncated
  | b :: l =>
    if isTail b then .char (Char.ofNat ((x - 0xC0) * 64 + (b.toNat - 0x80))) l
    else .invalid 1 (b :: l)

/-- The second bytes of a three-byte character that starts with `x`: none may spell a
code point below 2048 or a surrogate. -/
def secondOfThree (x : Nat) (b : UInt8) : Bool :=
  isTail b && (x != 0xE0 || 0xA0 ≤ b.toNat) && (x != 0xED || b.toNat < 0xA0)

/-- After the first byte `x` of a character of three bytes. -/
def frontThree (x : Nat) : Bytes → Front
  | [] => .truncated
  | b :: l =>
    if secondOfThree x b then
      match l with
      | [] => .truncated
      | c :: l =>
        if isTail c then
          .char (Char.ofNat ((x - 0xE0) * 4096 + (b.toNat - 0x80) * 64 + (c.toNat - 0x80))) l
        else .invalid 2 (c :: l)
    else .invalid 1 (b :: l)

/-- The second bytes of a four-byte character that starts with `x`: none may spell a code
point below 65536 or above 0x10FFFF. -/
def secondOfFour (x : Nat) (b : UInt8) : Bool :=
  isTail b && (x != 0xF0 || 0x90 ≤ b.toNat) && (x != 0xF4 || b.toNat < 0x90)

/-- After the first byte `x` of a character of four bytes. -/
def frontFour (x : Nat) : Bytes → Front
  | [] => .truncated
  | b :: l =>
    if secondOfFour x b then
      match l with
      | [] => .truncated
      | c :: l =>
        if isTail c then
          match l with
          | [] => .truncated
          | d :: l =>
            if isTail d then
              .char (Char.ofNat ((x - 0xF0) * 262144 + (b.toNat - 0x80) * 4096 +
                (c.toNat - 0x80) * 64 + (d.toNat - 0x80))) l
            else .invalid 3 (d :: l)
        else .invalid 2 (c :: l)
    else .invalid 1 (b :: l)

/-- The first character of a byte sequence, or what stands in its place. -/
def front : Bytes → Front
  | [] => .finished
  | a :: l =>
    let x := a.toNat
    if x < 0x80 then .char (Char.ofNat x) l
    else if x < 0xC2 then .invalid 1 l
    else if x < 0xE0 then frontTwo x l
    else if x < 0xF0 then frontThree x l
    else if x < 0xF5 then frontFour x l
    else .invalid 1 l

/-! ## Strict and lenient reading -/

/-- Why a byte sequence is not UTF-8. -/
inductive Fault where
  /-- the bytes at `index` belong to no character -/
  | invalid (size index : Nat)
  /-- the last character, which starts at `index`, is cut short -/
  | truncated (index : Nat)
  deriving DecidableEq, Repr, Inhabited

/-- The wording of a fault. -/
def Fault.message : Fault → String
  | .invalid size index =>
    "invalid utf-8 sequence of " ++ toString size ++ " bytes from index " ++ toString index
  | .truncated index => "incomplete utf-8 byte sequence from index " ++ toString index

/-- Reads at most `fuel` characters from a sequence that starts at `index`. -/
def decodeFrom : Nat → Nat → Bytes → Except Fault (List Char)
  | 0, _, _ => .ok []
  | fuel + 1, index, b =>
    match front b with
    | .finished => .ok []
    | .char c rest => (decodeFrom fuel (index + c.utf8Size) rest).map (c :: ·)
    | .invalid size _ => .error (.invalid size index)
    | .truncated => .error (.truncated index)

/-- The text that a byte sequence spells, or the first fault in it. -/
def decode (b : Bytes) : Except Fault String := (decodeFrom b.length 0 b).map String.ofList

/-- The text, if there is no fault. -/
def decode? (b : Bytes) : Option String := (decode b).toOption

/-- Reads at most `fuel` characters, U+FFFD for each run that belongs to no character. -/
def lossyFrom : Nat → Bytes → List Char
  | 0, _ => []
  | fuel + 1, b =>
    match front b with
    | .finished => []
    | .char c rest => c :: lossyFrom fuel rest
    | .invalid _ rest => '\uFFFD' :: lossyFrom fuel rest
    | .truncated => ['\uFFFD']

/-- The text that a byte sequence spells, with U+FFFD where it spells none. -/
def lossy (b : Bytes) : String := String.ofList (lossyFrom b.length b)

/-! ## Reading undoes writing -/

private theorem toNat_ofNat_of_lt {n : Nat} (h : n < 256) : (UInt8.ofNat n).toNat = n := by
  simp [UInt8.toNat_ofNat']; omega

/-- The bytes of a character are read as that character. -/
theorem front_utf8EncodeChar (c : Char) (rest : Bytes) :
    front (String.utf8EncodeChar c ++ rest) = .char c rest := by
  have hc : Char.ofNat c.val.toNat = c := by simp
  have hv : c.val.toNat < 0xD800 ∨ 0xDFFF < c.val.toNat ∧ c.val.toNat < 0x110000 := c.valid
  generalize hn : c.val.toNat = v at hc hv
  unfold String.utf8EncodeChar
  simp only [hn]
  split
  · next h =>
    simp only [List.cons_append, List.nil_append, front]
    rw [toNat_ofNat_of_lt (by omega), if_pos (by omega), hc]
  · split
    · next h1 h2 =>
      simp only [List.cons_append, List.nil_append, front]
      rw [toNat_ofNat_of_lt (by omega), if_neg (by omega), if_neg (by omega), if_pos (by omega)]
      have ht : isTail (UInt8.ofNat (v % 64 + 128)) = true := by
        simp only [isTail, toNat_ofNat_of_lt (show v % 64 + 128 < 256 by omega)]
        simp; omega
      rw [frontTwo, if_pos ht, toNat_ofNat_of_lt (by omega),
        show (v / 64 % 32 + 192 - 0xC0) * 64 + (v % 64 + 128 - 0x80) = v by omega, hc]
    · split
      · next h1 h2 h3 =>
        simp only [List.cons_append, List.nil_append, front]
        rw [toNat_ofNat_of_lt (by omega), if_neg (by omega), if_neg (by omega), if_neg (by omega),
          if_pos (by omega)]
        have ht : ∀ w, isTail (UInt8.ofNat (w % 64 + 128)) = true := by
          intro w
          simp only [isTail, toNat_ofNat_of_lt (show w % 64 + 128 < 256 by omega)]
          simp; omega
        have hs : secondOfThree (v / 4096 % 16 + 224) (UInt8.ofNat (v / 64 % 64 + 128)) = true := by
          simp only [secondOfThree, ht, toNat_ofNat_of_lt (show v / 64 % 64 + 128 < 256 by omega)]
          simp; omega
        simp only [frontThree]
        rw [if_pos hs, if_pos (ht v), toNat_ofNat_of_lt (by omega), toNat_ofNat_of_lt (by omega),
          show (v / 4096 % 16 + 224 - 0xE0) * 4096 + (v / 64 % 64 + 128 - 0x80) * 64 +
            (v % 64 + 128 - 0x80) = v by omega, hc]
      · next h1 h2 h3 =>
        simp only [List.cons_append, List.nil_append, front]
        rw [toNat_ofNat_of_lt (by omega), if_neg (by omega), if_neg (by omega), if_neg (by omega),
          if_neg (by omega), if_pos (by omega)]
        have ht : ∀ w, isTail (UInt8.ofNat (w % 64 + 128)) = true := by
          intro w
          simp only [isTail, toNat_ofNat_of_lt (show w % 64 + 128 < 256 by omega)]
          simp; omega
        have hs : secondOfFour (v / 262144 % 8 + 240) (UInt8.ofNat (v / 4096 % 64 + 128)) = true := by
          simp only [secondOfFour, ht, toNat_ofNat_of_lt (show v / 4096 % 64 + 128 < 256 by omega)]
          simp; omega
        simp only [frontFour]
        rw [if_pos hs, if_pos (ht _), if_pos (ht v), toNat_ofNat_of_lt (by omega),
          toNat_ofNat_of_lt (by omega), toNat_ofNat_of_lt (by omega),
          show (v / 262144 % 8 + 240 - 0xF0) * 262144 + (v / 4096 % 64 + 128 - 0x80) * 4096 +
            (v / 64 % 64 + 128 - 0x80) * 64 + (v % 64 + 128 - 0x80) = v by omega, hc]

private theorem utf8EncodeChar_length_pos (c : Char) : 0 < (String.utf8EncodeChar c).length := by
  unfold String.utf8EncodeChar
  dsimp only
  split
  · simp
  · split
    · simp
    · split <;> simp

theorem decodeFrom_encode (cs : List Char) (fuel index : Nat)
    (h : (cs.flatMap String.utf8EncodeChar).length ≤ fuel) :
    decodeFrom fuel index (cs.flatMap String.utf8EncodeChar) = .ok cs := by
  induction cs generalizing fuel index with
  | nil => cases fuel <;> simp [decodeFrom, front]
  | cons c cs ih =>
    simp only [List.flatMap_cons, List.length_append] at h
    have := utf8EncodeChar_length_pos c
    obtain ⟨n, rfl⟩ : ∃ n, fuel = n + 1 := ⟨fuel - 1, by omega⟩
    simp [decodeFrom, List.flatMap_cons, front_utf8EncodeChar, ih n (index + c.utf8Size) (by omega),
      Except.map]

/-- Strict reading gives an encoded text back. -/
@[simp] theorem decode_ofText (s : String) : decode (Bytes.ofText s) = .ok s := by
  rw [decode, Bytes.ofText, decodeFrom_encode _ _ 0 (Nat.le_refl _)]
  simp [Except.map]

theorem lossyFrom_encode (cs : List Char) (fuel : Nat)
    (h : (cs.flatMap String.utf8EncodeChar).length ≤ fuel) :
    lossyFrom fuel (cs.flatMap String.utf8EncodeChar) = cs := by
  induction cs generalizing fuel with
  | nil => cases fuel <;> simp [lossyFrom, front]
  | cons c cs ih =>
    simp only [List.flatMap_cons, List.length_append] at h
    have := utf8EncodeChar_length_pos c
    obtain ⟨n, rfl⟩ : ∃ n, fuel = n + 1 := ⟨fuel - 1, by omega⟩
    simp [lossyFrom, List.flatMap_cons, front_utf8EncodeChar, ih n (by omega)]

/-- Lenient reading gives an encoded text back. -/
@[simp] theorem lossy_ofText (s : String) : lossy (Bytes.ofText s) = s := by
  rw [lossy, Bytes.ofText, lossyFrom_encode _ _ (Nat.le_refl _), String.ofList_toList]

end HttpApp.Utf8
