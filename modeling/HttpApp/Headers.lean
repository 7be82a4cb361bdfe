/-
  HttpApp/Headers.lean --- header fields.

  Names are tokens in lower case, values are bytes.  Every name stands once, at
  the place where it came first, with its values in order.  `insert` replaces the
  values of a name, `append` adds one.
-/
import HttpApp.Text.Quoted
import HttpApp.Text.Token

set_option autoImplicit false

namespace HttpApp

abbrev HeaderValue : Type := Bytes

namespace HeaderValue

/-- Bytes that are shown as text: visible ASCII, the space and the tab. -/
def isVisible (b : UInt8) : Bool := (32 ≤ b.toNat && b.toNat < 127) || b == 9

/-- Bytes that may stand in a value that comes over a connection. -/
def isAllowed (b : UInt8) : Bool := (32 ≤ b.toNat && b != 127) || b == 9

/-- The value that a text makes, if none of its bytes is a control. -/
def ofText? (s : String) : Option HeaderValue :=
  let b := Bytes.ofText s
  if b.all isAllowed then some b else none

def text? (v : HeaderValue) : Option String := if v.all isVisible then some (Bytes.ascii v) else none

theorem toNat_lt_of_isVisible {b : UInt8} (h : isVisible b = true) : b.toNat < 127 := by
  simp only [isVisible, Bool.or_eq_true, Bool.and_eq_true, decide_eq_true_eq, beq_iff_eq] at h
  rcases h with h | rfl
  · exact h.2
  · decide

theorem isAllowed_of_isVisible {b : UInt8} (h : isVisible b = true) : isAllowed b = true := by
  have hne : b ≠ 127 := by
    rintro rfl
    exact absurd (toNat_lt_of_isVisible h) (by decide)
  simp only [isVisible, Bool.or_eq_true, Bool.and_eq_true, decide_eq_true_eq] at h
  simp only [isAllowed, Bool.or_eq_true, Bool.and_eq_true, decide_eq_true_eq, bne_iff_ne]
  exact h.imp (fun h => ⟨h.1, hne⟩) id

/-- A value that is visible text is the value that its text makes. -/
theorem ofText?_of_text? {v : HeaderValue} {text : String} (h : v.text? = some text) :
    ofText? text = some v := by
  unfold text? at h
  split at h
  · next hvisible =>
    obtain rfl := Option.some.inj h
    have hmem : ∀ b ∈ v, isVisible b = true := List.all_eq_true.1 hvisible
    have hascii : Bytes.ofText (Bytes.ascii v) = v :=
      Bytes.ofText_ascii fun b hb => Nat.lt_succ_of_lt (toNat_lt_of_isVisible (hmem b hb))
    unfold ofText?
    rw [hascii]
    exact if_pos (List.all_eq_true.2 fun b hb => isAllowed_of_isVisible (hmem b hb))
  · simp at h

/-- The bytes of visible characters below 128 are visible. -/
theorem isVisible_of_mem_ofText {s : String} (h : ∀ c ∈ s.toList, 32 ≤ c.toNat ∧ c.toNat < 127) :
    ∀ b ∈ Bytes.ofText s, isVisible b = true := by
  intro b hb
  obtain ⟨c, hc, hb⟩ := List.mem_flatMap.mp hb
  obtain ⟨hlow, hhigh⟩ := h c hc
  rw [Bytes.utf8EncodeChar_of_lt (by omega), List.mem_singleton] at hb
  have hnat : b.toNat = c.toNat := by
    rw [hb, UInt8.toNat_ofNat']
    omega
  simp [isVisible, hnat, hlow, hhigh]

/-- A text of visible characters below 128 is the value of a header. -/
theorem ofText?_of_visible {s : String} (h : ∀ c ∈ s.toList, 32 ≤ c.toNat ∧ c.toNat < 127) :
    ofText? s = some (Bytes.ofText s) :=
  if_pos (List.all_eq_true.mpr fun b hb => isAllowed_of_isVisible (isVisible_of_mem_ofText h b hb))

/-- The value that a text of visible characters below 128 makes is shown as that text. -/
theorem text?_ofText {s : String} (h : ∀ c ∈ s.toList, 32 ≤ c.toNat ∧ c.toNat < 127) :
    text? (Bytes.ofText s) = some s := by
  rw [text?, if_pos (List.all_eq_true.mpr (isVisible_of_mem_ofText h)),
    Bytes.ascii_ofText fun c hc => Nat.lt_succ_of_lt (h c hc).2]

/-- One byte of a value where records are shown. -/
def shownByte (b : UInt8) : List Char :=
  if b = 34 then ['\\', '"']
  else if isVisible b then [Char.ofNat b.toNat]
  else '\\' :: 'x' :: Nat.toDigits 16 b.toNat

/-- A value where records are shown. -/
def shown (v : HeaderValue) : String := String.ofList ('"' :: v.flatMap shownByte ++ ['"'])

end HeaderValue

/-- Header fields by name. -/
structure Headers where
  /-- names in order of first occurrence, each with its values in order -/
  fields : List (String × List HeaderValue) := []
  deriving DecidableEq, Repr, Inhabited

namespace Headers

/-- The name that a text makes: a token, in lower case. -/
def name? (s : String) : Option String :=
  if Text.isToken s && s.utf8ByteSize < 65536 then some (s.map Char.toLower) else none

/-- No fields. -/
def empty : Headers := {}

/-- The values of a name that is in lower case. -/
def valuesOf (h : Headers) (name : String) : List HeaderValue := (h.fields.lookup name).getD []

/-- The values of a name, whose case does not matter. -/
def getAll (h : Headers) (name : String) : List HeaderValue :=
  match name? name with
  | some n => h.valuesOf n
  | none => []

/-- The first value of a name. -/
def get? (h : Headers) (name : String) : Option HeaderValue := (h.getAll name).head?

/-- The first value of a name, if it is visible text. -/
def text? (h : Headers) (name : String) : Option String := (h.get? name).bind HeaderValue.text?

private def insertInto (name : String) (values : List HeaderValue → List HeaderValue) :
    List (String × List HeaderValue) → List (String × List HeaderValue)
  | [] => [(name, values [])]
  | f :: fs => if f.1 = name then (name, values f.2) :: fs else f :: insertInto name values fs

/-- Sets a name in lower case to one value. -/
def insert (h : Headers) (name : String) (value : HeaderValue) : Headers :=
  ⟨insertInto name (fun _ => [value]) h.fields⟩

/-- Adds a value to a name in lower case. -/
def append (h : Headers) (name : String) (value : HeaderValue) : Headers :=
  ⟨insertInto name (fun vs => vs ++ [value]) h.fields⟩

/-- Sets a field given as texts; a bad name or value changes nothing. -/
def insertText (h : Headers) (name value : String) : Headers :=
  match name? name, HeaderValue.ofText? value with
  | some n, some v => h.insert n v
  | _, _ => h

/-- Adds a field given as texts; a bad name or value changes nothing. -/
def appendText (h : Headers) (name value : String) : Headers :=
  match name? name, HeaderValue.ofText? value with
  | some n, some v => h.append n v
  | _, _ => h

/-- All fields one by one. -/
def toList (h : Headers) : List (String × HeaderValue) :=
  h.fields.flatMap fun f => f.2.map fun v => (f.1, v)

/-- The fields of `h` set over those of `base`. -/
def insertAll (base h : Headers) : Headers :=
  h.toList.foldl (fun acc f => acc.insert f.1 f.2) base

/-- All fields one by one, by name. -/
def sorted (h : Headers) : List (String × HeaderValue) :=
  (Headers.mk (h.fields.mergeSort fun a b => a.1 ≤ b.1)).toList

/-- The fields of all names but one. -/
def others (h : Headers) (name : String) : List (String × List HeaderValue) :=
  h.fields.filter fun f => f.1 != name

/-- The number of fields. -/
def size (h : Headers) : Nat := h.toList.length

/-- The fields where records are shown. -/
def shown (h : Headers) : String :=
  Text.shownMap (h.toList.map fun f => (Text.quoted f.1, HeaderValue.shown f.2))

/-! ## What the operations do to the values of a name -/

/-- The values of a name that stands alone. -/
theorem getAll_singleton {name : String} (h : name? name = some name)
    (values : List HeaderValue) : (⟨[(name, values)]⟩ : Headers).getAll name = values := by
  simp [getAll, h, valuesOf]

private theorem lookup_insertInto (name other : String) (values : List HeaderValue → List HeaderValue)
    (fs : List (String × List HeaderValue)) :
    (insertInto name values fs).lookup other =
      if other = name then some (values ((fs.lookup name).getD [])) else fs.lookup other := by
  have differ : ∀ {a b : String}, ¬ a = b → (a == b) = false := fun h => by simpa using h
  induction fs with
  | nil =>
    by_cases h : other = name
    · simp [insertInto, h]
    · simp [insertInto, List.lookup_cons, h, differ h]
  | cons f fs ih =>
    obtain ⟨n, vs⟩ := f
    rw [insertInto]
    by_cases hn : n = name
    · subst hn
      by_cases h : other = n
      · simp [h]
      · simp [List.lookup_cons, h, differ h]
    · by_cases h : other = name
      · subst h
        simp [List.lookup_cons, hn, differ (Ne.symm hn), ih]
      · by_cases ho : other = n
        · subst ho; simp [hn]
        · simp [List.lookup_cons, hn, differ ho, ih, h]

/-- After `insert` a name has that one value, and all others have what they had. -/
@[simp] theorem valuesOf_insert (h : Headers) (name other : String) (value : HeaderValue) :
    (h.insert name value).valuesOf other = if other = name then [value] else h.valuesOf other := by
  simp only [valuesOf, insert, lookup_insertInto]
  split <;> simp

private theorem filter_insertInto (name : String) (values : List HeaderValue → List HeaderValue)
    (fs : List (String × List HeaderValue)) :
    (insertInto name values fs).filter (fun f => f.1 != name) =
      fs.filter fun f => f.1 != name := by
  induction fs with
  | nil => simp [insertInto]
  | cons f fs ih =>
    rw [insertInto]
    by_cases hname : f.1 = name
    · rw [if_pos hname]
      simp [hname]
    · rw [if_neg hname, List.filter_cons, List.filter_cons, ih]

/-- `insert` leaves the fields of all other names as they are, in their order. -/
@[simp] theorem others_insert (h : Headers) (name : String) (value : HeaderValue) :
    (h.insert name value).others name = h.others name :=
  filter_insertInto name _ h.fields

/-- After `append` a name has one value more, and all others have what they had. -/
@[simp] theorem valuesOf_append (h : Headers) (name other : String) (value : HeaderValue) :
    (h.append name value).valuesOf other =
      if other = name then h.valuesOf name ++ [value] else h.valuesOf other := by
  simp only [valuesOf, append, lookup_insertInto]
  split <;> simp

end Headers

end HttpApp
