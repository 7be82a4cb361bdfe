/-
  HttpApp/Attributes.lean --- values that travel with a request.

  At most one value of each kind is held.  A kind fixes the type of its values, so
  that what is found under a kind has that type.
-/

set_option autoImplicit false

namespace HttpApp

/-- The kinds of values that a request can carry. -/
inductive AttributeKind where
  | word32
  | integer
  | bool
  | text
  | texts
  /-- when the work on the request began -/
  | start
  deriving DecidableEq, Repr, Inhabited

abbrev AttributeKind.Value : AttributeKind → Type
  | .word32 => UInt32
  | .integer => Int64
  | .bool => Bool
  | .text => String
  | .texts => List String
  | .start => Nat

structure Attributes where
  /-- the values, the kind of each only once -/
  entries : List (Sigma AttributeKind.Value) := []

namespace Attributes

/-- No values. -/
def empty : Attributes := {}

instance : Inhabited Attributes := ⟨empty⟩

/-- The value of a kind among entries. -/
def find? (k : AttributeKind) : List (Sigma AttributeKind.Value) → Option k.Value
  | [] => none
  | ⟨j, v⟩ :: rest => if h : j = k then some (h ▸ v) else find? k rest

def get? (a : Attributes) (k : AttributeKind) : Option k.Value := find? k a.entries

/-- Without the value of a kind. -/
def erase (a : Attributes) (k : AttributeKind) : Attributes :=
  ⟨a.entries.filter fun e => e.1 != k⟩

/-- With a value, which replaces the one of its kind. -/
def insert (a : Attributes) (k : AttributeKind) (v : k.Value) : Attributes :=
  ⟨⟨k, v⟩ :: (a.erase k).entries⟩

/-- Whether there is a value of a kind. -/
def contains (a : Attributes) (k : AttributeKind) : Bool := a.entries.any fun e => e.1 == k

/-- The value of a kind changed, if there is one. -/
def modify (a : Attributes) (k : AttributeKind) (f : k.Value → k.Value) : Attributes :=
  match a.get? k with
  | some v => a.insert k (f v)
  | none => a

/-- The number of values. -/
def size (a : Attributes) : Nat := a.entries.length

/-- The values where records are shown. -/
def shown (a : Attributes) : String := "Attributes \x7b len: " ++ toString a.size ++ " \x7d"

@[simp] theorem get?_empty (k : AttributeKind) : empty.get? k = none := rfl

private theorem find?_filter_ne {j k : AttributeKind} (h : j ≠ k)
    (es : List (Sigma AttributeKind.Value)) :
    find? j (es.filter fun e => e.1 != k) = find? j es := by
  induction es with
  | nil => rfl
  | cons e es ih =>
    obtain ⟨i, v⟩ := e
    by_cases hk : i = k
    · subst hk
      simp [find?, ih, Ne.symm h]
    · have : (i != k) = true := by simpa using hk
      simp only [List.filter_cons, this, if_true, find?]
      split
      · rfl
      · exact ih

/-- The value that was put in last is found. -/
@[simp] theorem get?_insert_self (a : Attributes) (k : AttributeKind) (v : k.Value) :
    (a.insert k v).get? k = some v := by
  simp [get?, insert, find?]

/-- A value of another kind is found as before. -/
theorem get?_insert_of_ne (a : Attributes) {j k : AttributeKind} (v : k.Value) (h : j ≠ k) :
    (a.insert k v).get? j = a.get? j := by
  simp only [get?, insert, find?, dif_neg (Ne.symm h), erase, find?_filter_ne h]

end Attributes

end HttpApp
