/-
  HttpApp/Json/Basic.lean --- JSON values.

  A number is whole or binary floating point, and the two are told apart: `1` and
  `1.0` are different values.  The members of an object are a list; in a canonical
  value their names ascend, so that a name stands for one member.
-/
import HttpApp.Number.Binary

set_option autoImplicit false

namespace HttpApp

/-- A JSON value. -/
inductive Json where
  | null
  | bool (b : Bool)
  /-- a number written without fraction and exponent -/
  | integer (n : Int)
  /-- a number written with a fraction or an exponent -/
  | real (x : Binary64)
  | text (s : String)
  | list (items : List Json)
  | object (members : List (String × Json))
  deriving Inhabited

namespace Json

/-- Sets a member of an object whose names ascend; the names still do. -/
def setMember (name : String) (value : Json) : List (String × Json) → List (String × Json)
  | [] => [(name, value)]
  | m :: ms =>
    if name = m.1 then (name, value) :: ms
    else if name < m.1 then (name, value) :: m :: ms
    else m :: setMember name value ms

def member? (name : String) (members : List (String × Json)) : Option Json :=
  (members.find? fun m => m.1 == name).map (·.2)

/-- An object with the given members; of several with one name the last one counts. -/
def ofMembers (members : List (String × Json)) : Json :=
  .object (members.foldl (fun ms m => setMember m.1 m.2 ms) [])

mutual

/-- The canonical form: in every object the names ascend, and of several members with one
name the last one is kept. -/
def canonical : Json → Json
  | .list items => .list (canonicalItems items)
  | .object members => .object (canonicalMembers [] members)
  | .null => .null
  | .bool b => .bool b
  | .integer n => .integer n
  | .real x => .real x
  | .text s => .text s

/-- The canonical forms of the items of a list. -/
def canonicalItems : List Json → List Json
  | [] => []
  | v :: vs => v.canonical :: canonicalItems vs

/-- Adds the canonical forms of members to an object. -/
def canonicalMembers (done : List (String × Json)) : List (String × Json) → List (String × Json)
  | [] => done
  | (name, v) :: ms => canonicalMembers (setMember name v.canonical done) ms

end

/-! ## Members that are set -/

theorem member?_cons (name : String) (m : String × Json) (ms : List (String × Json)) :
    member? name (m :: ms) = if m.1 = name then some m.2 else member? name ms := by
  by_cases h : m.1 = name <;> simp [member?, h]

/-- A member that is set has its value, and all others stay. -/
theorem member?_setMember (name name' : String) (value : Json) (ms : List (String × Json)) :
    member? name' (setMember name value ms) =
      if name = name' then some value else member? name' ms := by
  induction ms with
  | nil => simp only [setMember, member?_cons]
  | cons m ms ih =>
    rw [setMember]
    split
    · next h =>
      by_cases hname : name = name'
      · simp only [member?_cons, hname]
        rfl
      · simp only [member?_cons, ← h, hname, if_false]
    · split
      · simp only [member?_cons]
      · next h _ =>
        rw [member?_cons, ih, member?_cons]
        by_cases hname : name = name'
        · rw [if_neg fun heq => h (hname.trans heq.symm), if_pos hname, if_pos hname]
        · rw [if_neg hname, if_neg hname]

theorem mem_setMember {name : String} {value : Json} {m : String × Json}
    {ms : List (String × Json)} (h : m ∈ setMember name value ms) : m = (name, value) ∨ m ∈ ms := by
  induction ms with
  | nil => exact .inl (List.mem_singleton.1 h)
  | cons n ms ih =>
    rw [setMember] at h
    split at h
    · exact (List.mem_cons.1 h).imp_right (List.mem_cons_of_mem _)
    · split at h
      · exact List.mem_cons.1 h
      · obtain rfl | h := List.mem_cons.1 h
        · exact .inr List.mem_cons_self
        · exact (ih h).imp_right (List.mem_cons_of_mem _)

/-- Where the names ascend, they still do when a member is set. -/
theorem pairwise_setMember (name : String) (value : Json) {ms : List (String × Json)}
    (h : ms.Pairwise fun m n => m.1 < n.1) :
    (setMember name value ms).Pairwise fun m n => m.1 < n.1 := by
  induction ms with
  | nil => exact List.pairwise_singleton _ _
  | cons m ms ih =>
    obtain ⟨hfirst, hrest⟩ := List.pairwise_cons.1 h
    rw [setMember]
    split
    · next heq => exact List.pairwise_cons.2 ⟨fun n hn => heq ▸ hfirst n hn, hrest⟩
    · split
      · next hlt =>
        refine List.pairwise_cons.2 ⟨List.forall_mem_cons.2 ⟨hlt, fun n hn => ?_⟩, h⟩
        exact String.lt_trans hlt (hfirst n hn)
      · next hne hle =>
        refine List.pairwise_cons.2 ⟨fun n hn => ?_, ih hrest⟩
        obtain rfl | hn := mem_setMember hn
        · exact Std.lt_of_le_of_ne (String.not_lt.1 hle) (Ne.symm hne)
        · exact hfirst n hn

end Json

end HttpApp
