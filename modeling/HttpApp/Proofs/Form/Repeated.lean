/-
  HttpApp/Proofs/Form/Repeated.lean --- names that occur more than once.

  A query or a form is a list of names and values.  It is looked at in several ways: one
  name is filtered out of it, the names are collected in a map with lists, or in an
  object whose members turn from a text into a list as more values come.  Each of them
  is built by adding one pair after the other, so that one lemma on one more pair says
  what it holds of a whole list.  Main statement: `Context.views_agree`.
-/
import HttpApp.Context
import Mathlib.Data.List.Induction

set_option autoImplicit false

namespace HttpApp

namespace Urlencoded

/-- The values that stand with a name, in the order in which they occur. -/
def occurrences (name : String) : List (String × String) → List String
  | [] => []
  | (key, value) :: ps => if key = name then value :: occurrences name ps else occurrences name ps

theorem occurrences_concat (name : String) (ps : List (String × String)) (p : String × String) :
    occurrences name (ps ++ [p]) = occurrences name ps ++ if p.1 = name then [p.2] else [] := by
  induction ps with
  | nil => rfl
  | cons q ps ih =>
    rw [List.cons_append, occurrences, ih, occurrences]
    split
    · rw [List.cons_append]
    · rfl

/-- Filtering finds the occurrences of a name. -/
theorem valuesOf_eq_occurrences (name : String) (ps : List (String × String)) :
    valuesOf name ps = occurrences name ps := by
  induction ps with
  | nil => rfl
  | cons p ps ih =>
    rw [occurrences, ← ih, valuesOf, valuesOf]
    by_cases h : p.1 = name <;> simp [h]

/-! ## Maps with lists -/

/-- What a map with lists has for a name: nothing if it has no values. -/
def entryOf : List String → Option (List String)
  | [] => none
  | values => some values

theorem entryOf_concat (values : List String) (value : String) :
    entryOf (values ++ [value]) = some (values ++ [value]) := by
  cases values <;> rfl

theorem getD_entryOf (values : List String) : (entryOf values).getD [] = values := by
  cases values <;> rfl

theorem grouped_concat (ps : List (String × String)) (p : String × String) :
    grouped (ps ++ [p]) = Grouping.push p.1 p.2 (grouped ps) := by
  simp [grouped]

/-- A map with lists has the occurrences of every name. -/
theorem lookup_grouped (ps : List (String × String)) (name : String) :
    (grouped ps).lookup name = entryOf (occurrences name ps) := by
  induction ps using List.reverseRecOn with
  | nil => rfl
  | append_singleton ps p ih =>
    rw [grouped_concat, Grouping.lookup_push, ih, occurrences_concat, getD_entryOf]
    by_cases h : p.1 = name
    · rw [if_pos h.symm, if_pos h, entryOf_concat]
    · rw [if_neg (Ne.symm h), if_neg h, List.append_nil]

theorem nodup_grouped (ps : List (String × String)) : ((grouped ps).map (·.1)).Nodup := by
  induction ps using List.reverseRecOn with
  | nil => exact List.nodup_nil
  | append_singleton ps p ih =>
    rw [grouped_concat]
    exact Grouping.nodup_push _ _ ih

end Urlencoded

namespace Form

open Urlencoded (occurrences)

/-! ## Objects -/

/-- What an object has for a name: nothing if it has no values, a text if it has one, and the list
of all of them if it has more. -/
def memberOf : List String → Option Json
  | [] => none
  | [value] => some (.text value)
  | values => some (.list (values.map .text))

theorem grown_memberOf (values : List String) (value : String) :
    some (grown (memberOf values) value) = memberOf (values ++ [value]) := by
  match values with
  | [] => rfl
  | [first] => rfl
  | first :: second :: values => simp [memberOf, grown]

theorem members_concat (ps : List (String × String)) (p : String × String) :
    members (ps ++ [p]) = addMember (members ps) p := by
  simp [members]

/-- The members of an object stand for the occurrences of every name. -/
theorem member?_members (ps : List (String × String)) (name : String) :
    Json.member? name (members ps) = memberOf (occurrences name ps) := by
  induction ps using List.reverseRecOn with
  | nil => rfl
  | append_singleton ps p ih =>
    rw [members_concat, addMember, Json.member?_setMember, Urlencoded.occurrences_concat]
    split
    · next h => rw [h, ih, grown_memberOf]
    · rw [ih, List.append_nil]

/-- Every name has one member at most. -/
theorem pairwise_members (ps : List (String × String)) :
    (members ps).Pairwise fun m n => m.1 < n.1 := by
  induction ps using List.reverseRecOn with
  | nil => exact List.Pairwise.nil
  | append_singleton ps p ih =>
    rw [members_concat]
    exact Json.pairwise_setMember _ _ ih

end Form

namespace Context

open Urlencoded (occurrences entryOf)
open Form (memberOf)

/-- All views of names that repeat agree.  Of a query, and of the fields of a form, whatever these
are, every name has its occurrences in order: as a single parameter or field, in the map of the
query, and in the object of the form.  A name without one is in neither, and no name is there
twice.  The parser of simple forms makes the same object of a body as its form does. -/
theorem views_agree (c : Context) (f : Form) :
    (∀ name, (c.query name).values = occurrences name c.request.queryPairs ∧
      c.queryMap.lookup name = entryOf (occurrences name c.request.queryPairs)) ∧
    (c.queryMap.map (·.1)).Nodup ∧
    (∀ name, (f.field name).values = occurrences name f.fields ∧
      Json.member? name f.toMembers = memberOf (occurrences name f.fields)) ∧
    (f.toMembers.Pairwise fun m n => m.1 < n.1) ∧
    ∀ type, c.bodyType = some type → type.sameEssence .form = true →
      c.formMap.map Json.object = Parser.form.parse c.request.body := by
  refine ⟨fun name => ⟨?_, ?_⟩, ?_, fun name => ⟨?_, ?_⟩, ?_, fun type htype hform => ?_⟩
  · exact Urlencoded.valuesOf_eq_occurrences name _
  · exact Urlencoded.lookup_grouped _ name
  · exact Urlencoded.nodup_grouped _
  · exact Urlencoded.valuesOf_eq_occurrences name _
  · exact Form.member?_members _ name
  · exact Form.pairwise_members _
  · rw [formMap, form, htype, Form.read, if_pos hform]
    rfl

/-- A query and a simple form in which names repeat. -/
def basket : Context where
  request := {
    method := .post
    path := "/"
    query := some "tea=1&milk&tea=2"
    headers := ⟨[("content-type", [Bytes.ofText "application/x-www-form-urlencoded"])]⟩
    body := Bytes.ofText "tea=1&tea=&milk=2&tea=1" }

theorem views_agree_basket :
    basket.bodyType = some .form ∧ MediaType.form.sameEssence .form = true ∧
    basket.formMap.map Json.object = Parser.form.parse basket.request.body ∧
    (basket.query "tea").values = ["1", "2"] ∧ basket.queryMap.lookup "tea" = some ["1", "2"] ∧
    basket.queryMap.lookup "salt" = none ∧
    ∃ f, basket.form = .ok f ∧
      Json.member? "tea" f.toMembers = some (.list [.text "1", .text "", .text "1"]) ∧
      Json.member? "milk" f.toMembers = some (.text "2") ∧ Json.member? "salt" f.toMembers = none := by
  have htype : basket.bodyType = some .form := by decide +kernel
  have hform : MediaType.form.sameEssence .form = true := by decide
  have hpairs : basket.request.queryPairs = [("tea", "1"), ("milk", ""), ("tea", "2")] := by
    decide +kernel
  have hfields : Urlencoded.pairs basket.request.body =
      [("tea", "1"), ("tea", ""), ("milk", "2"), ("tea", "1")] := by
    decide +kernel
  obtain ⟨hquery, -, hfield, -, hbody⟩ := views_agree basket ⟨Urlencoded.pairs basket.request.body, []⟩
  rw [hpairs] at hquery
  simp only [hfields] at hfield
  refine ⟨htype, hform, hbody _ htype hform, (hquery "tea").1, (hquery "tea").2, (hquery "salt").2,
    ⟨Urlencoded.pairs basket.request.body, []⟩, ?_, (hfield "tea").2, (hfield "milk").2, (hfield "salt").2⟩
  rw [form, htype, Form.read, if_pos hform]

end Context

end HttpApp
