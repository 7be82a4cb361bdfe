/-
  HttpApp/Proofs/Routing/Sealing.lean --- what a table of routes holds.

  A table keeps the routes of each method together.  `RouteTable.Holds` says which
  routes it holds, and does not depend on the order of the methods.  Main statement:
  registered routes are held by their table, each as often as it was registered.
-/
import HttpApp.Grouping
import HttpApp.Route
import Mathlib.Data.List.Induction
import Mathlib.Data.List.Nodup
import Mathlib.Data.List.Perm.Basic

set_option autoImplicit false

namespace HttpApp.RouteTable

/-! ## Groups of routes -/

theorem lookup_cons_of_ne {m n : Method} (h : m ≠ n) (rs : List Route)
    (gs : List (Method × List Route)) : ((n, rs) :: gs).lookup m = gs.lookup m := by
  rw [List.lookup_cons, beq_false_of_ne h]

/-- Where each method occurs once, it is looked up wherever it occurs. -/
theorem lookup_eq_some_iff_mem {gs : List (Method × List Route)} (h : (gs.map (·.1)).Nodup)
    {m : Method} {rs : List Route} : gs.lookup m = some rs ↔ (m, rs) ∈ gs := by
  induction gs with
  | nil => simp
  | cons g gs ih =>
    obtain ⟨n, rs'⟩ := g
    rw [List.map_cons, List.nodup_cons] at h
    by_cases hm : m = n
    · subst hm
      have hnot : (m, rs) ∉ gs := fun hmem => h.1 (List.mem_map.2 ⟨_, hmem, rfl⟩)
      rw [List.lookup_cons_self, List.mem_cons, or_iff_left hnot, Prod.mk.injEq, eq_comm]
      simp
    · rw [lookup_cons_of_ne hm, ih h.2, List.mem_cons]
      simp [hm]

/-- Routes are collected under their methods. -/
theorem push_eq (r : Route) (gs : List (Method × List Route)) :
    push r gs = Grouping.push r.method r gs := by
  induction gs with
  | nil => rfl
  | cons g gs ih =>
    rw [push, Grouping.push, ih]

theorem grouped_concat (routes : List Route) (r : Route) :
    grouped (routes ++ [r]) = Grouping.push r.method r (grouped routes) := by
  rw [grouped, List.foldl_concat, push_eq, grouped]

theorem nodup_grouped (routes : List Route) : ((grouped routes).map (·.1)).Nodup := by
  induction routes using List.reverseRecOn with
  | nil => simp [grouped]
  | append_singleton routes r ih =>
    rw [grouped_concat]
    exact Grouping.nodup_push _ _ ih

theorem getD_lookup_grouped (routes : List Route) (m : Method) :
    ((grouped routes).lookup m).getD [] = routes.filter fun r => r.method = m := by
  induction routes using List.reverseRecOn with
  | nil => simp [grouped]
  | append_singleton routes r ih =>
    rw [grouped_concat, Grouping.lookup_push, List.filter_append]
    by_cases hm : m = r.method
    · subst hm
      simp [ih]
    · simp [hm, Ne.symm hm, ih]

theorem flatMap_grouped_perm (routes : List Route) :
    ((grouped routes).flatMap (·.2)).Perm routes := by
  induction routes using List.reverseRecOn with
  | nil => simp [grouped]
  | append_singleton routes r ih =>
    rw [grouped_concat]
    exact (Grouping.flatMap_push_perm _ r _).trans (ih.append_right [r])

/-! ## Tables -/

/-- The routes that a table holds: those of each method in the order in which they are tried, and
each route once for each time that it was registered. -/
structure Holds (t : RouteTable) (routes : List Route) : Prop where
  nodup : (t.groups.map (·.1)).Nodup
  ofMethod_eq : ∀ m, t.ofMethod m = arranged (routes.filter fun r => r.method = m)
  perm : (t.groups.flatMap (·.2)).Perm routes

theorem holds_ofRoutes (routes : List Route) : (ofRoutes routes).Holds routes := by
  have hmethods : (ofRoutes routes).groups.map (·.1) = (grouped routes).map (·.1) := by
    simp [ofRoutes]
  refine ⟨hmethods ▸ nodup_grouped routes, ?_, ?_⟩
  · intro m
    have hlookup : ∀ gs : List (Method × List Route),
        (gs.map fun g => (g.1, arranged g.2)).lookup m = (gs.lookup m).map arranged := by
      intro gs
      induction gs with
      | nil => rfl
      | cons g gs ih =>
        obtain ⟨n, rs⟩ := g
        by_cases hm : m = n
        · simp [hm]
        · rw [List.map_cons, lookup_cons_of_ne hm, lookup_cons_of_ne hm, ih]
    rw [← getD_lookup_grouped, ofMethod, ofRoutes, hlookup]
    cases (grouped routes).lookup m with
    | none => simp [arranged]
    | some rs => rfl
  · have hperm : ((ofRoutes routes).groups.flatMap (·.2)).Perm ((grouped routes).flatMap (·.2)) := by
      rw [ofRoutes, List.flatMap_map]
      exact List.Perm.flatMap_left _ fun g _ => List.mergeSort_perm _ _
    exact hperm.trans (flatMap_grouped_perm routes)

/-- Which routes a table holds does not depend on the order of the methods. -/
theorem Holds.of_perm {t t' : RouteTable} {routes : List Route} (h : t'.Holds routes)
    (hperm : t.groups.Perm t'.groups) : t.Holds routes := by
  have hnodup : (t.groups.map (·.1)).Nodup := (hperm.map _).nodup_iff.2 h.nodup
  refine ⟨hnodup, ?_, (hperm.flatMap_right _).trans h.perm⟩
  intro m
  have hlookup : t.groups.lookup m = t'.groups.lookup m := by
    apply Option.ext
    intro rs
    rw [lookup_eq_some_iff_mem hnodup, lookup_eq_some_iff_mem h.nodup, hperm.mem_iff]
  rw [← h.ofMethod_eq, ofMethod, ofMethod, hlookup]

namespace Holds

variable {t : RouteTable} {routes : List Route}

theorem mem_ofMethod (h : t.Holds routes) {m : Method} {r : Route} :
    r ∈ t.ofMethod m ↔ r ∈ routes ∧ r.method = m := by
  rw [h.ofMethod_eq, arranged, List.mem_mergeSort, List.mem_filter, decide_eq_true_iff]

theorem snd_eq_ofMethod (h : t.Holds routes) {g : Method × List Route} (hg : g ∈ t.groups) :
    g.2 = t.ofMethod g.1 := by
  rw [ofMethod, (lookup_eq_some_iff_mem h.nodup).2 hg, Option.getD_some]

/-- A method that has routes has a place in the table. -/
theorem mem_groups (h : t.Holds routes) {r : Route} (hr : r ∈ routes) :
    (r.method, t.ofMethod r.method) ∈ t.groups := by
  have hmem : r ∈ t.ofMethod r.method := h.mem_ofMethod.2 ⟨hr, rfl⟩
  rw [← lookup_eq_some_iff_mem h.nodup]
  rw [ofMethod] at hmem ⊢
  cases hlookup : t.groups.lookup r.method with
  | none => simp [hlookup] at hmem
  | some rs => rfl

end Holds

end HttpApp.RouteTable
