/-
  HttpApp/Proofs/Routing/Lookup.lean --- which route a path finds.

  A route is tried before another if it leaves less open, or as much and was
  registered first.  The route that a path finds is the first in this order of those
  of the method that match; the places in the registration are carried along the sort
  to show that.  Main statement: `RouteTable.lookup_exact`.
-/
import HttpApp.Proofs.Routing.Sealing

set_option autoImplicit false

namespace HttpApp

/-! ## The order in which routes are tried -/

/-- Whether a route, with its place in the registration, is tried no later than another one. -/
def Route.Precedes (x y : Route × Nat) : Prop :=
  x.1.pattern.specificity.rank < y.1.pattern.specificity.rank ∨
    x.1.pattern.specificity.rank = y.1.pattern.specificity.rank ∧ x.2 ≤ y.2

/-- The route of a method that matches a path and is tried first of those, and its place in the
registration. -/
structure Route.Best (routes : List Route) (m : Method) (path : String) (i : Nat) (r : Route) :
    Prop where
  registered : routes[i]? = some r
  method : r.method = m
  accepts : r.accepts path = true
  least : ∀ j r', routes[j]? = some r' → r'.method = m → r'.accepts path = true →
    Precedes (r, i) (r', j)

namespace RouteTable

open Route (Precedes Best)

/-- The routes of a method with their places in the registration. -/
def placed (routes : List Route) (m : Method) : List (Route × Nat) :=
  routes.zipIdx.filter fun x => x.1.method = m

/-- The same in the order in which they are tried. -/
def placedArranged (routes : List Route) (m : Method) : List (Route × Nat) :=
  (placed routes m).mergeSort fun x y => closedFirst x.1 y.1

theorem mem_placedArranged {routes : List Route} {m : Method} {x : Route × Nat} :
    x ∈ placedArranged routes m ↔ routes[x.2]? = some x.1 ∧ x.1.method = m := by
  rw [placedArranged, List.mem_mergeSort, placed, List.mem_filter, List.mem_zipIdx_iff_getElem?,
    decide_eq_true_iff]

theorem map_fst_placedArranged (routes : List Route) (m : Method) :
    (placedArranged routes m).map (·.1) = arranged (routes.filter fun r => r.method = m) := by
  have hplaced : (placed routes m).map (·.1) = routes.filter fun r => r.method = m := by
    conv_rhs => rw [← List.zipIdx_map_fst 0 routes, List.filter_map]
    rfl
  rw [placedArranged, List.map_mergeSort (s := closedFirst) fun _ _ _ _ => rfl, hplaced, arranged]

theorem pairwise_placed (routes : List Route) (m : Method) :
    (placed routes m).Pairwise fun x y => x.2 < y.2 := by
  apply List.Pairwise.filter
  rw [List.pairwise_iff_getElem]
  intro i j hi hj hij
  simpa using hij

/-- The order by openness and then by another number is the one that a stable sort keeps. -/
theorem lex_of_zipIdxLE {x y : (Route × Nat) × Nat}
    (h : List.zipIdxLE (fun x y => closedFirst x.1 y.1) x y) :
    x.1.1.pattern.specificity.rank < y.1.1.pattern.specificity.rank ∨
      x.1.1.pattern.specificity.rank = y.1.1.pattern.specificity.rank ∧ x.2 ≤ y.2 := by
  simp only [List.zipIdxLE, closedFirst, decide_eq_true_eq] at h
  split at h
  · split at h
    · exact .inr ⟨by omega, by simpa using h⟩
    · exact .inl (by omega)
  · simp at h

/-- Sorting keeps routes that leave equally much open in the order of their places. -/
theorem pairwise_placedArranged (routes : List Route) (m : Method) :
    (placedArranged routes m).Pairwise Precedes := by
  -- The sort also sorts by the places in the unsorted list, as it is stable.
  rw [placedArranged, ← List.mergeSort_zipIdx, List.pairwise_map]
  have htrans : ∀ x y z : Route × Nat, closedFirst x.1 y.1 → closedFirst y.1 z.1 →
      closedFirst x.1 z.1 := by
    intro x y z hxy hyz
    simp only [closedFirst, decide_eq_true_eq] at *
    exact Nat.le_trans hxy hyz
  have htotal : ∀ x y : Route × Nat, closedFirst x.1 y.1 || closedFirst y.1 x.1 := by
    intro x y
    simp only [closedFirst, Bool.or_eq_true, decide_eq_true_eq]
    exact Nat.le_total _ _
  refine (List.pairwise_mergeSort (List.zipIdxLE_trans htrans) (List.zipIdxLE_total htotal)
    _).imp_of_mem ?_
  rintro ⟨x, k⟩ ⟨y, l⟩ hx hy hle
  rw [List.mem_mergeSort, List.mk_mem_zipIdx_iff_getElem?, List.getElem?_eq_some_iff] at hx hy
  obtain ⟨hk, rfl⟩ := hx
  obtain ⟨hl, rfl⟩ := hy
  refine (lex_of_zipIdxLE hle).imp id fun ⟨hrank, hkl⟩ => ⟨hrank, ?_⟩
  rcases Nat.eq_or_lt_of_le hkl with rfl | hlt
  · exact Nat.le_refl _
  · exact Nat.le_of_lt (List.pairwise_iff_getElem.1 (pairwise_placed routes m) k l hk hl hlt)

/-! ## First matches -/

theorem firstMatch?_eq_findSome? (path : String) (rs : List Route) :
    firstMatch? path rs = rs.findSome? fun r => (r.pattern.match? path).map (r, ·) := by
  induction rs with
  | nil => rfl
  | cons r rs ih =>
    rw [firstMatch?, List.findSome?_cons]
    cases r.pattern.match? path with
    | some captures => rfl
    | none => exact ih

theorem accepts_eq_false_iff {r : Route} {path : String} :
    r.accepts path = false ↔ r.pattern.match? path = none := by
  rw [Route.accepts, Pattern.accepts, Option.isSome_eq_false_iff, Option.isNone_iff_eq_none]

theorem firstMatch?_eq_none_iff {path : String} {rs : List Route} :
    firstMatch? path rs = none ↔ ∀ r ∈ rs, r.accepts path = false := by
  simp [firstMatch?_eq_findSome?, accepts_eq_false_iff]

/-- The first match is that of a route behind others that do not match. -/
theorem firstMatch?_eq_some_iff {path : String} {rs : List Route} {r : Route}
    {captures : Pattern.Captures} : firstMatch? path rs = some (r, captures) ↔
      r.pattern.match? path = some captures ∧
        ∃ before after, rs = before ++ r :: after ∧ ∀ r' ∈ before, r'.accepts path = false := by
  rw [firstMatch?_eq_findSome?, List.findSome?_eq_some_iff]
  constructor
  · rintro ⟨before, r', after, rfl, hmatch, hbefore⟩
    obtain ⟨captures', hmatch', heq⟩ := Option.map_eq_some_iff.1 hmatch
    obtain ⟨rfl, rfl⟩ := Prod.mk.inj heq
    exact ⟨hmatch', before, after, rfl,
      fun r' hr' => by simpa [accepts_eq_false_iff] using hbefore r' hr'⟩
  · rintro ⟨hmatch, before, after, rfl, hbefore⟩
    exact ⟨before, r, after, rfl, by simp [hmatch],
      fun r' hr' => by simpa [accepts_eq_false_iff] using hbefore r' hr'⟩

/-- Two best routes for a path are the same one. -/
theorem best_unique {routes : List Route} {m : Method} {path : String} {i j : Nat} {r r' : Route}
    (h : Best routes m path i r) (h' : Best routes m path j r') : r = r' := by
  have hle := h.least j r' h'.registered h'.method h'.accepts
  have hle' := h'.least i r h.registered h.method h.accepts
  have heq : i = j := by
    simp only [Precedes] at hle hle'
    omega
  have hregistered := h.registered
  rw [heq, h'.registered] at hregistered
  exact (Option.some.inj hregistered).symm

/-- The first match among the routes of a method is that of a best one. -/
theorem exists_best_of_firstMatch? {routes : List Route} {m : Method} {path : String} {r : Route}
    {captures : Pattern.Captures} (hfirst : firstMatch? path
      (arranged (routes.filter fun r => r.method = m)) = some (r, captures)) :
    ∃ i, Best routes m path i r := by
  rw [← map_fst_placedArranged, firstMatch?_eq_some_iff] at hfirst
  obtain ⟨hmatch, before, after, hsplit, hbefore⟩ := hfirst
  obtain ⟨before', rest, hplaced, rfl, hrest⟩ := List.map_eq_append_iff.1 hsplit
  obtain ⟨⟨r, i⟩, after', rfl, rfl, rfl⟩ := List.map_eq_cons_iff.1 hrest
  have hmem : (r, i) ∈ placedArranged routes m := by simp [hplaced]
  obtain ⟨hregistered, hmethod⟩ := mem_placedArranged.1 hmem
  have haccepts : r.accepts path = true := by simp [Route.accepts, Pattern.accepts, hmatch]
  refine ⟨i, hregistered, hmethod, haccepts, ?_⟩
  intro j r' hregistered' hmethod' haccepts'
  have hmem' : (r', j) ∈ placedArranged routes m :=
    mem_placedArranged.2 ⟨hregistered', hmethod'⟩
  rw [hplaced, List.mem_append, List.mem_cons] at hmem'
  rcases hmem' with hbefore' | heq | hafter
  · have hrejects := hbefore r' (List.mem_map_of_mem hbefore')
    rw [hrejects] at haccepts'
    simp at haccepts'
  · rw [heq]
    exact .inr ⟨rfl, Nat.le_refl _⟩
  · have hpairwise := pairwise_placedArranged routes m
    rw [hplaced] at hpairwise
    exact (List.pairwise_cons.1 (List.pairwise_append.1 hpairwise).2.1).1 _ hafter

namespace Holds

variable {t : RouteTable} {routes : List Route}

theorem firstMatch?_eq_none_iff (h : t.Holds routes) {m : Method} {path : String} :
    firstMatch? path (t.ofMethod m) = none ↔ ¬∃ r ∈ routes, r.method = m ∧ r.accepts path = true := by
  rw [RouteTable.firstMatch?_eq_none_iff]
  constructor
  · rintro hnone ⟨r, hr, hmethod, haccepts⟩
    have hrejects := hnone r (h.mem_ofMethod.2 ⟨hr, hmethod⟩)
    rw [haccepts] at hrejects
    simp at hrejects
  · intro hnone r hr
    obtain ⟨hr, hmethod⟩ := h.mem_ofMethod.1 hr
    exact Bool.eq_false_iff.2 fun haccepts => hnone ⟨r, hr, hmethod, haccepts⟩

theorem firstMatch?_eq_some_iff (h : t.Holds routes) {m : Method} {path : String} {r : Route}
    {captures : Pattern.Captures} : firstMatch? path (t.ofMethod m) = some (r, captures) ↔
      (∃ i, Best routes m path i r) ∧ r.pattern.match? path = some captures := by
  constructor
  · intro hfirst
    rw [h.ofMethod_eq] at hfirst
    exact ⟨exists_best_of_firstMatch? hfirst, (RouteTable.firstMatch?_eq_some_iff.1 hfirst).1⟩
  · rintro ⟨⟨i, hr⟩, hmatch⟩
    cases hfirst : firstMatch? path (t.ofMethod m) with
    | none =>
      exact absurd ⟨r, List.mem_of_getElem? hr.registered, hr.method, hr.accepts⟩
        (h.firstMatch?_eq_none_iff.1 hfirst)
    | some found =>
      rw [h.ofMethod_eq] at hfirst
      obtain ⟨j, hr'⟩ := exists_best_of_firstMatch? hfirst
      obtain rfl := best_unique hr hr'
      rw [(RouteTable.firstMatch?_eq_some_iff.1 hfirst).1] at hmatch
      rw [← Option.some.inj hmatch]

/-! ## Methods that are allowed -/

theorem mem_allowedMethods (h : t.Holds routes) {path : String} {m : Method} :
    m ∈ t.allowedMethods path ↔ ∃ r ∈ routes, r.method = m ∧ r.accepts path = true := by
  simp only [allowedMethods, List.mem_mergeSort, List.mem_map, List.mem_filter, List.any_eq_true]
  constructor
  · rintro ⟨g, ⟨hg, r, hr, haccepts⟩, rfl⟩
    rw [h.snd_eq_ofMethod hg, h.mem_ofMethod] at hr
    exact ⟨r, hr.1, hr.2, haccepts⟩
  · rintro ⟨r, hr, rfl, haccepts⟩
    exact ⟨_, ⟨h.mem_groups hr, r, h.mem_ofMethod.2 ⟨hr, rfl⟩, haccepts⟩, rfl⟩

/-- The methods that are allowed are in canonical order, each once. -/
theorem pairwise_allowedMethods (h : t.Holds routes) (path : String) :
    (t.allowedMethods path).Pairwise fun m n => m.rank < n.rank := by
  have hnodup : (t.allowedMethods path).Nodup :=
    (List.mergeSort_perm _ _).nodup_iff.2 (h.nodup.sublist (List.filter_sublist.map _))
  have hsorted : (t.allowedMethods path).Pairwise fun m n => decide (m.rank ≤ n.rank) = true := by
    refine List.pairwise_mergeSort (fun l m n hlm hmn => ?_) (fun m n => ?_) _
    · simp only [decide_eq_true_eq] at *
      exact Nat.le_trans hlm hmn
    · simpa using Nat.le_total m.rank n.rank
  refine (hsorted.and hnodup).imp fun ⟨hle, hne⟩ => ?_
  exact Nat.lt_of_le_of_ne (of_decide_eq_true hle) fun heq => hne (Method.rank_injective heq)

end Holds

/-! ## Looking up -/

variable {t : RouteTable} {m : Method} {path : String}

theorem lookup_eq_matched_iff {r : Route} {captures : Pattern.Captures} :
    t.lookup m path = .matched r captures ↔
      firstMatch? path (t.ofMethod m) = some (r, captures) := by
  unfold lookup
  split
  · next heq => simp [heq]
  · next heq => split <;> simp [heq]

theorem mem_of_lookup {r : Route} {captures : Pattern.Captures}
    (h : t.lookup m path = .matched r captures) : r ∈ t.ofMethod m := by
  obtain ⟨-, before, after, heq, -⟩ := firstMatch?_eq_some_iff.1 (lookup_eq_matched_iff.1 h)
  simp [heq]

theorem lookup_eq_methodNotAllowed_iff {ms : List Method} :
    t.lookup m path = .methodNotAllowed ms ↔ firstMatch? path (t.ofMethod m) = none ∧
      (t.allowedMethods path).filter (· ≠ m) = ms ∧ ms ≠ [] := by
  unfold lookup
  split
  · next heq => simp [heq]
  · next heq =>
    cases (t.allowedMethods path).filter (· ≠ m) with
    | nil =>
      simp only [heq, true_and, reduceCtorEq, false_iff]
      exact fun ⟨hnil, hne⟩ => hne hnil.symm
    | cons n ns =>
      simp only [heq, Lookup.methodNotAllowed.injEq, true_and, iff_self_and]
      rintro rfl
      exact List.cons_ne_nil n ns

theorem lookup_eq_notFound_iff : t.lookup m path = .notFound ↔
    firstMatch? path (t.ofMethod m) = none ∧ (t.allowedMethods path).filter (· ≠ m) = [] := by
  unfold lookup
  split
  · next heq => simp [heq]
  · next heq => cases (t.allowedMethods path).filter (· ≠ m) <;> simp [heq]

namespace Holds

variable {routes : List Route}

theorem lookup_eq_matched_iff (h : t.Holds routes) {r : Route} {captures : Pattern.Captures} :
    t.lookup m path = .matched r captures ↔
      (∃ i, Best routes m path i r) ∧ r.pattern.match? path = some captures := by
  rw [RouteTable.lookup_eq_matched_iff, h.firstMatch?_eq_some_iff]

/-- Where no route of a method matches, the method is not among those that are allowed. -/
theorem filter_allowedMethods (h : t.Holds routes)
    (hnone : ¬∃ r ∈ routes, r.method = m ∧ r.accepts path = true) :
    (t.allowedMethods path).filter (· ≠ m) = t.allowedMethods path := by
  rw [List.filter_eq_self]
  intro n hn
  apply decide_eq_true
  rintro rfl
  exact hnone (h.mem_allowedMethods.1 hn)

theorem lookup_eq_methodNotAllowed_iff (h : t.Holds routes) {ms : List Method} :
    t.lookup m path = .methodNotAllowed ms ↔
      (¬∃ r ∈ routes, r.method = m ∧ r.accepts path = true) ∧
        (∃ r ∈ routes, r.method ≠ m ∧ r.accepts path = true) ∧ ms = t.allowedMethods path := by
  rw [RouteTable.lookup_eq_methodNotAllowed_iff, h.firstMatch?_eq_none_iff]
  refine and_congr_right fun hnone => ?_
  rw [h.filter_allowedMethods hnone]
  constructor
  · rintro ⟨rfl, hne⟩
    obtain ⟨n, hn⟩ := List.exists_mem_of_ne_nil _ hne
    obtain ⟨r, hr, rfl, haccepts⟩ := h.mem_allowedMethods.1 hn
    exact ⟨⟨r, hr, fun hmethod => hnone ⟨r, hr, hmethod, haccepts⟩, haccepts⟩, rfl⟩
  · rintro ⟨⟨r, hr, -, haccepts⟩, rfl⟩
    exact ⟨rfl, List.ne_nil_of_mem (h.mem_allowedMethods.2 ⟨r, hr, rfl, haccepts⟩)⟩

theorem lookup_eq_notFound_iff (h : t.Holds routes) :
    t.lookup m path = .notFound ↔ ¬∃ r ∈ routes, r.accepts path = true := by
  rw [RouteTable.lookup_eq_notFound_iff, h.firstMatch?_eq_none_iff]
  constructor
  · rintro ⟨hnone, hnil⟩ ⟨r, hr, haccepts⟩
    rw [h.filter_allowedMethods hnone] at hnil
    exact List.ne_nil_of_mem (h.mem_allowedMethods.2 ⟨r, hr, rfl, haccepts⟩) hnil
  · intro hnone
    have hmethod : ¬∃ r ∈ routes, r.method = m ∧ r.accepts path = true :=
      fun ⟨r, hr, _, haccepts⟩ => hnone ⟨r, hr, haccepts⟩
    rw [h.filter_allowedMethods hmethod, List.eq_nil_iff_forall_not_mem]
    refine ⟨hmethod, fun n hn => ?_⟩
    obtain ⟨r, hr, -, haccepts⟩ := h.mem_allowedMethods.1 hn
    exact hnone ⟨r, hr, haccepts⟩

end Holds

/-- Looking up is exact.  Whatever the order in which a table holds the methods, a path finds a
route of its method if one that is registered matches, namely the one that leaves the least open
and was registered first of these, with the values that this route binds.  Otherwise it finds
the methods of the routes that match, which are others, each once and in canonical order; and
where there are none, nothing.  The table holds each route as often as it was registered, among
those of its method. -/
theorem lookup_exact (routes : List Route) (t : RouteTable)
    (ht : t.groups.Perm (ofRoutes routes).groups) :
    (∀ m path r captures, t.lookup m path = .matched r captures ↔
      (∃ i, Best routes m path i r) ∧ r.pattern.match? path = some captures) ∧
    (∀ m path, (∃ r captures, t.lookup m path = .matched r captures) ↔
      ∃ r ∈ routes, r.method = m ∧ r.accepts path = true) ∧
    (∀ m path ms, t.lookup m path = .methodNotAllowed ms ↔
      (¬∃ r ∈ routes, r.method = m ∧ r.accepts path = true) ∧
        (∃ r ∈ routes, r.method ≠ m ∧ r.accepts path = true) ∧ ms = t.allowedMethods path) ∧
    (∀ m path, t.lookup m path = .notFound ↔ ¬∃ r ∈ routes, r.accepts path = true) ∧
    (∀ m path ms, t.lookup m path = .methodNotAllowed ms → ms ≠ [] ∧ m ∉ ms) ∧
    (∀ path, (t.allowedMethods path).Pairwise (fun m n => m.rank < n.rank) ∧
      ∀ m, m ∈ t.allowedMethods path ↔ ∃ r ∈ routes, r.method = m ∧ r.accepts path = true) ∧
    (t.groups.flatMap (·.2)).Perm routes ∧ (t.groups.map (·.1)).Nodup ∧
      ∀ g ∈ t.groups, ∀ r ∈ g.2, r.method = g.1 := by
  have h : t.Holds routes := (holds_ofRoutes routes).of_perm ht
  refine ⟨?_, ?_, ?_, ?_, ?_, ?_, h.perm, h.nodup, ?_⟩
  · intro m path r captures
    rw [lookup_eq_matched_iff, h.firstMatch?_eq_some_iff]
  · intro m path
    rw [← not_iff_not, ← h.firstMatch?_eq_none_iff, Option.eq_none_iff_forall_ne_some]
    simp [lookup_eq_matched_iff]
  · intro m path ms
    exact h.lookup_eq_methodNotAllowed_iff
  · intro m path
    exact h.lookup_eq_notFound_iff
  · intro m path ms hlookup
    have hne : ms ≠ [] := (RouteTable.lookup_eq_methodNotAllowed_iff.1 hlookup).2.2
    obtain ⟨hnone, -, rfl⟩ := h.lookup_eq_methodNotAllowed_iff.1 hlookup
    exact ⟨hne, fun hm => hnone (h.mem_allowedMethods.1 hm)⟩
  · intro path
    exact ⟨h.pairwise_allowedMethods path, fun m => h.mem_allowedMethods⟩
  · intro g hg r hr
    rw [h.snd_eq_ofMethod hg, h.mem_ofMethod] at hr
    exact hr.2

/-- A route of a method for the path of nothing but a slash. -/
def rootRoute (m : Method) : Route where
  method := m
  pattern := ⟨"/", [], {}⟩
  handler := .ret (.ok .done)

/-- A table that holds its methods in another order than that of their first routes. -/
theorem lookup_exact_swapped :
    let t : RouteTable := ⟨[(.post, [rootRoute .post]), (.get, [rootRoute .get])]⟩
    t.groups.Perm (ofRoutes [rootRoute .get, rootRoute .post]).groups ∧
      (∃ r captures, t.lookup .get "/" = .matched r captures) ∧
      t.lookup .put "/" = .methodNotAllowed (t.allowedMethods "/") := by
  intro t
  have hperm : t.groups.Perm (ofRoutes [rootRoute .get, rootRoute .post]).groups := by
    have hgroups : (ofRoutes [rootRoute .get, rootRoute .post]).groups =
        [(.get, [rootRoute .get]), (.post, [rootRoute .post])] := by
      simp [ofRoutes, grouped, push, rootRoute, arranged]
    rw [hgroups]
    exact .swap _ _ _
  have haccepts : ∀ m, (rootRoute m).accepts "/" = true := fun m => by rfl
  obtain ⟨-, hmatched, hnotAllowed, -⟩ := lookup_exact _ t hperm
  refine ⟨hperm, (hmatched _ _).2 ⟨_, List.mem_cons_self, rfl, haccepts _⟩,
    (hnotAllowed _ _ _).2 ⟨?_, ⟨_, List.mem_cons_self, by simp [rootRoute], haccepts _⟩, rfl⟩⟩
  rintro ⟨r, hr, hmethod, -⟩
  simp only [List.mem_cons, List.not_mem_nil, or_false] at hr
  rcases hr with rfl | rfl <;> simp [rootRoute] at hmethod

end RouteTable

end HttpApp
