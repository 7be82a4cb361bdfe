/-
  HttpApp/Proofs/Routing/Shadowing.lean --- routes that no path finds.

  Whether a pattern matches a path does not depend on its names.  So of two routes of a
  method whose patterns differ in nothing else, the one that was registered first is
  tried first and matches wherever the other one would: no path finds the other one,
  and without it every path finds what it found before.  Main statement:
  `Router.shadowed_dead`.
-/
import HttpApp.Proofs.Pattern.Grammar
import HttpApp.Proofs.Pattern.Matching
import HttpApp.Proofs.Routing.Assembly
import HttpApp.Proofs.Routing.Lookup
import Mathlib.Data.List.InsertIdx
import Mathlib.Data.List.Sort

set_option autoImplicit false

namespace HttpApp

/-! ## Patterns of the same shape -/

/-- Patterns that differ in nothing but their names, as far as paths are concerned: without a
wildcard, and where slashes at the end count, both have one or both have none. -/
structure Pattern.SameShape (p q : Pattern) : Prop where
  segments : List.Forall₂ Segment.SameShape p.segments q.segments
  ends : p.options.ignoreTrailingSlash = false → IsClosed p.segments →
    endsInSlash p.raw.toList = endsInSlash q.raw.toList

namespace Segment.SameShape

variable {s s' : Segment} (h : s.SameShape s')
include h

theorem isWildcard_eq : s.isWildcard = s'.isWildcard := by
  cases h <;> rfl

theorem isSome_name?_eq : s.name?.isSome = s'.name?.isSome := by
  cases h <;> rfl

end Segment.SameShape

namespace Pattern

/-- What holds of the segments of a shape holds of some of them in both lists, or in none. -/
theorem any_eq_of_sameShape {f : Segment → Bool}
    (hf : ∀ {s s' : Segment}, s.SameShape s' → f s = f s') {segments segments' : List Segment}
    (h : List.Forall₂ Segment.SameShape segments segments') :
    segments.any f = segments'.any f := by
  induction h with
  | nil => rfl
  | cons hs _ ih => rw [List.any_cons, List.any_cons, hf hs, ih]

namespace SameShape

variable {p q : Pattern} (h : p.SameShape q)
include h

theorem specificity_eq : p.specificity = q.specificity := by
  rw [specificity, specificity,
    any_eq_of_sameShape Segment.SameShape.isWildcard_eq h.segments,
    any_eq_of_sameShape Segment.SameShape.isSome_name?_eq h.segments]

theorem accepts_eq (hoptions : p.options = q.options) (path : String) :
    p.accepts path = q.accepts path := by
  rw [accepts, accepts, match?_eq, match?_eq, ← hoptions]
  refine isSome_matchSegments_of_sameShape _ _ h.segments ?_ _
  intro hclosed
  cases hslash : p.options.ignoreTrailingSlash with
  | true => rfl
  | false => rw [h.ends hslash hclosed]

end SameShape

end Pattern

/-! ## Lists of routes -/

/-- Routes of a method that leave equally much open and match the same paths. -/
structure Route.Twins (x y : Route) : Prop where
  method_eq : x.method = y.method
  specificity_eq : x.pattern.specificity = y.pattern.specificity
  accepts_eq : ∀ path, x.accepts path = y.accepts path

namespace RouteTable

open Route (Precedes Best)

section

variable {front behind : List Route} {x y : Route} (hx : x ∈ front)
include hx

/-- A route that is like one before it is the best one for no path. -/
theorem not_best_of_twins (htwins : x.Twins y) (m : Method) (path : String) (r : Route) :
    ¬Best (front ++ y :: behind) m path front.length r := by
  intro h
  obtain ⟨i, hi⟩ := List.getElem?_of_mem hx
  have hlt : i < front.length := (List.getElem?_eq_some_iff.mp hi).1
  have hregistered : (front ++ y :: behind)[i]? = some x := by
    rw [List.getElem?_append_left hlt, hi]
  obtain rfl : y = r := by simpa using h.registered
  have hprecedes : Precedes (y, front.length) (x, i) :=
    h.least i x hregistered (htwins.method_eq.trans h.method)
      ((htwins.accepts_eq path).trans h.accepts)
  simp only [Precedes, htwins.specificity_eq] at hprecedes
  omega

/-- Without a route some route does what some route did, if one before it does what it did. -/
theorem exists_mem_append_iff {P : Route → Prop} (hP : P y → P x) :
    (∃ r ∈ front ++ behind, P r) ↔ ∃ r ∈ front ++ y :: behind, P r := by
  constructor
  · rintro ⟨r, hr, hPr⟩
    exact ⟨r, (List.sublist_cons_self y behind).append_left front |>.subset hr, hPr⟩
  · rintro ⟨r, hr, hPr⟩
    rcases List.mem_append.mp hr with hr | hr
    · exact ⟨r, List.mem_append_left _ hr, hPr⟩
    · rcases List.mem_cons.mp hr with rfl | hr
      · exact ⟨x, List.mem_append_left _ hx, hP hPr⟩
      · exact ⟨r, List.mem_append_right _ hr, hPr⟩

end

/-- The best route stays the best one when another one is taken away. -/
theorem exists_best_eraseIdx {routes : List Route} {m : Method} {path : String} {j k : Nat}
    {r : Route} (h : Best routes m path k r) (hkj : k ≠ j) :
    ∃ k', Best (routes.eraseIdx j) m path k' r := by
  refine ⟨if k < j then k else k - 1, ?_, h.method, h.accepts, ?_⟩
  · rw [List.getElem?_eraseIdx, ← h.registered]
    grind
  · intro l r' hl hmethod haccepts
    rw [List.getElem?_eraseIdx, ← apply_ite (routes[·]?)] at hl
    have hprecedes := h.least _ r' hl hmethod haccepts
    simp only [Precedes] at hprecedes ⊢
    grind

namespace Holds

variable {t t' : RouteTable} {routes routes' : List Route}

/-- Tables whose routes match a path for the same methods allow the same methods for it. -/
theorem allowedMethods_eq (h : t.Holds routes) (h' : t'.Holds routes') {path : String}
    (hsame : ∀ m, (∃ r ∈ routes, r.method = m ∧ r.accepts path = true) ↔
      ∃ r ∈ routes', r.method = m ∧ r.accepts path = true) :
    t.allowedMethods path = t'.allowedMethods path := by
  have hirrefl : Std.Irrefl fun m n : Method => m.rank < n.rank := ⟨fun m => Nat.lt_irrefl m.rank⟩
  have hantisymm : Std.Antisymm fun m n : Method => m.rank < n.rank :=
    ⟨fun m n hmn hnm => absurd hmn (Nat.lt_asymm hnm)⟩
  refine (h.pairwise_allowedMethods path).eq_of_mem_iff (h'.pairwise_allowedMethods path) ?_
  intro m
  rw [h.mem_allowedMethods, h'.mem_allowedMethods, hsame]

/-- Without a route that is like one before it every path finds what it found before. -/
theorem lookup_eq_of_twins {front behind : List Route} {x y : Route} (hx : x ∈ front)
    (htwins : x.Twins y) (h : t.Holds (front ++ y :: behind)) (h' : t'.Holds (front ++ behind))
    (m : Method) (path : String) : t'.lookup m path = t.lookup m path := by
  have hsame (P : Method → Prop) :
      (∃ r ∈ front ++ behind, P r.method ∧ r.accepts path = true) ↔
        ∃ r ∈ front ++ y :: behind, P r.method ∧ r.accepts path = true := by
    refine exists_mem_append_iff hx ?_
    rw [htwins.method_eq, htwins.accepts_eq]
    exact id
  have hallowed : t'.allowedMethods path = t.allowedMethods path :=
    h'.allowedMethods_eq h fun n => hsame (· = n)
  cases hlookup : t.lookup m path with
  | matched r captures =>
    rw [h.lookup_eq_matched_iff] at hlookup
    obtain ⟨⟨k, hbest⟩, hmatch⟩ := hlookup
    have hk : k ≠ front.length := by
      rintro rfl
      exact not_best_of_twins hx htwins m path r hbest
    have herase : (front ++ y :: behind).eraseIdx front.length = front ++ behind := by
      rw [List.eraseIdx_append_of_length_le (Nat.le_refl _), Nat.sub_self, List.eraseIdx_zero,
        List.tail_cons]
    rw [h'.lookup_eq_matched_iff, ← herase]
    exact ⟨exists_best_eraseIdx hbest hk, hmatch⟩
  | methodNotAllowed ms =>
    rw [h.lookup_eq_methodNotAllowed_iff] at hlookup
    rw [h'.lookup_eq_methodNotAllowed_iff, hallowed, hsame (· = m), hsame (· ≠ m)]
    exact hlookup
  | notFound =>
    rw [h.lookup_eq_notFound_iff] at hlookup
    have hsome := hsame fun _ => True
    simp only [true_and] at hsome
    rw [h'.lookup_eq_notFound_iff, hsome]
    exact hlookup

end Holds

end RouteTable

/-! ## Calls without a route -/

namespace Registration

variable {options : MatchOptions}

theorem ownSettings_withoutOwn (calls : List Registration) :
    ownSettings (withoutOwn calls) = [] := by
  induction calls with
  | nil => rfl
  | cons c calls ih =>
    cases c with
    | route method text handler => rfl
    | own x => exact ih
    | all x => exact ih

theorem plans_withoutOwn (calls : List Registration) :
    plans options (withoutOwn calls) = plans options calls := by
  induction calls with
  | nil => rfl
  | cons c calls ih =>
    cases c with
    | route method text handler => rfl
    | own x => exact ih
    | all x => exact ih

theorem forAll_withoutOwn (calls : List Registration) :
    forAll (withoutOwn calls) = forAll calls := by
  induction calls with
  | nil => rfl
  | cons c calls ih =>
    cases c with
    | route method text handler => rfl
    | own x => exact ih
    | all x => exact congrArg (x :: ·) ih

theorem forAll_append (calls behind : List Registration) :
    forAll (calls ++ behind) = forAll calls ++ forAll behind :=
  List.filterMap_append

theorem ownSettings_append (calls : List Registration) {behind : List Registration}
    (h : ownSettings behind = []) : ownSettings (calls ++ behind) = ownSettings calls := by
  induction calls with
  | nil => exact h
  | cons c calls ih =>
    cases c with
    | route method text handler => rfl
    | own x => exact congrArg (x :: ·) ih
    | all x => exact ih

/-- Calls that do not set a route before they ask for one plan their routes behind those of the
calls before them, and change nothing in these. -/
theorem plans_append (calls : List Registration) {behind : List Registration}
    (h : ownSettings behind = []) :
    plans options (calls ++ behind) = plans options calls ++ plans options behind := by
  induction calls with
  | nil => rfl
  | cons c calls ih =>
    cases c with
    | route method text handler =>
      rw [List.cons_append, plans, plans, ownSettings_append calls h, ih]
      cases Pattern.read text options <;> rfl
    | own x => exact ih
    | all x => exact ih

section

variable (calls behind : List Registration)

theorem plans_append_route {method : Method} {text : String} {handler : Handler} {p : Pattern}
    (hread : Pattern.read text options = .ok p) :
    plans options (calls ++ .route method text handler :: behind) =
      plans options calls ++ ⟨method, p, handler, ownSettings behind⟩ :: plans options behind := by
  rw [plans_append calls rfl, plans, hread]

theorem plans_append_withoutOwn :
    plans options (calls ++ withoutOwn behind) = plans options calls ++ plans options behind := by
  rw [plans_append calls (ownSettings_withoutOwn behind), plans_withoutOwn]

theorem forAll_append_route (method : Method) (text : String) (handler : Handler) :
    forAll (calls ++ .route method text handler :: behind) = forAll (calls ++ behind) := by
  rw [forAll_append, forAll_append]
  rfl

theorem forAll_append_withoutOwn :
    forAll (calls ++ withoutOwn behind) = forAll (calls ++ behind) := by
  rw [forAll_append, forAll_append, forAll_withoutOwn]

end

/-- A call for a route that can be registered plans it. -/
theorem exists_mem_plans {calls : List Registration} {method : Method} {text : String}
    {handler : Handler} {p : Pattern} (hcall : .route method text handler ∈ calls)
    (hread : Pattern.read text options = .ok p) :
    ∃ plan ∈ plans options calls, plan.method = method ∧ plan.pattern = p := by
  obtain ⟨before, behind, rfl⟩ := List.append_of_mem hcall
  rw [plans_append_route before behind hread]
  exact ⟨_, List.mem_append_right _ List.mem_cons_self, rfl, rfl⟩

end Registration

namespace Router

open Registration (forAll plans withoutOwn)

/-- Routes that another one shadows are dead.

Where a route is registered behind another one of its method, and their patterns have the same
shape, no path finds it, whatever the order in which a table holds the methods.  And without the
call that registers it, and the settings for it, every path finds what it found before, for every
method. -/
theorem shadowed_dead {options : MatchOptions} {calls behind : List Registration}
    {method : Method} {text text' : String} {handler handler' : Handler} {p q : Pattern}
    (hfirst : .route method text handler ∈ calls) (hp : Pattern.read text options = .ok p)
    (hq : Pattern.read text' options = .ok q) (hshape : p.SameShape q) {t t' : RouteTable}
    (ht : t.groups.Perm
      (assemble options (calls ++ .route method text' handler' :: behind)).build.table.groups)
    (ht' : t'.groups.Perm (assemble options (calls ++ withoutOwn behind)).build.table.groups) :
    (∀ m path r captures, t.lookup m path = .matched r captures →
      ∃ k, k ≠ (plans options calls).length ∧
        Route.Best ((plans options (calls ++ .route method text' handler' :: behind)).map
          (·.finished (forAll (calls ++ behind)))) m path k r) ∧
    ∀ m path, t'.lookup m path = t.lookup m path := by
  rw [table_build_assemble, Registration.forAll_append_route] at ht
  rw [table_build_assemble, Registration.forAll_append_withoutOwn,
    Registration.plans_append_withoutOwn, List.map_append] at ht'
  rw [Registration.plans_append_route calls behind hq, List.map_append, List.map_cons] at ht ⊢
  obtain ⟨plan, hmem, rfl, rfl⟩ := Registration.exists_mem_plans hfirst hp
  have hx := List.mem_map_of_mem (f := (·.finished (forAll (calls ++ behind)))) hmem
  have hoptions : plan.pattern.options = q.options := by
    rw [(Pattern.read_eq_ok_iff.mp hp).2, (Pattern.read_eq_ok_iff.mp hq).2]
  have htwins : (plan.finished (forAll (calls ++ behind))).Twins (Route.Plan.finished
      ⟨plan.method, q, handler', Registration.ownSettings behind⟩ (forAll (calls ++ behind))) :=
    ⟨rfl, hshape.specificity_eq, hshape.accepts_eq hoptions⟩
  have h := (RouteTable.holds_ofRoutes _).of_perm ht
  have h' := (RouteTable.holds_ofRoutes _).of_perm ht'
  refine ⟨?_, fun m path => RouteTable.Holds.lookup_eq_of_twins hx htwins h h' m path⟩
  intro m path r captures hlookup
  obtain ⟨⟨k, hbest⟩, -⟩ := h.lookup_eq_matched_iff.mp hlookup
  refine ⟨k, ?_, hbest⟩
  rintro rfl
  rw [← List.length_map (f := (·.finished (forAll (calls ++ behind))))] at hbest
  exact RouteTable.not_best_of_twins hx htwins m path r hbest

/-- The page of a user. -/
def idPattern : Pattern where
  raw := "/users/:id"
  segments := [.fixed "users", .variable "id"]
  options := {}

/-- The same under another name, and with a slash, which does not count. -/
def namePattern : Pattern where
  raw := "/users/\x7bname\x7d/"
  segments := [.fixed "users", .variable "name"]
  options := {}

def idRoute : Registration := .route .get "/users/:id" (.ret (.ok .done))

def nameRoute : Registration := .route .get "/users/\x7bname\x7d/" (.ret (.ok .done))

/-- A second page of a user is not found, whatever is set for it. -/
theorem shadowed_dead_users :
    Pattern.read "/users/:id" {} = .ok idPattern ∧
      Pattern.read "/users/\x7bname\x7d/" {} = .ok namePattern ∧
      idPattern.SameShape namePattern ∧
      ∃ r, (assemble {} [idRoute]).build.table.lookup .get "/users/7" =
          .matched r [("id", "7")] ∧
        (assemble {} [idRoute, nameRoute, .own (.parser .form)]).build.table.lookup .get
          "/users/7" = .matched r [("id", "7")] := by
  have hp : Pattern.read "/users/:id" {} = .ok idPattern := rfl
  have hq : Pattern.read "/users/\x7bname\x7d/" {} = .ok namePattern := rfl
  have hshape : idPattern.SameShape namePattern :=
    ⟨.cons (.fixed _) (.cons (.capture _ _) .nil), fun hslash => by cases hslash⟩
  have htable : (assemble {} [idRoute]).build.table =
      ⟨[(.get, [(⟨.get, idPattern, .ret (.ok .done), []⟩ : Route.Plan).finished []])]⟩ := by
    have hplans : plans {} [idRoute] = [⟨.get, idPattern, .ret (.ok .done), []⟩] := rfl
    rw [table_build_assemble, hplans]
    simp [RouteTable.ofRoutes, RouteTable.grouped, RouteTable.push, RouteTable.arranged,
      Route.Plan.finished, idRoute, forAll, Registration.forAll?]
  have hmem : idRoute ∈ [idRoute] := List.mem_cons_self
  have ht := List.Perm.refl
    (assemble {} ([idRoute] ++ nameRoute :: [.own (.parser .form)])).build.table.groups
  have ht' := List.Perm.refl
    (assemble {} ([idRoute] ++ withoutOwn [.own (.parser .form)])).build.table.groups
  have hsame := (shadowed_dead hmem hp hq hshape ht ht').2 .get "/users/7"
  have hfound : ∃ r, (assemble {} [idRoute]).build.table.lookup .get "/users/7" =
      .matched r [("id", "7")] := by
    rw [htable]
    exact ⟨_, rfl⟩
  obtain ⟨r, hr⟩ := hfound
  exact ⟨hp, hq, hshape, r, hr, hsame.symm.trans hr⟩

end Router

end HttpApp
