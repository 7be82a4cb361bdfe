/-
  HttpApp/Proofs/Negotiation/Rendering.lean --- which renderer shows a model.

  The first of the renderers that the client accepts and that does not decline a model shows
  it, or else the first one of all that does not decline it.  An application has renderers for
  texts, JSON and bytes, whatever is added to it and to its routes, and keeps them before
  every context, so that every model is shown.  Main statement: `Negotiation.render_exact`.
-/
import HttpApp.Proofs.App.Givens
import HttpApp.Proofs.Routing.Assembly

set_option autoImplicit false

namespace HttpApp

open Negotiation (Rendered)

/-! ## Decisions of renderers -/

/-- What a renderer makes of a model: its body with its own media type, or its error; nothing if
it declines. -/
def Renderer.decision? (x : Renderer) (m : Model) : Option (Except Error Rendered) :=
  match x.render m with
  | .ok none => none
  | .ok (some body) => some (.ok ⟨x.mediaType, body⟩)
  | .error e => some (.error e)

namespace Negotiation

/-- The first renderer of a kind that does not decline a model decides what comes of it. -/
def Decides (kind : Renderer → Bool) (xs : List Renderer) (m : Model)
    (result : Except Error Rendered) : Prop :=
  ∃ front x back, xs = front ++ x :: back ∧ kind x = true ∧ x.decision? m = some result ∧
    ∀ y ∈ front, kind y = true → y.decision? m = none

/-- All renderers of a kind decline a model. -/
def Declined (kind : Renderer → Bool) (xs : List Renderer) (m : Model) : Prop :=
  ∀ x ∈ xs, kind x = true → x.decision? m = none

/-- Renderers of every kind. -/
def every : Renderer → Bool := fun _ => true

section

variable {kind : Renderer → Bool} {xs : List Renderer} {m : Model}

theorem findSome?_filter_eq_some_iff {result : Except Error Rendered} :
    (xs.filter kind).findSome? (·.decision? m) = some result ↔ Decides kind xs m result := by
  rw [List.findSome?_eq_some_iff]
  constructor
  · rintro ⟨front, x, back, hfilter, hx, hfront⟩
    obtain ⟨before, rest, rfl, rfl, hrest⟩ := List.filter_eq_append_iff.mp hfilter
    obtain ⟨gap, back, rfl, hgap, hkind, rfl⟩ := List.filter_eq_cons_iff.mp hrest
    refine ⟨before ++ gap, x, back, (List.append_assoc ..).symm, hkind, hx, fun y hy hkindy => ?_⟩
    rcases List.mem_append.mp hy with hy | hy
    · exact hfront y (List.mem_filter.mpr ⟨hy, hkindy⟩)
    · exact absurd hkindy (hgap y hy)
  · rintro ⟨front, x, back, rfl, hkind, hx, hfront⟩
    refine ⟨front.filter kind, x, back.filter kind, ?_, hx, fun y hy => ?_⟩
    · rw [List.filter_append, List.filter_cons_of_pos hkind]
    · obtain ⟨hy, hkindy⟩ := List.mem_filter.mp hy
      exact hfront y hy hkindy

theorem findSome?_filter_eq_none_iff :
    (xs.filter kind).findSome? (·.decision? m) = none ↔ Declined kind xs m := by
  simp [List.findSome?_eq_none_iff, Declined]

end

/-- The first decision counts, and an error is one. -/
theorem firstRendered_eq (m : Model) (xs : List Renderer) :
    firstRendered m xs = (xs.findSome? (·.decision? m)).elim (.ok none) (·.map some) := by
  induction xs with
  | nil => rfl
  | cons x xs ih =>
    rw [firstRendered, List.findSome?_cons, Renderer.decision?]
    rcases x.render m with e | _ | body
    · rfl
    · exact ih
    · rfl

/-- Rendering takes the first decision of those whom the client accepts, or else of all. -/
theorem render_eq (xs : List Renderer) (m : Model) (accept : Option String) :
    render xs m accept =
      ((xs.filter fun x => x.mediaType.acceptedBy accept).findSome? (·.decision? m)).getD
        (((xs.filter every).findSome? (·.decision? m)).getD (.error (.missingRenderer noRoute))) := by
  have hevery : xs.filter every = xs := List.filter_eq_self.mpr fun _ _ => rfl
  rw [render, firstRendered_eq, firstRendered_eq, hevery]
  generalize (xs.filter fun x => x.mediaType.acceptedBy accept).findSome? (·.decision? m) = accepted
  generalize xs.findSome? (·.decision? m) = first
  rcases accepted with _ | e | rendered
  · rcases first with _ | e | rendered <;> rfl
  · rfl
  · rfl

theorem render_eq_iff {xs : List Renderer} {m : Model} {accept : Option String}
    {result : Except Error Rendered} :
    render xs m accept = result ↔
      Decides (fun x => x.mediaType.acceptedBy accept) xs m result ∨
      (Declined (fun x => x.mediaType.acceptedBy accept) xs m ∧ Decides every xs m result) ∨
      (Declined every xs m ∧ result = .error (.missingRenderer noRoute)) := by
  have hall : Declined every xs m → Declined (fun x => x.mediaType.acceptedBy accept) xs m :=
    fun h x hx _ => h x hx rfl
  simp only [← findSome?_filter_eq_some_iff, ← findSome?_filter_eq_none_iff] at hall ⊢
  rw [render_eq]
  cases haccepted : (xs.filter fun x => x.mediaType.acceptedBy accept).findSome? (·.decision? m) with
  | some decision =>
    have hsome : (xs.filter every).findSome? (·.decision? m) ≠ none := fun hnone => by
      rw [hall hnone] at haccepted
      cases haccepted
    simp [hsome]
  | none =>
    cases hfirst : (xs.filter every).findSome? (·.decision? m) with
    | some decision => simp
    | none => simp [eq_comm]

end Negotiation

/-! ## Renderers that show every model -/

namespace Renderer

/-- A renderer has no error for any model; it may decline models. -/
def NeverFails (x : Renderer) : Prop := ∀ m, ∃ body, x.render m = .ok body

/-- None of the renderers fails, and for every model there is one that does not decline it. -/
structure ShowAll (xs : List Renderer) : Prop where
  neverFails : ∀ x ∈ xs, x.NeverFails
  shows : ∀ m, ∃ x ∈ xs, ∃ body, x.render m = .ok (some body)

theorem neverFails_text : text.NeverFails := fun m => by cases m <;> exact ⟨_, rfl⟩

theorem neverFails_ofPrinter (print : Json → String) : (ofPrinter print).NeverFails :=
  fun m => by cases m <;> exact ⟨_, rfl⟩

theorem neverFails_bytes : bytes.NeverFails := fun m => by cases m <;> exact ⟨_, rfl⟩

/-- With the renderers for texts, JSON and bytes among them, all models are shown. -/
theorem showAll_of_builtin {own added : List Renderer} (hown : ∀ x ∈ own, x.NeverFails)
    (hadded : ∀ x ∈ added, x.NeverFails) : ShowAll (own ++ text :: json :: bytes :: added) where
  neverFails := by
    simp only [List.forall_mem_append, List.forall_mem_cons]
    exact ⟨hown, neverFails_text, neverFails_ofPrinter _, neverFails_bytes, hadded⟩
  shows m := by
    cases m with
    | text s => exact ⟨text, by simp, _, rfl⟩
    | binary b => exact ⟨bytes, by simp, _, rfl⟩
    | structured v => exact ⟨json, by simp, _, rfl⟩

theorem decision?_eq_none_iff {x : Renderer} {m : Model} :
    x.decision? m = none ↔ x.render m = .ok none := by
  unfold decision?
  rcases x.render m with e | _ | body <;> simp

theorem NeverFails.decision?_ne_error {x : Renderer} (h : x.NeverFails) (m : Model) (e : Error) :
    x.decision? m ≠ some (.error e) := by
  obtain ⟨body, hbody⟩ := h m
  unfold decision?
  rw [hbody]
  cases body <;> simp

/-- Renderers that show all models have an answer, whatever the client accepts. -/
theorem ShowAll.exists_rendered {xs : List Renderer} (h : ShowAll xs) (m : Model)
    (accept : Option String) : ∃ rendered, Negotiation.render xs m accept = .ok rendered := by
  have hok : ∀ kind result, Negotiation.Decides kind xs m result → ∃ rendered, result = .ok rendered := by
    rintro kind result ⟨front, x, back, rfl, -, hx, -⟩
    cases result with
    | ok rendered => exact ⟨rendered, rfl⟩
    | error e => exact absurd hx ((h.neverFails x (by simp)).decision?_ne_error m e)
  rcases Negotiation.render_eq_iff.mp (rfl : Negotiation.render xs m accept = _) with
    hdecides | ⟨-, hdecides⟩ | ⟨hdeclined, -⟩
  · exact hok _ _ hdecides
  · exact hok _ _ hdecides
  · obtain ⟨x, hx, body, hbody⟩ := h.shows m
    rw [decision?_eq_none_iff.mp (hdeclined x hx rfl)] at hbody
    cases hbody

end Renderer

/-! ## The renderers of an application -/

namespace Registration

theorem mem_of_mem_ownSettings {calls : List Registration} {x : Route.Setting}
    (h : x ∈ ownSettings calls) : .own x ∈ calls := by
  induction calls with
  | nil => cases h
  | cons c calls ih =>
    cases c with
    | route method text handler => cases h
    | own y =>
      rcases List.mem_cons.mp h with rfl | h
      · exact List.mem_cons_self
      · exact List.mem_cons_of_mem _ (ih h)
    | all y => exact List.mem_cons_of_mem _ (ih h)

/-- What is set for a planned route is set by one of the calls. -/
theorem mem_of_mem_settings {options : MatchOptions} {calls : List Registration} {p : Route.Plan}
    (hp : p ∈ plans options calls) {x : Route.Setting} (hx : x ∈ p.settings) : .own x ∈ calls := by
  induction calls with
  | nil => cases hp
  | cons c calls ih =>
    cases c with
    | route method text handler =>
      rw [plans] at hp
      cases hread : Pattern.read text options with
      | ok pattern =>
        rw [hread] at hp
        rcases List.mem_cons.mp hp with rfl | hp
        · exact List.mem_cons_of_mem _ (mem_of_mem_ownSettings hx)
        · exact List.mem_cons_of_mem _ (ih hp)
      | error fault =>
        rw [hread] at hp
        exact List.mem_cons_of_mem _ (ih hp)
    | own y => exact List.mem_cons_of_mem _ (ih hp)
    | all y => exact List.mem_cons_of_mem _ (ih hp)

theorem mem_of_mem_forAll {calls : List Registration} {x : Router.Setting}
    (h : x ∈ forAll calls) : .all x ∈ calls := by
  obtain ⟨c, hc, hx⟩ := List.mem_filterMap.mp h
  cases c with
  | all y =>
    obtain rfl := Option.some.inj hx
    exact hc
  | _ => cases hx

/-- No renderer that is added, to a route or for all routes, fails. -/
def AddNoFailing (calls : List Registration) : Prop :=
  ∀ x, .own (.renderer x) ∈ calls ∨ .all (.renderer x) ∈ calls → x.NeverFails

variable {options : MatchOptions} {calls : List Registration}

theorem AddNoFailing.forAll (h : AddNoFailing calls) :
    ∀ x ∈ (forAll calls).filterMap Router.Setting.renderer?, x.NeverFails := by
  intro x hx
  obtain ⟨y, hy, hrenderer⟩ := List.mem_filterMap.mp hx
  cases y with
  | renderer y =>
    obtain rfl := Option.some.inj hrenderer
    exact h y (.inr (mem_of_mem_forAll hy))
  | _ => cases hrenderer

theorem AddNoFailing.own (h : AddNoFailing calls) {p : Route.Plan} (hp : p ∈ plans options calls) :
    ∀ x ∈ p.settings.filterMap Route.Setting.renderer?, x.NeverFails := by
  intro x hx
  obtain ⟨y, hy, hrenderer⟩ := List.mem_filterMap.mp hx
  cases y with
  | renderer y =>
    obtain rfl := Option.some.inj hrenderer
    exact h y (.inl (mem_of_mem_settings hp hy))
  | _ => cases hrenderer

end Registration

namespace Router

open Registration (AddNoFailing forAll plans)

variable {options : MatchOptions} {calls : List Registration}

theorem renderers_build_assemble (options : MatchOptions) (calls : List Registration) :
    (assemble options calls).build.renderers =
      .text :: .json :: .bytes :: (forAll calls).filterMap Setting.renderer? := by
  rw [build_assemble]
  exact (foldl_set (forAll calls) { options }).2.2

theorem showAll_build_assemble (h : AddNoFailing calls) :
    Renderer.ShowAll (assemble options calls).build.renderers := by
  rw [renderers_build_assemble]
  exact Renderer.showAll_of_builtin (List.forall_mem_nil _) h.forAll

/-- Every route that is looked up with success has renderers for all models. -/
theorem showAll_of_matched (h : AddNoFailing calls) {method : Method} {path : String} {r : Route}
    {captures : Pattern.Captures}
    (hlookup : (assemble options calls).build.table.lookup method path = .matched r captures) :
    Renderer.ShowAll r.renderers := by
  have hholds := RouteTable.holds_ofRoutes ((plans options calls).map (·.finished (forAll calls)))
  rw [← table_build_assemble] at hholds
  obtain ⟨⟨i, hbest⟩, -⟩ := hholds.lookup_eq_matched_iff.mp hlookup
  obtain ⟨p, hp, rfl⟩ := List.mem_map.mp (List.mem_of_getElem? hbest.registered)
  exact Renderer.showAll_of_builtin (h.own hp) h.forAll

end Router

/-! ## Contexts -/

theorem Context.exists_rendered {c : Context} (h : Renderer.ShowAll c.activeRenderers) (m : Model) :
    ∃ rendered, c.rendered m = .ok rendered := by
  obtain ⟨rendered, hrendered⟩ := h.exists_rendered m (c.request.header "accept")
  refine ⟨rendered, ?_⟩
  rw [Context.rendered, hrendered]

theorem Context.activeRenderers_of_given {c d : Context} (h : c.given = d.given) :
    c.activeRenderers = d.activeRenderers := by
  have hactive : c.given.activeRenderers = d.given.activeRenderers := by rw [h]
  exact hactive

/-- Where an application comes to, all models are shown. -/
theorem App.Point.showAll {options : MatchOptions} {calls : List Registration}
    (hcalls : Registration.AddNoFailing calls) {request : Request} {receiver : Receiver}
    {limit : Option Nat} {poolStarted : Bool} {p : Session}
    (h : (Router.assemble options calls).build.Point
      ((Router.assemble options calls).build.session request receiver limit poolStarted) p) :
    Renderer.ShowAll p.context.activeRenderers := by
  rcases h.given with hgiven | ⟨r, captures, hlookup, hgiven⟩
  · rw [Context.activeRenderers_of_given hgiven]
    exact Router.showAll_build_assemble hcalls
  · rw [Context.activeRenderers_of_given hgiven]
    exact Router.showAll_of_matched hcalls hlookup

theorem Session.complete_ne_missingRenderer (s : Session) (response : Response) (route : String) :
    (s.complete response).1 ≠ .error (.missingRenderer route) := by
  unfold complete
  split
  · simp
  · split
    · simp
    · dsimp only
      split <;> simp

namespace Negotiation

/-- The first of the renderers that the client accepts and that does not decline a model decides
what comes of it: its body with its own media type, or its error.  If they all decline it, the
first one of all renderers that does not decline it decides, and only if all decline it, there is
no renderer.  In an application that calls build, that does not happen if no renderer that they
add fails: wherever it comes to for a request, on a route or not, and whatever the client accepts,
the context renders every model, and sending it does not fail for want of a renderer. -/
theorem render_exact :
    (∀ (xs : List Renderer) (m : Model) (accept : Option String) (result : Except Error Rendered),
      render xs m accept = result ↔
        Decides (fun x => x.mediaType.acceptedBy accept) xs m result ∨
        (Declined (fun x => x.mediaType.acceptedBy accept) xs m ∧ Decides every xs m result) ∨
        (Declined every xs m ∧ result = .error (.missingRenderer noRoute))) ∧
    ∀ (options : MatchOptions) (calls : List Registration), Registration.AddNoFailing calls →
      ∀ (request : Request) (receiver : Receiver) (limit : Option Nat) (poolStarted : Bool)
        (p : Session),
        (Router.assemble options calls).build.Point
          ((Router.assemble options calls).build.session request receiver limit poolStarted) p →
        ∀ m, (∃ rendered, p.context.rendered m = .ok rendered) ∧
          ∀ route, (p.send (.model m)).1 ≠ .error (.missingRenderer route) := by
  refine ⟨fun xs m accept result => render_eq_iff, ?_⟩
  intro options calls hcalls request receiver limit poolStarted p hpoint m
  obtain ⟨rendered, hrendered⟩ := Context.exists_rendered (hpoint.showAll hcalls) m
  refine ⟨⟨rendered, hrendered⟩, fun route => ?_⟩
  rw [Session.send, hrendered]
  exact Session.complete_ne_missingRenderer _ _ route

/-- A renderer that declines every model. -/
def silent : Renderer := ⟨.json, fun _ => .ok none⟩

/-- A route with that renderer, and another renderer for all routes. -/
def silentRoute : List Registration :=
  [.route .get "/" (.ret (.ok .done)), .own (.renderer silent), .all (.renderer .indentedJson)]

theorem addNoFailing_silentRoute : Registration.AddNoFailing silentRoute := by
  rintro x (hx | hx)
  · obtain rfl : x = silent := by simpa [silentRoute] using hx
    exact fun m => ⟨none, rfl⟩
  · obtain rfl : x = .indentedJson := by simpa [silentRoute] using hx
    exact Renderer.neverFails_ofPrinter _

/-- The route as it is built. -/
def builtSilentRoute : Route :=
  Route.Plan.finished ⟨.get, ⟨"/", [], {}⟩, .ret (.ok .done), [.renderer silent]⟩
    [.renderer .indentedJson]

theorem lookup_silentRoute :
    (Router.assemble {} silentRoute).build.table.lookup .get "/" = .matched builtSilentRoute [] := by
  have hplans : (Registration.plans {} silentRoute).map
      (·.finished (Registration.forAll silentRoute)) = [builtSilentRoute] := rfl
  have htable : RouteTable.ofRoutes [builtSilentRoute] = ⟨[(.get, [builtSilentRoute])]⟩ := by
    simp only [RouteTable.ofRoutes, RouteTable.grouped, List.foldl_cons, List.foldl_nil,
      RouteTable.push, List.map_cons, List.map_nil, RouteTable.arranged, List.mergeSort_singleton]
    rfl
  rw [Router.table_build_assemble, hplans, htable]
  rfl

/-- A request of a client that accepts none of the renderers. -/
def imageRequest : Request where
  method := .get
  path := "/"
  headers := ⟨[("accept", [Bytes.ofText "image/png"])]⟩

/-- In the handler bytes can be rendered all the same. -/
theorem render_exact_silentRoute :
    Registration.AddNoFailing silentRoute ∧
      ∃ p, (Router.assemble {} silentRoute).build.Point
          ((Router.assemble {} silentRoute).build.session imageRequest .held none false) p ∧
        p.context.request.header "accept" = some "image/png" ∧
        ∃ rendered, p.context.rendered (.binary [1]) = .ok rendered := by
  have hpoint := App.Point.script
    (s := (Router.assemble {} silentRoute).build.session imageRequest .held none false)
    lookup_silentRoute (.handler (r := builtSilentRoute) .first .here)
  have hheader : imageRequest.header "accept" = some "image/png" := by decide +kernel
  exact ⟨addNoFailing_silentRoute, _, hpoint, hheader,
    (render_exact.2 {} silentRoute addNoFailing_silentRoute imageRequest .held none false _ hpoint
      (.binary [1])).1⟩

end Negotiation

end HttpApp
