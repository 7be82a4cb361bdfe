/-
  HttpApp/Proofs/App/Rejection.lean --- requests that no route takes.

  The methods of other routes are staged before the error handler begins.  What it
  does while it answers the error, by itself or by error handlers that it calls, is
  `ErrorBoundary.Does`; where none of that is about the staged header, the header stands
  in the answer, which may come from the error handler or from the framework once that
  failed (`ErrorBoundary.bears_answerWithin`).  Main statement:
  `App.rejected_with_methods`.
-/
import HttpApp.Proofs.App.Delivery
import HttpApp.Proofs.Routing.Lookup
import HttpApp.Proofs.Session.Bearing

set_option autoImplicit false

namespace HttpApp

open Session (Bears Coherent)

/-! ## What an error handler does -/

/-- One thing that is done while an error is answered: an operation of a script, or an error
handler is called, with a status. -/
inductive Deed where
  | step (op : Op)
  | handle (status : Status)

namespace Deed

/-- The header that is staged. -/
def header? : Deed → Option String
  | .step op => op.header?
  | .handle _ => none

/-- The status that is staged. -/
def status? : Deed → Option Status
  | .step op => op.status?
  | .handle status => some status

/-- Whether neither a header of this name nor a status of another kind is staged. -/
structure Spares (name : String) (kind : Status → Prop) (d : Deed) : Prop where
  header : d.header? ≠ some name
  status : ∀ status, d.status? = some status → kind status

end Deed

namespace ErrorBoundary

/-- A script that begins in a session does something, by itself or by an error handler that it
calls. -/
inductive Does (b : ErrorBoundary) : {α : Type} → Nat → Script α → Session → Deed → Prop where
  | here {α : Type} {limit : Nat} {op : Op} {next : op.Reply → Script α} {s : Session} :
    Does b limit (.ask op next) s (.step op)
  | later {α : Type} {limit : Nat} {op : Op} {next : op.Reply → Script α} {s : Session} {d : Deed} :
    Does b limit (next (s.perform op).1) (s.perform op).2 d → Does b limit (.ask op next) s d
  | handle {α : Type} {limit : Nat} {f : Failure} {status : Option Status} {next : Script α}
    {s : Session} :
    discard? f (status.getD (b.classify f)) s = none →
    Does b limit (.sendError f status next) s (.handle (status.getD (b.classify f)))
  | within {α : Type} {limit : Nat} {f : Failure} {status : Option Status} {next : Script α}
    {s : Session} {d : Deed} :
    discard? f (status.getD (b.classify f)) s = none →
    Does b limit (b.handler f (status.getD (b.classify f)))
      (handling f (status.getD (b.classify f)) s) d →
    Does b (limit + 1) (.sendError f status next) s d
  | answered {α : Type} {limit : Nat} {f : Failure} {status : Option Status} {next : Script α}
    {s t : Session} {d : Deed} :
    b.answerWithin limit f status s = (.returned (), t) → Does b limit next t d →
    Does b limit (.sendError f status next) s d

/-- While an error is answered with a status, the error handler does something. -/
def Handles (b : ErrorBoundary) (limit : Nat) (f : Failure) (status : Status) (s : Session)
    (d : Deed) : Prop :=
  ∃ n, limit = n + 1 ∧ b.Does n (b.handler f status) (handling f status s) d

section
variable {b : ErrorBoundary} {name : String} {fields : List (String × HeaderValue)}
  {kind : Status → Prop} {s : Session}

theorem bears_conclude (h : Bears name fields kind s) (hname : name ≠ "content-type")
    {status : Status} (hs : kind status) (f : Failure) (ending : Ending (Except Failure Unit)) :
    Bears name fields kind (conclude f status ending s) := by
  have hbare : ∀ t : Session, Bears name fields kind t →
      Bears name fields kind (if t.context.started then t else (t.complete (.bare status)).2) := by
    intro t ht
    split
    · exact ht
    · exact ht.completeBare hname hs
  unfold conclude
  cases handlerFailure? ending with
  | none => exact hbare s h
  | some reason => exact hbare _ (h.add _)

theorem bears_reraise (h : Bears name fields kind s) (f : Failure) :
    Bears name fields kind (reraise f s).2 := by
  cases f with
  | recoverable contexts cause => exact h
  | fatal f => exact h.add _

theorem bears_of_discard? (h : Bears name fields kind s) {f : Failure} {status : Status}
    {t : Session} (hd : discard? f status s = some t) : Bears name fields kind t := by
  unfold discard? at hd
  split at hd
  · exact Option.some.inj hd ▸ h.add _
  · split at hd
    · exact Option.some.inj hd ▸ h.add _
    · cases hd

theorem bears_handling (h : Bears name fields kind s) (f : Failure) {status : Status}
    (hs : kind status) : Bears name fields kind (handling f status s) :=
  (h.stageStatus hs).add _

/-- An error that is discarded changes nothing about what the caller gets. -/
theorem channel_of_discard? (b : ErrorBoundary) (limit : Nat) {f : Failure}
    (status : Option Status) {s t : Session}
    (h : discard? f (status.getD (b.classify f)) s = some t) :
    (b.answerWithin limit f status s).2.channel = s.channel := by
  have ht : t.channel = s.channel := by
    unfold discard? at h
    split at h
    · exact Option.some.inj h ▸ rfl
    · split at h
      · exact Option.some.inj h ▸ rfl
      · cases h
  have hr : (reraise f t).2.channel = s.channel := by
    cases f with
    | recoverable contexts cause => exact ht
    | fatal f => exact ht
  cases limit <;> simpa only [answerWithin, h] using hr

/-- If the answers to errors keep what is staged and what the answer has, then so does a script
that spares it. -/
theorem bears_run_of_answer {limit : Nat} (hname : name ≠ "content-type")
    (hanswer : ∀ f status s, discard? f (status.getD (b.classify f)) s = none →
      kind (status.getD (b.classify f)) →
      Bears name fields kind (handling f (status.getD (b.classify f)) s) →
      (∀ d, b.Handles limit f (status.getD (b.classify f)) s d → d.Spares name kind) →
      Bears name fields kind (b.answerWithin limit f status s).2)
    {α : Type} (y : Script α) (s : Session) (h : Bears name fields kind s)
    (hspares : ∀ d, b.Does limit y s d → d.Spares name kind) :
    Bears name fields kind (y.run (b.answerWithin limit) s).2 := by
  induction y generalizing s with
  | ret a => exact h
  | panic p => exact h
  | ask op next ih =>
    have hop := hspares _ .here
    exact ih _ _ (h.perform hname hop.header hop.status) fun d hd => hspares d (.later hd)
  | sendError f status next ih =>
    -- What the error handler does here is among what the script does, unless it is not called.
    have hfirst : Bears name fields kind (b.answerWithin limit f status s).2 := by
      cases hd : discard? f (status.getD (b.classify f)) s with
      | some t =>
        have ht := bears_reraise (bears_of_discard? h hd) f
        cases limit <;> simpa only [answerWithin, hd] using ht
      | none =>
        have hstatus := (hspares _ (.handle hd)).status _ rfl
        refine hanswer f status s hd hstatus (bears_handling h f hstatus) ?_
        rintro d ⟨n, rfl, hdoes⟩
        exact hspares d (.within hd hdoes)
    rw [Script.run]
    rcases hrun : b.answerWithin limit f status s with ⟨_ | p, t⟩
    · rw [hrun] at hfirst
      exact ih t hfirst fun d hdoes => hspares d (.answered hrun hdoes)
    · rw [hrun] at hfirst
      exact hfirst

/-- An answer to an error has the header that is staged when the error handler begins, and a
status of the same kind, if the error handler spares them; whether it fails, panics or sends
nothing. -/
theorem bears_answerWithin (hname : name ≠ "content-type") (limit : Nat) (f : Failure)
    (status : Option Status) (s : Session)
    (hd : discard? f (status.getD (b.classify f)) s = none)
    (hstatus : kind (status.getD (b.classify f)))
    (h : Bears name fields kind (handling f (status.getD (b.classify f)) s))
    (hspares : ∀ d, b.Handles limit f (status.getD (b.classify f)) s d → d.Spares name kind) :
    Bears name fields kind (b.answerWithin limit f status s).2 := by
  induction limit generalizing f status s with
  | zero =>
    simp only [answerWithin, hd]
    exact bears_reraise (bears_conclude h hname hstatus f _) f
  | succ limit ih =>
    simp only [answerWithin, hd]
    have hrun := bears_run_of_answer hname ih (b.handler f (status.getD (b.classify f))) _ h
      fun d hdoes => hspares d ⟨limit, rfl, hdoes⟩
    exact bears_reraise (bears_conclude hrun hname hstatus f _) f

end

end ErrorBoundary

/-! ## Methods in one line -/

/-- What stands between the occurrences of a marker, in order; always at least one part. -/
def Text.parts {α : Type} [DecidableEq α] (marker l : List α) : List (List α) :=
  match h : cut? marker l with
  | none => [l]
  | some (before, rest) =>
    have : rest.length < l.length := length_of_cut? h
    before :: parts marker rest
termination_by l.length

theorem Text.parts_of_none {α : Type} [DecidableEq α] {marker l : List α}
    (h : cut? marker l = none) : parts marker l = [l] := by
  rw [parts]
  split
  · rfl
  · next heq => rw [h] at heq; cases heq

theorem Text.parts_of_some {α : Type} [DecidableEq α] {marker l before rest : List α}
    (h : cut? marker l = some (before, rest)) : parts marker l = before :: parts marker rest := by
  rw [parts]
  split
  · next heq => rw [h] at heq; cases heq
  · next heq =>
    obtain ⟨rfl, rfl⟩ := Prod.mk.inj (Option.some.inj (heq.symm.trans h))
    rfl

/-- Parts that were joined with a marker come apart again, if its first element is in none. -/
theorem Text.parts_intercalate {α : Type} [DecidableEq α] {m : α} {ms : List α}
    {ws : List (List α)} (hne : ws ≠ []) (h : ∀ w ∈ ws, m ∉ w) :
    parts (m :: ms) ((m :: ms).intercalate ws) = ws := by
  induction ws with
  | nil => exact absurd rfl hne
  | cons w ws ih =>
    have hw := h w List.mem_cons_self
    cases ws with
    | nil =>
      have hcut : cut? (m :: ms) (w ++ []) = none := cut?_append_of_notMem hw []
      rw [List.append_nil] at hcut
      rw [List.intercalate_singleton, parts_of_none hcut]
    | cons w' ws =>
      generalize htail : (m :: ms).intercalate (w' :: ws) = tail at ih
      have hafter : after? (m :: ms) (m :: (ms ++ tail)) = some tail := after?_append (m :: ms) tail
      have hcut : cut? (m :: ms) (w ++ (m :: ms ++ tail)) = some (w, tail) := by
        rw [cut?_append_of_notMem hw, List.cons_append, cut?, if_neg (List.cons_ne_nil _ _), hafter]
        simp
      rw [List.intercalate_cons_cons, htail, List.append_assoc, parts_of_some hcut,
        ih (List.cons_ne_nil _ _) fun v hv => h v (List.mem_cons_of_mem _ hv)]

namespace App

/-- A line of methods, cut at each comma and blank, is the names of the methods. -/
theorem parts_methodLine {ms : List Method} (hne : ms ≠ []) :
    Text.parts ", ".toList (methodLine ms).toList = ms.map fun m => m.name.toList := by
  have hnames : ∀ m : Method, ',' ∉ m.name.toList := by
    intro m
    cases m <;> decide
  rw [methodLine, String.toList_intercalate, List.map_map]
  have hmarker : ", ".toList = [',', ' '] := by decide
  rw [hmarker]
  refine Text.parts_intercalate (by simpa using hne) ?_
  intro w hw
  obtain ⟨m, -, rfl⟩ := List.mem_map.mp hw
  exact hnames m

theorem ofText?_methodLine (ms : List Method) :
    HeaderValue.ofText? (methodLine ms) = some (Bytes.ofText (methodLine ms)) := by
  have hnames : ∀ m : Method, ∀ c ∈ m.name.toList, 32 ≤ c.toNat ∧ c.toNat < 127 := by
    intro m
    cases m <;> simp [Method.name]
  refine HeaderValue.ofText?_of_visible ?_
  rw [methodLine, String.toList_intercalate, List.map_map]
  refine Text.forall_mem_intercalate (by simp) fun w hw => ?_
  obtain ⟨m, -, rfl⟩ := List.mem_map.mp hw
  exact hnames m

theorem name?_allow : Headers.name? "allow" = some "allow" := by decide +kernel

/-! ## Requests that no route takes -/

/-- The error that answers a request which no route takes, and the session in which it is
answered. -/
def rejection? (a : App) (s : Session) : Option (Failure × Session) :=
  let request := s.context.request
  match a.table.lookup request.method request.path with
  | .matched _ _ => none
  | .notFound => some (.ofError (.routeNotFound request.path), s)
  | .methodNotAllowed allowed =>
    some (.ofError (.methodNotAllowed request.method request.path allowed),
      s.stageHeader "allow" (methodLine allowed))

theorem answer_of_rejection? {a : App} {s u : Session} {f : Failure}
    (h : a.rejection? s = some (f, u)) : a.answer s = a.boundary.answer f none u := by
  unfold rejection? at h
  unfold answer
  dsimp only at h ⊢
  generalize a.table.lookup s.context.request.method s.context.request.path = found at h ⊢
  cases found with
  | matched route captures => cases h
  | notFound | methodNotAllowed allowed =>
    obtain ⟨rfl, rfl⟩ := Prod.mk.inj (Option.some.inj h)
    rfl

/-- While a request is answered that no route takes, the error handler does something. -/
def HandlerDoes (a : App) (s : Session) (d : Deed) : Prop :=
  ∃ f u, a.rejection? s = some (f, u) ∧
    a.boundary.Handles a.nesting f (a.classify f) u d

/-- A request that no route takes is answered with the header fields that are staged before the
error handler begins, and with the status of the error, if the error handler spares them. -/
theorem answer_rejected {a : App} {s u : Session} {f : Failure}
    (h : a.rejection? s = some (f, u)) (hanswer : u.channel.answer = none)
    (hheader : ∀ d, a.HandlerDoes s d → d.header? ≠ some "allow") {x : Response}
    (hx : (a.answer s).2.channel.answer = some x) :
    x.headers.fieldsOf "allow" = u.context.headers.fieldsOf "allow" ∧
      ((∀ d, a.HandlerDoes s d → ∀ status, d.status? = some status → status = a.classify f) →
        x.status = a.classify f) := by
  rw [answer_of_rejection? h, ErrorBoundary.answer] at hx
  cases hd : ErrorBoundary.discard? f (a.classify f) u with
  | some t =>
    rw [a.boundary.channel_of_discard? a.boundary.nesting none hd, hanswer] at hx
    cases hx
  | none =>
    -- The kind of status is a condition, so that the header needs nothing about the status.
    let leaves : Prop :=
      ∀ d, a.HandlerDoes s d → ∀ status, d.status? = some status → status = a.classify f
    have hbegin : Bears "allow" (u.context.headers.fieldsOf "allow")
        (fun status => leaves → status = a.classify f)
        (ErrorBoundary.handling f (a.classify f) u) :=
      ⟨fun _ => ⟨rfl, fun _ => rfl⟩, fun y hy => by
        have hnone : u.channel.answer = some y := hy
        rw [hanswer] at hnone
        cases hnone⟩
    have hbears := ErrorBoundary.bears_answerWithin (b := a.boundary) (by decide) a.nesting f none
      u hd (fun _ => rfl) hbegin fun d hdoes =>
        ⟨hheader d ⟨f, u, h, hdoes⟩, fun status hs hleaves => hleaves d ⟨f, u, h, hdoes⟩ status hs⟩
    exact hbears.sent x hx

/-- A request that no route takes has an answer if its caller still waits at the end. -/
theorem exists_answer_rejected {a : App} {s u : Session} {f : Failure}
    (h : a.rejection? s = some (f, u)) (hu : Coherent u)
    (hwaits : (a.answer s).2.channel.receiver ≠ .gone) :
    ∃ x, (a.answer s).2.channel.answer = some x := by
  rw [answer_of_rejection? h] at hwaits ⊢
  have hover := a.boundary.over_answer f none hu
  exact hover.exists_answer ((a.boundary.reaches_answer f none u).coherent hu) hwaits

section
variable {a : App} {routes : List Route} {s : Session}

/-- Where routes of other methods match, these methods are staged before the error is
answered. -/
theorem rejection?_of_others (ht : a.table.Holds routes)
    (hnone : ¬∃ r ∈ routes, r.method = s.context.request.method ∧
      r.accepts s.context.request.path = true)
    (hother : ∃ r ∈ routes, r.accepts s.context.request.path = true) :
    a.rejection? s =
      some (.ofError (.methodNotAllowed s.context.request.method s.context.request.path
          (a.table.allowedMethods s.context.request.path)),
        s.stageHeader "allow" (methodLine (a.table.allowedMethods s.context.request.path))) := by
  obtain ⟨r, hr, haccepts⟩ := hother
  have hne : r.method ≠ s.context.request.method := fun heq => hnone ⟨r, hr, heq, haccepts⟩
  have hlookup := ht.lookup_eq_methodNotAllowed_iff.mpr ⟨hnone, ⟨r, hr, hne, haccepts⟩, rfl⟩
  unfold rejection?
  dsimp only
  rw [hlookup]

/-- Where no route matches, nothing is staged before the error is answered. -/
theorem rejection?_of_none (ht : a.table.Holds routes)
    (hnone : ¬∃ r ∈ routes, r.accepts s.context.request.path = true) :
    a.rejection? s = some (.ofError (.routeNotFound s.context.request.path), s) := by
  unfold rejection?
  dsimp only
  rw [ht.lookup_eq_notFound_iff.mpr hnone]

end

/-- The staged line of methods is the only field of its name, if there was none before. -/
theorem fieldsOf_stageHeader_allow {s : Session} (h : s.context.headers = {}) (ms : List Method) :
    (s.stageHeader "allow" (methodLine ms)).context.headers.fieldsOf "allow" =
      [("allow", Bytes.ofText (methodLine ms))] := by
  simp only [Session.stageHeader, name?_allow, ofText?_methodLine, Session.withContext, h]
  rfl

end App

/-- A method is looked up with success exactly if a route of it matches. -/
theorem RouteTable.Holds.exists_matched_iff {t : RouteTable} {routes : List Route}
    (h : t.Holds routes) {m : Method} {path : String} :
    (∃ r captures, t.lookup m path = .matched r captures) ↔
      ∃ r ∈ routes, r.method = m ∧ r.accepts path = true := by
  rw [← not_iff_not, ← h.firstMatch?_eq_none_iff, Option.eq_none_iff_forall_ne_some]
  simp [RouteTable.lookup_eq_matched_iff]

/-- Requests that no route takes are rejected with the methods that are allowed, whatever the
error handler does: also if it fails, panics or sends nothing.

An answer is delivered unless nobody waits for it any more.  If routes of other methods match the
path, and the error handler does not stage that header itself, the answer has one field `allow`.
Cut at each comma and blank, it is the names of exactly those methods for which the path finds a
route, in canonical order, each once; the method of the request is not among them.  With the
default classes of errors the status is 405, if the error handler leaves it.  If no route matches
the path, there is no such field, and the status is 404 in the same way. -/
theorem App.rejected_with_methods {a : App} {routes : List Route}
    (ht : a.table.groups.Perm (RouteTable.ofRoutes routes).groups) (request : Request)
    (receiver : Receiver) (limit : Option Nat) (poolStarted : Bool)
    (hnone : ¬∃ r ∈ routes, r.method = request.method ∧ r.accepts request.path = true)
    (hheader : ∀ d, a.HandlerDoes (a.session request receiver limit poolStarted) d →
      d.header? ≠ some "allow") :
    let s := a.session request receiver limit poolStarted
    let t := (a.answer s).2
    (t.channel.receiver ≠ .gone → ∃ x, t.channel.answer = some x) ∧
    ((∃ r ∈ routes, r.accepts request.path = true) →
      ∃ ms : List Method, ∃ line : String, (ms.Pairwise fun m n => m.rank < n.rank) ∧
        (∀ m, m ∈ ms ↔ ∃ r captures, a.table.lookup m request.path = .matched r captures) ∧
        request.method ∉ ms ∧
        Text.parts ", ".toList line.toList = (ms.map fun m => m.name.toList) ∧
        ∀ x, t.channel.answer = some x →
          x.headers.fieldsOf "allow" = [("allow", Bytes.ofText line)] ∧
          (a.classify = Failure.statusCode →
            (∀ d, a.HandlerDoes s d → ∀ status, d.status? = some status →
              status = .methodNotAllowed) → x.status = .methodNotAllowed)) ∧
    ((¬∃ r ∈ routes, r.accepts request.path = true) →
      ∀ x, t.channel.answer = some x →
        x.headers.fieldsOf "allow" = [] ∧
        (a.classify = Failure.statusCode →
          (∀ d, a.HandlerDoes s d → ∀ status, d.status? = some status → status = .notFound) →
            x.status = .notFound)) := by
  intro s t
  have h : a.table.Holds routes := (RouteTable.holds_ofRoutes routes).of_perm ht
  have hs : Coherent s := a.coherent_session request receiver limit poolStarted
  have hunanswered : s.channel.answer = none := rfl
  by_cases hother : ∃ r ∈ routes, r.accepts request.path = true
  · have hrejection := App.rejection?_of_others (s := s) h hnone hother
    have hstaged := Session.keeps_stageHeader s "allow"
      (App.methodLine (a.table.allowedMethods request.path))
    have hu := (Session.Step.perform s (.stage (.header "allow"
      (App.methodLine (a.table.allowedMethods request.path))))).coherent hs
    have hne : a.table.allowedMethods request.path ≠ [] := by
      obtain ⟨r, hr, haccepts⟩ := hother
      exact List.ne_nil_of_mem (h.mem_allowedMethods.2 ⟨r, hr, rfl, haccepts⟩)
    refine ⟨App.exists_answer_rejected hrejection hu, fun _ => ?_, fun he => absurd hother he⟩
    refine ⟨_, App.methodLine _, h.pairwise_allowedMethods request.path,
      fun m => h.mem_allowedMethods.trans h.exists_matched_iff.symm,
      fun hm => hnone (h.mem_allowedMethods.1 hm), App.parts_methodLine hne, fun x hx => ?_⟩
    obtain ⟨hfields, hstatus⟩ := App.answer_rejected hrejection
      (hstaged.answer.trans hunanswered) hheader hx
    refine ⟨hfields.trans (App.fieldsOf_stageHeader_allow rfl _), fun hclassify hleaves => ?_⟩
    have hcode : a.classify (.ofError (.methodNotAllowed request.method request.path
        (a.table.allowedMethods request.path))) = .methodNotAllowed := by
      rw [hclassify]
      rfl
    refine (hstatus fun d hd status hs => ?_).trans hcode
    exact (hleaves d hd status hs).trans hcode.symm
  · have hrejection := App.rejection?_of_none (s := s) h hother
    refine ⟨App.exists_answer_rejected hrejection hs, fun he => absurd he hother, fun _ x hx => ?_⟩
    obtain ⟨hfields, hstatus⟩ := App.answer_rejected hrejection hunanswered hheader hx
    refine ⟨hfields, fun hclassify hleaves => ?_⟩
    have hcode : a.classify (.ofError (.routeNotFound request.path)) = .notFound := by
      rw [hclassify]
      rfl
    refine (hstatus fun d hd status hs => ?_).trans hcode
    exact (hleaves d hd status hs).trans hcode.symm

/-- An application with two routes for one path, whose error handler panics. -/
def App.brittleRoots : App where
  table := ⟨[(.post, [RouteTable.rootRoute .post]), (.get, [RouteTable.rootRoute .get])]⟩
  errorHandler := fun _ _ => .panic (.fixed "no answer")

/-- A request for that path with another method. -/
def App.brittleRootsRequest : Request := { method := .delete, path := "/" }

/-- The panic takes neither the status nor the line of methods from the answer. -/
theorem App.rejected_with_methods_brittleRoots :
    let s := brittleRoots.session brittleRootsRequest .held none false
    let routes := [RouteTable.rootRoute .get, RouteTable.rootRoute .post]
    brittleRoots.table.groups.Perm (RouteTable.ofRoutes routes).groups ∧
      (¬∃ r ∈ routes, r.method = .delete ∧ r.accepts "/" = true) ∧
      (∀ d, brittleRoots.HandlerDoes s d → d.header? ≠ some "allow") ∧
      ∃ x, (brittleRoots.answer s).2.channel.answer = some x ∧ x.status = .methodNotAllowed ∧
        ∃ ms : List Method, ∃ line : String, (ms.Pairwise fun m n => m.rank < n.rank) ∧
          (∀ m, m ∈ ms ↔
            ∃ r captures, brittleRoots.table.lookup m "/" = .matched r captures) ∧
          Text.parts ", ".toList line.toList = (ms.map fun m => m.name.toList) ∧
          x.headers.fieldsOf "allow" = [("allow", Bytes.ofText line)] := by
  intro s routes
  have hperm : brittleRoots.table.groups.Perm (RouteTable.ofRoutes routes).groups := by
    have hgroups : (RouteTable.ofRoutes routes).groups =
        [(.get, [RouteTable.rootRoute .get]), (.post, [RouteTable.rootRoute .post])] := by
      simp [routes, RouteTable.ofRoutes, RouteTable.grouped, RouteTable.push,
        RouteTable.rootRoute, RouteTable.arranged]
    rw [hgroups]
    exact .swap _ _ _
  have hnone : ¬∃ r ∈ routes, r.method = .delete ∧ r.accepts "/" = true := by
    simp [routes, RouteTable.rootRoute]
  have hnothing : ∀ d, ¬brittleRoots.HandlerDoes s d := by
    rintro d ⟨f, u, -, n, -, hdoes⟩
    cases hdoes
  have hheld : ∀ ms, (brittleRoots.boundary.answer (.ofError (.methodNotAllowed .delete "/" ms))
      none (s.stageHeader "allow" (methodLine ms))).2.channel.receiver = .held := by
    intro ms
    rw [Session.stageHeader, name?_allow, ofText?_methodLine]
    rfl
  have hwaits : (brittleRoots.answer s).2.channel.receiver ≠ .gone := by
    have hother : ∃ r ∈ routes, r.accepts "/" = true := ⟨_, List.mem_cons_self, by rfl⟩
    have hrejection := rejection?_of_others (s := s)
      ((RouteTable.holds_ofRoutes routes).of_perm hperm) hnone hother
    rw [answer_of_rejection? hrejection]
    exact fun hgone => by cases (hheld _).symm.trans hgone
  obtain ⟨hanswered, hothers, -⟩ := rejected_with_methods hperm brittleRootsRequest .held none false
    hnone fun d hd => absurd hd (hnothing d)
  obtain ⟨x, hx⟩ := hanswered hwaits
  obtain ⟨ms, line, hsorted, hmem, -, hparts, hline⟩ :=
    hothers ⟨_, List.mem_cons_self, by rfl⟩
  obtain ⟨hfields, hstatus⟩ := hline x hx
  exact ⟨hperm, hnone, fun d hd => absurd hd (hnothing d), x, hx,
    hstatus rfl fun d hd => absurd hd (hnothing d), ms, line, hsorted, hmem, hparts, hfields⟩

end HttpApp
