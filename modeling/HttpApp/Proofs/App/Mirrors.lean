/-
  HttpApp/Proofs/App/Mirrors.lean --- runs that do not depend on where they run.

  A script is unaware of its thread if what it does behind a look at the context would
  be the same on another thread, as those of the library are
  (`Route.unaware_of_library`).  `Mirrors` says that a run does the same in exchanges
  that are alike.  Main statements: scripts that are unaware do, and so do answers to
  errors, hooks, outcomes and tasks that are made of them; and where the executor is
  inline, all do (`mirrors_settle`), and so do whole answers (`App.mirrors_answer`).
-/
import HttpApp.Hooks
import HttpApp.Proofs.App.Course
import HttpApp.Proofs.Session.Alike

set_option autoImplicit false

namespace HttpApp

open Session (Acts Alike Patient Reaches)

/-! ## Scripts that are unaware of their thread -/

/-- A script does not see where it runs, and what it ends with has some property. -/
inductive Script.Unaware {α : Type} (P : α → Prop) : Script α → Prop where
  | ret {a : α} : P a → Unaware P (.ret a)
  | panic {p : Payload} : Unaware P (.panic p)
  | look {next : Context → Script α} : (∀ c, Unaware P (next c)) →
      (∀ c here, next (c.on here) = next c) → Unaware P (.ask .look next)
  | ask {op : Op} {next : op.Reply → Script α} : op ≠ .look → (∀ reply, Unaware P (next reply)) →
      Unaware P (.ask op next)
  | sendError {f : Failure} {status : Option Status} {next : Script α} :
      Unaware P next → Unaware P (.sendError f status next)

/-- No task and no callback that an outcome leads to sees where it runs. -/
inductive Outcome.Unaware : Outcome → Prop where
  | render (m : Model) : Unaware (.render m)
  | done : Unaware .done
  | dispatch {executor : Option String} {task : Script (Except Failure Outcome)} :
      task.Unaware (fun result => ∀ o, result = .ok o → Outcome.Unaware o) →
      Unaware (.dispatch executor task)
  | detach {ownThread : Bool} {callback : Script Custody} :
      callback.Unaware (fun _ => True) → Unaware (.detach ownThread callback)

/-- A result leads to nothing that sees where it runs. -/
def Outcome.UnawareResult (result : Except Failure Outcome) : Prop :=
  ∀ o, result = .ok o → o.Unaware

def ErrorBoundary.Unaware (b : ErrorBoundary) : Prop :=
  ∀ f status, (b.handler f status).Unaware fun _ => True

/-- Neither the error handler of a route nor its hooks after the handler see where they run. -/
structure Route.Unaware (a : App) (r : Route) : Prop where
  boundary : (a.boundaryOf r).Unaware
  after : ∀ h ∈ r.hooks, h.after.Unaware fun _ => True

theorem Script.Unaware.only {α : Type} {P : α → Prop} {y : Script α} (hy : y.Unaware P) :
    y.Only (fun _ => True) P := by
  induction hy with
  | ret ha => exact .ret ha
  | panic => exact .panic
  | look _ _ ih => exact .ask trivial ih
  | ask _ _ ih => exact .ask trivial ih
  | sendError _ ih => exact .sendError ih

/-! ## Scripts of the library -/

theorem Attempt.unaware_send (y : Sending) : (Attempt.send y).run.Unaware fun _ => True := by
  refine .ask (by simp) fun reply => ?_
  cases reply with
  | ok v => exact .ret trivial
  | error e => exact .ret trivial

/-- The page for errors reads the request, which is the same on every thread. -/
theorem unaware_errorPage (f : Failure) (status : Status) :
    (errorPage f status).Unaware fun _ => True := by
  refine .look (fun c => ?_) fun c here => rfl
  -- A report and the status come first, and the content type before the answer.
  cases status.isServerError <;> refine .ask (by simp) fun _ => .ask (by simp) fun _ => ?_ <;>
    cases c.accepts .json
  all_goals exact .ask (by simp) fun _ => Attempt.unaware_send _

theorem Hook.unaware_logging (withHeaders : Bool) :
    (logging withHeaders).after.Unaware fun _ => True := by
  refine .look (fun c => ?_) fun c here => rfl
  exact .ask (by simp) fun _ => .ret trivial

theorem Hook.unaware_timing : timing.after.Unaware fun _ => True := by
  refine .look (fun c => ?_) fun c here => rfl
  -- What follows depends on whether the first part of the hook kept a time.
  cases hstart : c.attributes.get? .start with
  | none =>
    dsimp only [Script.bind]
    rw [hstart]
    exact .ret trivial
  | some start =>
    dsimp only [Script.bind]
    rw [hstart]
    refine .ask (by simp) fun _ => .ask (by simp) fun time => .ask (by simp) fun _ => ?_
    cases c.started with
    | true => exact .ret trivial
    | false => exact .ask (by simp) fun _ => .ret trivial

/-- The page for errors and the hooks of the library do not see where they run. -/
theorem Route.unaware_of_library {a : App} {r : Route} (hpage : a.errorHandler = errorPage)
    (hroute : r.errorHandler = none)
    (hhooks : ∀ h ∈ r.hooks, (∃ withHeaders, h = .logging withHeaders) ∨ h = .timing ∨
      (∃ x, h = .crossOrigin x) ∨ h = .idle) : r.Unaware a := by
  refine ⟨fun f status => ?_, fun h hmem => ?_⟩
  · change (r.errorHandler.getD a.errorHandler f status).Unaware _
    rw [hroute, hpage]
    exact unaware_errorPage f status
  · rcases hhooks h hmem with ⟨withHeaders, rfl⟩ | rfl | ⟨x, rfl⟩ | rfl
    · exact Hook.unaware_logging withHeaders
    · exact Hook.unaware_timing
    · exact .ret trivial
    · exact .ret trivial

/-! ## Runs in exchanges that are alike -/

/-- A run ends alike in exchanges that are alike, if the caller of the second one does not stop
waiting on the way. -/
def Mirrors (x : Executor) {ε : Type} (run : Session → ε × Session) : Prop :=
  ∀ s t, Alike x s t → Patient x (run t).2 → (run t).1 = (run s).1 ∧ Alike x (run s).2 (run t).2

theorem Mirrors.apply {x : Executor} {ε : Type} {run : Session → ε × Session} {s t t' : Session}
    {ending : ε} (h : Mirrors x run) (hst : Alike x s t) (hrun : run t = (ending, t'))
    (hpatient : Patient x t') : ∃ s', run s = (ending, s') ∧ Alike x s' t' := by
  obtain ⟨hending, hafter⟩ := h s t hst (by rwa [hrun])
  rw [hrun] at hending hafter
  exact ⟨(run s).2, Prod.ext hending.symm rfl, hafter⟩

section
variable {x : Executor}

theorem Script.mirrors_run {α : Type} {P : α → Prop}
    {answer : Failure → Option Status → Session → Ending Unit × Session}
    (hacts : ∀ f status s, Acts s (answer f status s).2)
    (hanswer : ∀ f status, Mirrors x (answer f status)) {y : Script α}
    (hy : x.inline = true ∨ y.Unaware P) : Mirrors x (y.run answer) := by
  induction y with
  | ret a => exact fun s t h _ => ⟨rfl, h⟩
  | panic p => exact fun s t h _ => ⟨rfl, h⟩
  | ask op next ih =>
    intro s t h hpatient
    rw [Script.run] at hpatient
    have hstep : Patient x (t.perform op).2 := (acts_run hacts _ _).reaches.patient hpatient
    rw [Script.run, Script.run]
    rcases hy with hx | hy
    · obtain ⟨hreply, hafter⟩ := h.perform (fun _ => hx) hstep
      rw [hreply] at hpatient ⊢
      exact ih _ (.inl hx) _ _ hafter hpatient
    · cases hy with
      | @look next hnext hsame =>
        have hlook : next t.context = next s.context := by rw [h.context, hsame]
        change Patient x ((next t.context).run answer t).2 at hpatient
        change ((next t.context).run answer t).1 = ((next s.context).run answer s).1 ∧ Alike x
          ((next s.context).run answer s).2 ((next t.context).run answer t).2
        rw [hlook] at hpatient ⊢
        exact ih _ (.inr (hnext _)) s t h hpatient
      | ask hop hnext =>
        obtain ⟨hreply, hafter⟩ := h.perform (fun hlook => absurd hlook hop) hstep
        rw [hreply] at hpatient ⊢
        exact ih _ (.inr (hnext _)) _ _ hafter hpatient
  | sendError f status next ih =>
    intro s t h hpatient
    have hnext : x.inline = true ∨ next.Unaware P := by
      refine hy.imp id fun hy => ?_
      cases hy with
      | sendError hnext => exact hnext
    rw [Script.run] at hpatient
    rw [Script.run, Script.run]
    rcases ht : answer f status t with ⟨_ | p, t'⟩
    · rw [ht] at hpatient
      obtain ⟨s', hs, hafter⟩ := (hanswer f status).apply h ht
        ((acts_run hacts next t').reaches.patient hpatient)
      rw [hs]
      exact ih hnext s' t' hafter hpatient
    · rw [ht] at hpatient
      obtain ⟨s', hs, hafter⟩ := (hanswer f status).apply h ht hpatient
      rw [hs]
      exact ⟨rfl, hafter⟩

/-! ## Answers to errors -/

namespace ErrorBoundary

theorem alike_reraise (f : Failure) {s t : Session} (h : Alike x s t) :
    (reraise f t).1 = (reraise f s).1 ∧ Alike x (reraise f s).2 (reraise f t).2 := by
  cases f with
  | recoverable contexts cause => exact ⟨rfl, h⟩
  | fatal f => exact ⟨rfl, h.add_both rfl rfl⟩

theorem alike_handling (f : Failure) (status : Status) {s t : Session} (h : Alike x s t) :
    Alike x (handling f status s) (handling f status t) :=
  (h.stage _).add _

theorem alike_conclude (f : Failure) (status : Status) (ending : Ending (Except Failure Unit))
    {s t : Session} (h : Alike x s t) :
    Alike x (conclude f status ending s) (conclude f status ending t) := by
  have hbare : ∀ {s t : Session}, Alike x s t → Alike x
      (if s.context.started then s else (s.complete (.bare status)).2)
      (if t.context.started then t else (t.complete (.bare status)).2) := by
    intro s t h
    rw [h.started]
    split
    · exact h
    · exact (h.complete _).2
  unfold conclude
  cases handlerFailure? ending with
  | none => exact hbare h
  | some reason => exact hbare (h.add_both rfl rfl)

/-- An error is discarded in both of two exchanges that are alike, or in none. -/
theorem alike_discard? (f : Failure) (status : Status) {s t : Session} (h : Alike x s t) :
    (discard? f status t = none ∧ discard? f status s = none) ∨
      ∃ s' t', discard? f status s = some s' ∧ discard? f status t = some t' ∧ Alike x s' t' := by
  unfold discard?
  rw [h.started, h.isClosed]
  split
  · exact .inr ⟨_, _, rfl, rfl, h.add_both rfl rfl⟩
  · split
    · exact .inr ⟨_, _, rfl, rfl, h.add_both rfl rfl⟩
    · exact .inl ⟨rfl, rfl⟩

theorem mirrors_answerWithin {b : ErrorBoundary} (hb : x.inline = true ∨ b.Unaware) (limit : Nat)
    (f : Failure) (status : Option Status) : Mirrors x (b.answerWithin limit f status) := by
  induction limit generalizing f status with
  | zero =>
    intro s t h hpatient
    rw [answerWithin, answerWithin]
    rcases alike_discard? f (status.getD (b.classify f)) h with ⟨ht, hs⟩ | ⟨s', t', hs, ht, h'⟩
    · rw [ht, hs]
      exact alike_reraise f (alike_conclude f _ _ (alike_handling f _ h))
    · rw [ht, hs]
      exact alike_reraise f h'
  | succ limit ih =>
    intro s t h hpatient
    rw [answerWithin] at hpatient
    rw [answerWithin, answerWithin]
    rcases alike_discard? f (status.getD (b.classify f)) h with ⟨ht, hs⟩ | ⟨s', t', hs, ht, h'⟩
    · rw [ht] at hpatient
      rw [ht, hs]
      dsimp only at hpatient ⊢
      generalize status.getD (b.classify f) = code at hpatient ⊢
      have hrun : Mirrors x ((b.handler f code).run (b.answerWithin limit)) :=
        Script.mirrors_run (b.acts_answerWithin limit) ih (hb.imp id fun hb => hb f code)
      rcases ht : (b.handler f code).run (b.answerWithin limit) (handling f code t) with ⟨ending, t'⟩
      rw [ht] at hpatient
      have hacts : Acts t' (reraise f (conclude f code ending t')).2 :=
        (acts_conclude f code ending t').trans (acts_reraise f _)
      obtain ⟨s', hs, h'⟩ := hrun.apply (alike_handling f code h) ht
        (hacts.reaches.patient hpatient)
      rw [hs]
      exact alike_reraise f (alike_conclude f code ending h')
    · rw [ht, hs]
      exact alike_reraise f h'

theorem mirrors_answer {b : ErrorBoundary} (hb : x.inline = true ∨ b.Unaware) (f : Failure)
    (status : Option Status) : Mirrors x (b.answer f status) :=
  mirrors_answerWithin hb b.nesting f status

end ErrorBoundary

/-! ## Hooks and sending -/

section
variable {b : ErrorBoundary}

theorem Hook.mirrors_runAfter (hb : x.inline = true ∨ b.Unaware) {hooks : List Hook}
    (hhooks : x.inline = true ∨ ∀ h ∈ hooks, h.after.Unaware fun _ => True) (place : Nat) :
    Mirrors x (Hook.runAfter b place hooks) := by
  induction hooks generalizing place with
  | nil => exact fun s t h _ => ⟨rfl, h⟩
  | cons hook hooks ih =>
    have hrest := ih (hhooks.imp id fun hhooks h hh => hhooks h (List.mem_cons_of_mem _ hh))
      (place + 1)
    have hafter : Mirrors x (hook.after.run b.answer) :=
      Script.mirrors_run b.acts_answer (ErrorBoundary.mirrors_answer hb)
        (hhooks.imp id fun hhooks => hhooks hook List.mem_cons_self)
    intro s t h hpatient
    rw [Hook.runAfter] at hpatient
    rw [Hook.runAfter, Hook.runAfter]
    rcases ht : Hook.runAfter b (place + 1) hooks t with ⟨_ | p, t'⟩
    · rw [ht] at hpatient
      have hreaches : Reaches t' (hook.after.run b.answer (t'.called (.after place))).2 :=
        .head (.add t' _) (Script.acts_run b.acts_answer hook.after _).reaches
      obtain ⟨s', hs, h'⟩ := hrest.apply h ht (hreaches.patient hpatient)
      rw [hs]
      exact hafter _ _ (h'.add _) hpatient
    · rw [ht] at hpatient
      obtain ⟨s', hs, h'⟩ := hrest.apply h ht hpatient
      rw [hs]
      exact ⟨rfl, h'⟩

/-- What is sent behind the hooks after the handler, if none of them panics. -/
theorem Hook.mirrors_behindRunAfter (hb : x.inline = true ∨ b.Unaware) {hooks : List Hook}
    (hhooks : x.inline = true ∨ ∀ h ∈ hooks, h.after.Unaware fun _ => True)
    {send : Session → Ending Unit × Session} (hsend : Mirrors x send)
    (hreaches : ∀ s, Reaches s (send s).2) :
    Mirrors x fun s =>
      match Hook.runAfter b 0 hooks s with
      | (.panicked p, s) => (.panicked p, s)
      | (.returned _, s) => send s := by
  intro s t h hpatient
  dsimp only at hpatient ⊢
  rcases ht : Hook.runAfter b 0 hooks t with ⟨_ | p, t'⟩ <;> rw [ht] at hpatient
  · obtain ⟨s', hs, h'⟩ := (mirrors_runAfter hb hhooks 0).apply h ht
      ((hreaches t').patient hpatient)
    rw [hs]
    exact hsend s' t' h' hpatient
  · obtain ⟨s', hs, h'⟩ := (mirrors_runAfter hb hhooks 0).apply h ht hpatient
    rw [hs]
    exact ⟨rfl, h'⟩

theorem Session.mirrors_sendModel (hb : x.inline = true ∨ b.Unaware) (m : Model) :
    Mirrors x (Session.sendModel b m) := by
  intro s t h hpatient
  obtain ⟨hsent, h'⟩ := h.send (.model m)
  rcases hs : s.send (.model m) with ⟨result, s'⟩
  rcases ht : t.send (.model m) with ⟨result', t'⟩
  rw [hs, ht] at hsent h'
  obtain rfl : result' = result := hsent
  rw [sendModel, ht] at hpatient
  rw [sendModel, sendModel, hs, ht]
  cases result' with
  | ok _ => exact ⟨rfl, h'⟩
  | error e => exact ErrorBoundary.mirrors_answer hb _ _ s' t' h' hpatient

theorem Session.Alike.sendImplied {s t : Session} (h : Alike x s t) :
    Alike x s.sendImplied t.sendImplied := by
  have hstatus := h.read Context.status fun _ _ => rfl
  obtain ⟨hsent, h'⟩ := h.sendStatus s.context.status
  rcases hs : s.sendStatus s.context.status with ⟨result, s'⟩
  rcases ht : t.sendStatus s.context.status with ⟨result', t'⟩
  rw [hs, ht] at hsent h'
  obtain rfl : result' = result := hsent
  unfold Session.sendImplied
  rw [h.started, hstatus, hs, ht]
  split
  · exact h
  · cases result' with
    | ok _ => exact h'
    | error e => exact h'.add_both rfl rfl

theorem Script.mirrors_detach (hb : x.inline = true ∨ b.Unaware) (ownThread : Bool)
    {callback : Script Custody} (hcallback : x.inline = true ∨ callback.Unaware fun _ => True) :
    Mirrors x (callback.detach b ownThread) := by
  have hrun : Mirrors x (callback.run b.answer) :=
    Script.mirrors_run b.acts_answer (ErrorBoundary.mirrors_answer hb) hcallback
  intro s t h hpatient
  have hcalled : Alike x (s.called .detached) (t.called .detached) := h.add _
  unfold Script.detach at hpatient ⊢
  cases ownThread with
  | true =>
    dsimp only [if_true] at hpatient ⊢
    rcases ht : callback.run b.answer (t.called .detached).handOff with ⟨custody | p, t'⟩ <;>
      rw [ht] at hpatient <;> obtain ⟨s', hs, h'⟩ := hrun.apply hcalled.handOff ht hpatient <;>
      rw [hs]
    · exact ⟨rfl, { h' with kept := rfl }⟩
    · exact ⟨rfl, h'⟩
  | false =>
    simp only [Bool.false_eq_true, if_false] at hpatient ⊢
    rcases ht : callback.run b.answer (t.called .detached) with ⟨custody | p, t'⟩ <;>
      rw [ht] at hpatient
    · obtain ⟨s', hs, h'⟩ := hrun.apply hcalled ht hpatient
      rw [hs]
      exact ⟨rfl, { h' with kept := rfl }⟩
    · have hreported : Reaches t' (t'.log .error "Detached callback panicked; re-raising"
          [Event.textField "path" t'.context.request.path]) := .single (.add t' _)
      obtain ⟨s', hs, h'⟩ := hrun.apply hcalled ht (hreported.patient hpatient)
      rw [hs]
      exact ⟨rfl, h'.add_both rfl rfl⟩

end

/-! ## Executors -/

theorem Executor.alike_absorb (y : Executor) {s t : Session} (h : Alike x s t)
    (ending : Ending Unit) :
    (y.absorb (ending, t)).1 = (y.absorb (ending, s)).1 ∧
      Alike x (y.absorb (ending, s)).2 (y.absorb (ending, t)).2 := by
  unfold absorb
  cases y.placement with
  | worker name =>
    cases ending with
    | returned => exact ⟨rfl, h⟩
    | panicked p => exact ⟨rfl, h.add_both rfl rfl⟩
  | _ => exact ⟨rfl, h⟩

theorem Executor.reaches_absorb (y : Executor) (run : Ending Unit × Session) :
    Reaches run.2 (y.absorb run).2 := by
  rcases y.absorb_snd run with heq | ⟨e, heq⟩
  · rw [heq]
  · rw [heq]
    exact .single (.add _ _)

theorem Executor.mirrors_execute (y : Executor) {job : Session → Ending Unit × Session}
    (hjob : Mirrors x job) : Mirrors x (y.execute job) := by
  intro s t h hpatient
  by_cases hy : y.placement = .nowhere
  · unfold execute
    rw [hy]
    exact ⟨rfl, h.add_both rfl rfl⟩
  rw [execute_eq_absorb hy] at hpatient
  rw [execute_eq_absorb hy, execute_eq_absorb hy]
  have hstart : Alike x (if y.placement = .caller then s else s.handOff)
      (if y.placement = .caller then t else t.handOff) := by
    split
    · exact h
    · exact h.handOff
  rcases ht : job (if y.placement = .caller then t else t.handOff) with ⟨ending, t'⟩
  rw [ht] at hpatient
  obtain ⟨s', hs, h'⟩ := hjob.apply hstart ht ((y.reaches_absorb (ending, t')).patient hpatient)
  rw [hs]
  exact alike_absorb y h' ending

/-- The pool of workers can start in one exchange and run already in the other. -/
theorem Session.Alike.startPool_right {s t : Session} (h : Alike x s t) (w : Workers)
    (executor : Option String) : Alike x s (t.startPool w executor) := by
  have hpool : Alike x s { t with poolStarted := true } := { h with }
  unfold startPool
  split
  · exact hpool.add_right rfl
  · exact h

theorem Session.Alike.startPool_left {s t : Session} (h : Alike x s t) (w : Workers)
    (executor : Option String) : Alike x (s.startPool w executor) t := by
  have hpool : Alike x { s with poolStarted := true } t := { h with }
  unfold startPool
  split
  · exact hpool.add_left rfl
  · exact h

theorem Session.Alike.dispatching {s t : Session} (h : Alike x s t) (w : Workers)
    (executor : Option String) (y : Executor) :
    Alike x (s.dispatching w executor y) (t.dispatching w executor y) :=
  ((h.startPool_left w executor).startPool_right w executor).add_both rfl rfl

/-- A context that leaves its thread in both exchanges is on the same thread then. -/
theorem Session.Alike.leave {s t : Session} (h : Alike x s t) :
    Alike x (s.withContext fun c => c.on false) (t.withContext fun c => c.on false) := by
  refine { h with context := ?_, inIoThread := fun _ => rfl }
  change t.context.on false = (s.context.on false).on false
  rw [h.context]
  rfl

theorem Session.Alike.leave_right {s t : Session} (h : Alike x s t) (hx : ¬x.inline = true) :
    Alike x s (t.withContext fun c => c.on false) := by
  refine { h with context := ?_, inIoThread := fun hinline => absurd hinline hx }
  change t.context.on false = s.context.on false
  rw [h.context]
  rfl

theorem Session.Alike.entering {s t : Session} (h : Alike x s t) (y : Executor) :
    Alike x (s.entering y) (t.entering y) := by
  unfold Session.entering
  dsimp only
  split
  · exact h.add _
  · exact h.leave.add _

/-- An exchange that is handed over is like one that goes on where it is. -/
theorem Session.Alike.entering_handedTo {s t : Session} (h : Alike x s t) (a : App)
    (executor : Option String) : Alike x s ((t.handedTo a executor x).entering x) := by
  have hdispatching : Alike x s (t.dispatching a.workers executor x) :=
    (h.startPool_right a.workers executor).add_right rfl
  have hhanded : Alike x s (t.handedTo a executor x) := by
    unfold handedTo
    dsimp only
    split
    · exact hdispatching
    · next hx => exact hdispatching.handOff_right hx
  unfold Session.entering
  dsimp only
  split
  · exact hhanded.add_right rfl
  · next hx => exact (hhanded.leave_right hx).add_right rfl

/-! ## Outcomes -/

section
variable {a : App} {r : Route}

theorem mirrors_settle_of_resolve (hr : x.inline = true ∨ r.Unaware a)
    {result : Except Failure Outcome}
    (hresolve : ∀ o, result = .ok o → Mirrors x (o.resolve a r)) :
    Mirrors x (settle a r result) := by
  cases result with
  | ok o => exact hresolve o rfl
  | error f => exact ErrorBoundary.mirrors_answer (hr.imp id Route.Unaware.boundary) f none

/-- Running a task mirrors if settling whatever it ends with does. -/
theorem mirrors_runTask (hr : x.inline = true ∨ r.Unaware a)
    {task : Script (Except Failure Outcome)}
    (htask : x.inline = true ∨ task.Unaware Outcome.UnawareResult)
    (hresolve : ∀ answer s o t, task.run answer s = (.returned (.ok o), t) →
      Mirrors x (o.resolve a r)) : Mirrors x (runTask a r task) := by
  intro s t h hpatient
  have hrun : Mirrors x (task.run (a.boundaryOf r).answer) :=
    Script.mirrors_run (a.boundaryOf r).acts_answer
      (ErrorBoundary.mirrors_answer (hr.imp id Route.Unaware.boundary)) htask
  rw [runTask_eq] at hpatient
  rw [runTask_eq, runTask_eq]
  rcases ht : task.run (a.boundaryOf r).answer t with ⟨ending, t'⟩
  rw [ht] at hpatient
  obtain ⟨s', hs, h'⟩ := hrun.apply h ht ((reaches_settle a r ending.guard t').patient hpatient)
  rw [hs]
  refine mirrors_settle_of_resolve hr (fun o ho => ?_) s' t' h' hpatient
  obtain rfl := Ending.eq_of_guard_eq_ok ho
  exact hresolve _ t o t' ht

theorem Outcome.mirrors_resolve (hr : x.inline = true ∨ r.Unaware a) {o : Outcome}
    (ho : x.inline = true ∨ o.Unaware) : Mirrors x (o.resolve a r) := by
  have hboundary := hr.imp id Route.Unaware.boundary
  have hhooks := hr.imp id Route.Unaware.after
  induction o using Outcome.induction with
  | render m =>
    intro s t h hpatient
    rw [Outcome.resolve] at hpatient
    rw [Outcome.resolve, Outcome.resolve]
    exact Hook.mirrors_behindRunAfter hboundary hhooks (Session.mirrors_sendModel hboundary m)
      (Session.reaches_sendModel _ m) s t h hpatient
  | done =>
    intro s t h hpatient
    rw [Outcome.resolve] at hpatient
    rw [Outcome.resolve, Outcome.resolve]
    have himplied : Mirrors x fun s => (Ending.returned (), s.sendImplied) :=
      fun s t h _ => ⟨rfl, h.sendImplied⟩
    exact Hook.mirrors_behindRunAfter hboundary hhooks himplied Session.reaches_sendImplied s t h
      hpatient
  | dispatch executor task ih =>
    intro s t h hpatient
    rw [Outcome.resolve] at hpatient
    rw [Outcome.resolve, Outcome.resolve]
    cases hy : a.workers.get? executor with
    | none =>
      rw [hy] at hpatient
      exact ErrorBoundary.mirrors_answer hboundary _ none s t h hpatient
    | some y =>
      rw [hy] at hpatient
      have htask : x.inline = true ∨ task.Unaware Outcome.UnawareResult := by
        refine ho.imp id fun ho => ?_
        cases ho with
        | dispatch htask => exact htask
      have hrun : Mirrors x (runTask a r task) := by
        refine mirrors_runTask hr htask fun answer s o t hends => ?_
        exact ih answer s o t hends (htask.imp id fun htask => htask.only.of_run hends o rfl)
      have hjob : Mirrors x fun s => runTask a r task (s.entering y) :=
        fun s t h hpatient => hrun _ _ (h.entering y) hpatient
      exact Executor.mirrors_execute y hjob _ _ (h.dispatching a.workers executor y) hpatient
  | detach ownThread callback =>
    refine Script.mirrors_detach hboundary ownThread (ho.imp id fun ho => ?_)
    cases ho with
    | detach hcallback => exact hcallback

/-- Settling a result does not depend on where it is done, if nothing that is run then sees that,
or if the executor is inline. -/
theorem mirrors_settle (hr : x.inline = true ∨ r.Unaware a) {result : Except Failure Outcome}
    (hresult : x.inline = true ∨ Outcome.UnawareResult result) : Mirrors x (settle a r result) :=
  mirrors_settle_of_resolve hr fun o ho =>
    Outcome.mirrors_resolve hr (hresult.imp id fun hresult => hresult o ho)

end

/-! ## Whole answers -/

section
variable (hx : x.inline = true)
include hx

theorem Hook.mirrors_runFirst (b : ErrorBoundary) (place : Nat) (h : Hook) :
    Mirrors x (h.runFirst b place) := by
  intro s t hst hpatient
  have hrun : Mirrors x (h.before.run b.answer) :=
    Script.mirrors_run (P := fun _ => True) b.acts_answer (ErrorBoundary.mirrors_answer (.inl hx))
      (.inl hx)
  have hcalled : Alike x (s.called (.before place)) (t.called (.before place)) := hst.add _
  rw [Hook.runFirst] at hpatient
  rw [Hook.runFirst, Hook.runFirst]
  rcases ht : h.before.run b.answer (t.called (.before place)) with
    ⟨(_ | _ | o) | p, t'⟩ <;> rw [ht] at hpatient
  case returned.ok.respond =>
    have hhalted : Reaches t' (t'.log .debug "Middleware halted the chain"
        [Event.textField "middleware" h.name]) := .single (.add t' _)
    obtain ⟨s', hs, h'⟩ := hrun.apply hcalled ht (hhalted.patient hpatient)
    rw [hs]
    exact ⟨rfl, h'.add_both rfl rfl⟩
  all_goals
    obtain ⟨s', hs, h'⟩ := hrun.apply hcalled ht hpatient
    rw [hs]
    exact ⟨rfl, h'⟩

theorem Hook.mirrors_runBefore (b : ErrorBoundary) (hooks : List Hook) (place : Nat) :
    Mirrors x (Hook.runBefore b place hooks) := by
  induction hooks generalizing place with
  | nil => exact fun s t h _ => ⟨rfl, h⟩
  | cons hook hooks ih =>
    intro s t h hpatient
    have hfirst := Hook.mirrors_runFirst hx b place hook
    rw [Hook.runBefore] at hpatient
    rw [Hook.runBefore, Hook.runBefore]
    rcases ht : hook.runFirst b place t with ⟨(_ | _ | o) | p, t'⟩ <;> rw [ht] at hpatient
    case returned.ok.proceed =>
      obtain ⟨s', hs, h'⟩ := hfirst.apply h ht
        ((Hook.reaches_runBefore b hooks (place + 1) t').patient hpatient)
      rw [hs]
      exact ih (place + 1) s' t' h' hpatient
    all_goals
      obtain ⟨s', hs, h'⟩ := hfirst.apply h ht hpatient
      rw [hs]
      exact ⟨rfl, h'⟩

variable (a : App) (r : Route)

theorem Route.mirrors_runFrom (place : Nat) : Mirrors x (r.runFrom a place) := by
  intro s t h hpatient
  have hbefore := Hook.mirrors_runBefore hx (a.boundaryOf r) (r.hooks.drop place) place
  have hhandler : Mirrors x (r.handler.run (a.boundaryOf r).answer) :=
    Script.mirrors_run (P := fun _ => True) (a.boundaryOf r).acts_answer
      (ErrorBoundary.mirrors_answer (.inl hx)) (.inl hx)
  rw [Route.runFrom] at hpatient
  rw [Route.runFrom, Route.runFrom]
  rcases ht : Hook.runBefore (a.boundaryOf r) place (r.hooks.drop place) t with
    ⟨(_ | _ | o) | p, t'⟩ <;> rw [ht] at hpatient
  case returned.ok.proceed =>
    have hreaches : Reaches t' (r.handler.run (a.boundaryOf r).answer (t'.called .handler)).2 :=
      .head (.add t' _) (Script.reaches_run (a.boundaryOf r).reaches_answer _ _)
    obtain ⟨s', hs, h'⟩ := hbefore.apply h ht (hreaches.patient hpatient)
    rw [hs]
    exact hhandler _ _ (h'.add _) hpatient
  all_goals
    obtain ⟨s', hs, h'⟩ := hbefore.apply h ht hpatient
    rw [hs]
    exact ⟨rfl, h'⟩

theorem Route.mirrors_answer : Mirrors x (r.answer a) := by
  intro s t h hpatient
  rw [Route.answer] at hpatient
  rw [Route.answer, Route.answer]
  rcases ht : r.runFrom a 0 t with ⟨ending, t'⟩
  rw [ht] at hpatient
  obtain ⟨s', hs, h'⟩ := (r.mirrors_runFrom hx a 0).apply h ht
    ((reaches_settle a r ending.guard t').patient hpatient)
  rw [hs]
  exact mirrors_settle (.inl hx) (.inl hx) s' t' h' hpatient

/-- An answer does not depend on how long the caller waits, if it does not wait in vain. -/
theorem App.mirrors_answer : Mirrors x a.answer := by
  intro s t h hpatient
  have hrequest : t.context.request = s.context.request := h.read Context.request fun _ _ => rfl
  have herror : ∀ f, Mirrors x (a.boundary.answer f none) := fun f =>
    ErrorBoundary.mirrors_answer (.inl hx) f none
  rw [App.answer, hrequest] at hpatient
  rw [App.answer, App.answer, hrequest]
  split at hpatient
  · next route captures hlookup =>
    have hbound : Alike x (s.bound route captures) (t.bound route captures) :=
      h.withContext (fun c => { c with endpoint := some route.toEndpoint, captures }) fun _ _ => rfl
    exact route.mirrors_answer hx a _ _ hbound hpatient
  · exact herror _ s t h hpatient
  · exact herror _ _ _ (h.stageHeader _ _) hpatient

end

end

end HttpApp
