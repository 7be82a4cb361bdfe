/-
  HttpApp/Proofs/App/Unwinding.lean --- which panics leave a request.

  A panic of a hook before the handler, of the handler or of a task is a fatal
  failure, and fatal failures are raised again once they are answered.  Whatever an
  error handler does while it answers one is caught.  Main statement: the request
  ends with the very payload of the work that raised it, as the last thing that is
  done, and it ends without a panic where no work raises anything.
-/
import HttpApp.Proofs.App.Progress

set_option autoImplicit false

namespace HttpApp

open Session (Reaches)

/-! ## Answers to errors -/

namespace ErrorBoundary

/-- Answering an error ends by raising it again if it is fatal, whatever was done before that.
The error handler is called first if an answer can still be sent. -/
theorem exists_reraise (b : ErrorBoundary) (limit : Nat) (f : Failure) (status : Option Status)
    (s : Session) : ∃ t, Reaches s t ∧ b.answerWithin limit f status s = reraise f t ∧
      (s.context.started = false → s.isClosed = false →
        s.record ++ [.call (.errorHandler f (status.getD (b.classify f)))] <+: t.record) := by
  generalize hstatus : status.getD (b.classify f) = code
  cases hdiscard : discard? f code s with
  | some t =>
    refine ⟨t, reaches_of_discard? hdiscard,
      by cases limit <;> simp only [answerWithin, hstatus, hdiscard], ?_⟩
    intro hstarted hclosed
    rw [discard?_eq_none hstarted hclosed] at hdiscard
    simp at hdiscard
  | none =>
    -- The call is in the record of the session in which the error handler begins.
    have hhandling := reaches_handling f code s
    cases limit with
    | zero =>
      have hreaches := reaches_conclude f code (.panicked nestingPanic) (handling f code s)
      exact ⟨_, hhandling.trans hreaches, by simp only [answerWithin, hstatus, hdiscard],
        fun _ _ => hreaches.record⟩
    | succ limit =>
      obtain ⟨ending, t, hrun⟩ : ∃ ending t,
          (b.handler f code).run (b.answerWithin limit) (handling f code s) = (ending, t) :=
        ⟨_, _, rfl⟩
      have hreaches : Reaches (handling f code s) (conclude f code ending t) :=
        ((Script.reaches_run (b.reaches_answerWithin limit) _ _).of_run hrun).trans
          (reaches_conclude f code ending t)
      exact ⟨_, hhandling.trans hreaches, by simp only [answerWithin, hstatus, hdiscard, hrun],
        fun _ _ => hreaches.record⟩

/-- Answering a recoverable error raises nothing, whatever the error handler does. -/
theorem answerWithin_recoverable (b : ErrorBoundary) {f : Failure} (hf : f.isFatal = false)
    (limit : Nat) (status : Option Status) (s : Session) :
    (b.answerWithin limit f status s).1 = .returned () := by
  obtain ⟨t, -, heq, -⟩ := b.exists_reraise limit f status s
  rw [heq]
  cases f with
  | recoverable contexts cause => rfl
  | fatal f => simp [Failure.isFatal] at hf

theorem answer_recoverable (b : ErrorBoundary) {f : Failure} (hf : f.isFatal = false)
    (status : Option Status) (s : Session) : (b.answer f status s).1 = .returned () :=
  b.answerWithin_recoverable hf b.nesting status s

end ErrorBoundary

theorem Session.sendModel_returned (b : ErrorBoundary) (m : Model) (s : Session) :
    (s.sendModel b m).1 = .returned () := by
  unfold Session.sendModel
  split
  · rfl
  · exact b.answer_recoverable rfl none _

/-- Only jobs on the thread of the caller can end it with a panic. -/
theorem Executor.execute_returned (x : Executor) {job : Session → Ending Unit × Session}
    {s : Session} (hjob : x.placement = .caller → (job s).1 = .returned ()) :
    (x.execute job s).1 = .returned () := by
  unfold execute
  split
  · next hcaller => exact hjob hcaller
  · split <;> rfl
  · rfl
  · rfl

/-! ## Works that raise -/

/-- An ending that is a fatal failure, and what that failure raises: the payload of the panic, or
the message of a fatal failure that has no payload. -/
inductive Ending.Raises : Ending (Except Failure Verdict) → Fatal → Payload → Prop
  | panic (p : Payload) : Raises (.panicked p) (.ofPanic p) p
  | fatal (f : Fatal) :
    Raises (.returned (.error (.fatal f))) f (f.payload.getD (.made f.message))

theorem Ending.Raises.result?_eq {ending : Ending (Except Failure Verdict)} {f : Fatal}
    {p : Payload} (h : ending.Raises f p) : ending.result? = some (.error (.fatal f)) := by
  cases h <;> rfl

theorem Ending.Raises.raise_eq {ending : Ending (Except Failure Verdict)} {f : Fatal}
    {p : Payload} (h : ending.Raises f p) : f.raise = p := by
  cases h <;> rfl

/-- What is settled after an ending that raises nothing is an outcome or a recoverable failure. -/
theorem Ending.isFatal_eq_false {ending : Ending (Except Failure Verdict)} {f : Failure}
    (hraises : ∀ f p, ¬ending.Raises f p) (hresult : ending.result? = some (.error f)) :
    f.isFatal = false := by
  match ending, hresult with
  | .returned (.error (.recoverable contexts cause)), rfl => rfl
  | .returned (.error (.fatal f)), rfl => exact absurd (.fatal f) (hraises _ _)
  | .panicked p, rfl => exact absurd (.panic p) (hraises _ _)

namespace App

variable {a : App} {s : Session} {r : Route}

/-- No work of a request on the thread of its caller raises anything. -/
def NeverRaises (a : App) (s : Session) : Prop :=
  ∀ r w u ending v f p, a.Begins s true r w u → w.run a r u = (ending, v) → ¬ending.Raises f p

/-- What a work on the thread of the caller ends with is settled without a panic. -/
theorem settle_returned {w : Work} {u v : Session} {ending : Ending (Except Failure Verdict)}
    {result : Except Failure Outcome} (hraises : a.NeverRaises s)
    (hbegins : a.Begins s true r w u) (hrun : w.run a r u = (ending, v))
    (hresult : ending.result? = some result)
    (hresolve : ∀ o, result = .ok o → a.ComesTo s true r o v →
      (o.resolve a r v).1 = .returned ()) : (settle a r result v).1 = .returned () := by
  cases result with
  | ok o =>
    match ending, hresult with
    | .returned (.ok (.respond o)), rfl => exact hresolve o rfl ⟨w, u, hbegins, hrun⟩
  | error f =>
    have hf : f.isFatal = false :=
      Ending.isFatal_eq_false (fun f p => hraises r w u ending v f p hbegins hrun) hresult
    exact (a.boundaryOf r).answer_recoverable hf none v

/-- The outcomes that a request comes to on the thread of its caller are gone on with without a
panic. -/
theorem resolve_returned (hraises : a.NeverRaises s) (hafter : a.AfterHooksReturn s)
    (hcallbacks : a.CallbacksReturn s) {o : Outcome} {v : Session}
    (hcomes : a.ComesTo s true r o v) : (o.resolve a r v).1 = .returned () := by
  induction o using Outcome.induction generalizing v with
  | render m =>
    rw [Outcome.resolve]
    split
    · next p t heq => exact absurd (congrArg Prod.fst heq) (hafter _ _ _ _ hcomes (.inr ⟨m, rfl⟩) p)
    · exact Session.sendModel_returned _ m _
  | done =>
    rw [Outcome.resolve]
    split
    · next p t heq => exact absurd (congrArg Prod.fst heq) (hafter _ _ _ _ hcomes (.inl rfl) p)
    · rfl
  | dispatch executor task ih =>
    rw [Outcome.resolve]
    split
    · exact (a.boundaryOf r).answer_recoverable rfl none v
    · next x hx =>
      refine x.execute_returned fun hcaller => ?_
      -- The task is begun on the thread of the caller, where it raises nothing.
      have hbegins : a.Begins s true r (.task x task) (v.handedTo a executor x) := by
        simpa [hcaller] using hcomes.begins hx (by simp [hcaller])
      have heq : v.handedTo a executor x = v.dispatching a.workers executor x := by
        simp [Session.handedTo, hcaller]
      rw [heq] at hbegins
      rw [runTask_eq]
      refine settle_returned hraises hbegins rfl (Ending.result?_toVerdict _)
        fun o ho hcomes' => ?_
      exact ih _ _ o _ (Prod.ext (Ending.eq_of_guard_eq_ok ho) rfl) hcomes'
  | detach ownThread callback =>
    cases hrun : (callback.detach (a.boundaryOf r) ownThread v).1 with
    | returned => exact hrun
    | panicked p => exact absurd hrun (hcallbacks _ _ _ _ _ hcomes p)

/-- A request in which no work on the thread of its caller raises anything ends without a panic. -/
theorem answer_returned (hraises : a.NeverRaises s) (hafter : a.AfterHooksReturn s)
    (hcallbacks : a.CallbacksReturn s) : (a.answer s).1 = .returned () := by
  unfold App.answer
  dsimp only
  split
  · next r captures hlookup =>
    obtain ⟨w, u, v, ending, result, hbegins, hrun, hresult⟩ :=
      r.exists_begins_result a (s.bound r captures)
    rw [hbegins.answer_eq hrun hresult]
    exact settle_returned hraises ⟨captures, hlookup, hbegins⟩ hrun hresult fun o _ hcomes =>
      resolve_returned hraises hafter hcallbacks hcomes
  · exact a.boundary.answer_recoverable rfl none s
  · exact a.boundary.answer_recoverable rfl none _

/-- When a work on the thread of the caller ends with a result, the request ends as settling the
result does. -/
theorem Begins.answer_eq {w : Work} {u v : Session} {ending : Ending (Except Failure Verdict)}
    {result : Except Failure Outcome} (hbegins : a.Begins s true r w u)
    (hrun : w.run a r u = (ending, v)) (hresult : ending.result? = some result) :
    a.answer s = settle a r result v := by
  obtain ⟨captures, hlookup, hbegins⟩ := hbegins
  rw [← hbegins.answer_eq hrun hresult, App.answer, hlookup]

/-- A fatal failure leaves its request once.  If a work on the thread of the caller panics, or
fails with a fatal failure, the request ends by raising just that payload, and that is the last
thing that is done: the error handler is called before, unless the answer was sent or nobody waits
for it, and nothing that it does changes what is raised.  In a script, sending a fatal error
raises its payload, and sending any other error raises nothing.  And a request ends without a
panic if all that fails on the thread of its caller is recoverable, whatever its error handler
does then, if no hook after the handler and no callback panics. -/
theorem fatal_raised_once (a : App) (s : Session) :
    (∀ r w u ending v f p, a.Begins s true r w u → w.run a r u = (ending, v) →
      ending.Raises f p →
      ∃ t, Reaches v t ∧
        a.answer s = (.panicked p, t.log .error "Fatal error; re-raising"
          [Event.textField "path" t.context.request.path, Event.textField "error" f.message]) ∧
        (v.context.started = false → v.isClosed = false →
          v.record ++ [.call (.errorHandler (.fatal f) (a.classify (.fatal f)))] <+: t.record)) ∧
    (∀ r f status t, ((a.boundaryOf r).answer f status t).1 = match f with
      | .recoverable .. => .returned ()
      | .fatal f => .panicked (f.payload.getD (.made f.message))) ∧
    (a.NeverRaises s → a.AfterHooksReturn s → a.CallbacksReturn s →
      (a.answer s).1 = .returned ()) := by
  refine ⟨?_, ?_, answer_returned⟩
  · intro r w u ending v f p hbegins hrun hraises
    obtain ⟨t, hreaches, heq, hcalled⟩ :=
      (a.boundaryOf r).exists_reraise a.nesting (.fatal f) none v
    refine ⟨t, hreaches, ?_, hcalled⟩
    rw [hbegins.answer_eq hrun hraises.result?_eq, ← hraises.raise_eq]
    exact heq
  · intro r f status t
    obtain ⟨u, -, heq, -⟩ := (a.boundaryOf r).exists_reraise a.nesting f status t
    cases f with
    | recoverable contexts cause => exact (a.boundaryOf r).answer_recoverable rfl status t
    | fatal f => exact congrArg Prod.fst heq

/-- An application with one handler, whose error handler panics. -/
def brittle (handler : Handler) : App where
  table := .plain handler
  errorHandler := fun _ _ => .panic (.fixed "no answer")

/-- A request for that handler. -/
def brittleSession (handler : Handler) : Session := (brittle handler).session .plain .held none false

/-- Where the handler fails, it is the one work of the request. -/
theorem brittle_run {f : Failure} {here : Bool} {r : Route} {w : Work} {u : Session}
    (h : (brittle (.ret (.error f))).Begins (brittleSession (.ret (.error f))) here r w u) :
    (w.run (brittle (.ret (.error f))) r u).1 = .returned (.error f) := by
  obtain ⟨captures, hlookup, hbegins⟩ := h
  obtain ⟨rfl, -⟩ := Lookup.matched.inj ((RouteTable.lookup_plain _).symm.trans hlookup)
  induction hbegins with
  | first => rfl
  | next _ hrun ih => simp [hrun] at ih
  | task _ hrun _ _ ih => simp [hrun] at ih

theorem brittle_comesTo {f : Failure} {here : Bool} {r : Route} {o : Outcome} {v : Session} :
    ¬(brittle (.ret (.error f))).ComesTo (brittleSession (.ret (.error f))) here r o v := by
  intro ⟨w, u, hbegins, hrun⟩
  have hfails := brittle_run hbegins
  simp [hrun] at hfails

/-- A handler that panics ends its request with that panic, behind the call of the error handler,
and one whose failure is recoverable does not, though the error handler panics. -/
theorem fatal_raised_once_brittle :
    (∃ t status, (brittle (.panic .other)).answer (brittleSession (.panic .other)) =
        (.panicked .other, t) ∧
      .call (.errorHandler (.fatal (.ofPanic .other)) status) ∈ t.record) ∧
    ((brittle (.ret (.error (.ofCause (.message "lost"))))).answer
      (brittleSession (.ret (.error (.ofCause (.message "lost")))))).1 = .returned () := by
  constructor
  · have hbegins : (brittle (.panic .other)).Begins (brittleSession (.panic .other)) true
        (.plain (.panic .other)) .handler ((brittleSession (.panic .other)).bound _ []) :=
      ⟨[], RouteTable.lookup_plain _, .first⟩
    obtain ⟨t, -, heq, hcalled⟩ :=
      (fatal_raised_once (brittle (.panic .other)) (brittleSession _)).1
        _ _ _ _ _ _ _ hbegins rfl (.panic .other)
    exact ⟨_, _, heq, List.mem_append_left _
      ((hcalled rfl rfl).subset (List.mem_append_right _ (List.mem_singleton_self _)))⟩
  · refine (fatal_raised_once (brittle _) (brittleSession _)).2.2 ?_ ?_ ?_
    · intro r w u ending v f p hbegins hrun hraises
      have hfails := brittle_run hbegins
      rw [hrun] at hfails
      obtain rfl := hfails
      cases hraises
    · intro here r o v hcomes
      exact absurd hcomes brittle_comesTo
    · intro here r ownThread callback v hcomes
      exact absurd hcomes brittle_comesTo

end App

end HttpApp
