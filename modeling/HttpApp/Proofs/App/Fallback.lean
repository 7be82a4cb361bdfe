/-
  HttpApp/Proofs/App/Fallback.lean --- error handlers that fail.

  An error handler is a script, and whatever it did, what follows it depends on one
  thing only: whether the context is started.  As long as it is not, the headers that
  the script stages are those of the answer (`Script.Runs.headers_eq`); once it is,
  nothing changes the answer any more.  Main statement:
  `ErrorBoundary.answerWithin_fallback`.
-/
import HttpApp.Proofs.App.Threads
import HttpApp.Proofs.Session.Bearing

set_option autoImplicit false

namespace HttpApp

open Session (Acts Silent callsOf)

/-! ## Scripts that send no error -/

namespace Script

/-- A script that begins in a session comes to its end without sending an error. -/
inductive SendsNoError {α : Type} : Script α → Session → Prop where
  | ret {a : α} {s : Session} : SendsNoError (.ret a) s
  | panic {p : Payload} {s : Session} : SendsNoError (.panic p) s
  | ask {op : Op} {next : op.Reply → Script α} {s : Session} :
    SendsNoError (next (s.perform op).1) (s.perform op).2 → SendsNoError (.ask op next) s

/-- The run of a script that sends no error: the operations that it performs, how it ends, and
the session in which it ends. -/
inductive Runs {α : Type} : Script α → Session → List Op → Ending α → Session → Prop where
  | ret (a : α) (s : Session) : Runs (.ret a) s [] (.returned a) s
  | panic (p : Payload) (s : Session) : Runs (.panic p) s [] (.panicked p) s
  | ask {op : Op} {next : op.Reply → Script α} {s t : Session} {ops : List Op} {ending : Ending α} :
    Runs (next (s.perform op).1) (s.perform op).2 ops ending t →
    Runs (.ask op next) s (op :: ops) ending t

variable {α : Type} {y : Script α} {s t u : Session} {ops : List Op} {ending : Ending α}

theorem SendsNoError.exists_runs (h : y.SendsNoError s) : ∃ ops ending t, y.Runs s ops ending t := by
  induction h with
  | ret => exact ⟨_, _, _, .ret _ _⟩
  | panic => exact ⟨_, _, _, .panic _ _⟩
  | ask _ ih =>
    obtain ⟨ops, ending, t, hrun⟩ := ih
    exact ⟨_, ending, t, .ask hrun⟩

/-- A script has one run. -/
theorem Runs.unique (h : y.Runs s ops ending t) {ops' : List Op} {ending' : Ending α}
    (h' : y.Runs s ops' ending' u) : ops = ops' ∧ ending = ending' ∧ t = u := by
  induction h generalizing ops' with
  | ret a s =>
    cases h'
    exact ⟨rfl, rfl, rfl⟩
  | panic p s =>
    cases h'
    exact ⟨rfl, rfl, rfl⟩
  | ask _ ih =>
    cases h' with
    | ask hrest =>
      obtain ⟨rfl, hending, hsession⟩ := ih hrest
      exact ⟨rfl, hending, hsession⟩

theorem Runs.run_eq (h : y.Runs s ops ending t)
    (answer : Failure → Option Status → Session → Ending Unit × Session) :
    y.run answer s = (ending, t) := by
  induction h with
  | ret => rfl
  | panic => rfl
  | ask _ ih => exact ih

theorem Runs.acts (h : y.Runs s ops ending t) : Acts s t := by
  induction h with
  | ret => exact .refl
  | panic => exact .refl
  | ask _ ih => exact .head (.perform _ _) ih

theorem Runs.silent (h : y.Runs s ops ending t) : Silent s t := by
  induction h with
  | ret => exact .refl _
  | panic => exact .refl _
  | ask _ ih => exact (Session.silent_perform _ _).trans ih

/-- What a run comes through lies on the way to its end. -/
theorem Runs.acts_of_visits {b : ErrorBoundary} {limit : Nat} (h : y.Runs s ops ending t)
    (hu : b.Visits limit y s u) : Acts u t := by
  induction hu generalizing ops with
  | here => exact h.acts
  | ask _ ih =>
    cases h with
    | ask hrest => exact ih hrest
  | answered => cases h
  | handling => cases h

end Script

/-! ## What is staged -/

/-- The staged headers behind an operation that sends nothing. -/
def Op.stageOn (staged : Headers) : Op → Headers
  | .stage (.header name value) => staged.insertText name value
  | _ => staged

namespace Session

variable {s t : Session}

/-- Completing an exchange that has its sending end leaves it started. -/
theorem started_complete (h : s.context.hasSender = true) (response : Response) :
    (s.complete response).2.context.started = true := by
  unfold complete
  split
  · next hstarted => exact hstarted
  · rw [h]
    dsimp only
    split
    · next hsender => cases hsender
    · split <;> rfl

/-- Where nothing is sent by a send, nothing is changed, as long as there is a sending end. -/
theorem send_eq_of_unstarted (h : s.context.hasSender = true) {x : Sending}
    (hunstarted : (s.send x).2.context.started = false) : (s.send x).2 = s := by
  have hbytes : ∀ m body, (s.sendBytes m body).2.context.started = true := fun m body =>
    started_complete (s := (s.takeContentType m).2) h _
  have hstatus : ∀ {t : Session} (status : Status), t.context.hasSender = true →
      (t.sendStatus status).2.context.started = true := fun {t} status ht =>
    started_complete (s := t.stage (.status status)) ht _
  cases x with
  | model m =>
    rw [send] at hunstarted ⊢
    cases hrendered : s.context.rendered m with
    | ok rendered =>
      rw [hrendered] at hunstarted
      exact absurd ((hbytes _ _).symm.trans hunstarted) (by decide)
    | error e => rfl
  | text body => exact absurd ((hbytes _ _).symm.trans hunstarted) (by decide)
  | bytes body => exact absurd ((hbytes _ _).symm.trans hunstarted) (by decide)
  | status status => exact absurd ((hstatus status h).symm.trans hunstarted) (by decide)
  | redirect status location =>
    have hsender : (s.stageHeader "location" location).context.hasSender = true :=
      (keeps_stageHeader s "location" location).hasSender.trans h
    exact absurd ((hstatus status hsender).symm.trans hunstarted) (by decide)

/-- An operation that sends nothing stages the headers that it is about. -/
theorem headers_perform (h : s.context.hasSender = true) {op : Op}
    (hunstarted : (s.perform op).2.context.started = false) :
    (s.perform op).2.context.headers = op.stageOn s.context.headers := by
  cases op with
  | stage x =>
    cases x with
    | header name value => exact congrArg Context.headers (context_stageHeader s name value)
    | _ => rfl
  | send x => exact congrArg (·.context.headers) (send_eq_of_unstarted h hunstarted)
  | hangUp =>
    unfold perform hangUp
    dsimp only
    split <;> rfl
  | sleep milliseconds =>
    unfold perform sleep
    dsimp only
    split
    · split <;> rfl
    · rfl
  | _ => rfl

end Session

/-- The staged headers of a run that sends nothing are those that it began with and those that it
stages, in their order. -/
theorem Script.Runs.headers_eq {α : Type} {y : Script α} {s t : Session} {ops : List Op}
    {ending : Ending α} (h : y.Runs s ops ending t) (hsender : s.context.hasSender = true)
    (hunstarted : t.context.started = false) :
    t.context.headers = ops.foldl Op.stageOn s.context.headers ∧ t.context.hasSender = true := by
  induction h with
  | ret => exact ⟨rfl, hsender⟩
  | panic => exact ⟨rfl, hsender⟩
  | @ask op next s t ops ending hrest ih =>
    have hfirst : (s.perform op).2.context.started = false := by
      cases hstarted : (s.perform op).2.context.started with
      | false => rfl
      | true => exact absurd ((hrest.acts.reaches.started hstarted).symm.trans hunstarted) (by decide)
    have hkeeps : (s.perform op).2.context.hasSender = true := by
      rcases (Session.Step.perform s op).keeps_or_sends with hkeeps | hsends
      · exact hkeeps.hasSender.trans hsender
      · exact absurd (hsends.started.symm.trans hfirst) (by decide)
    rw [List.foldl_cons, ← Session.headers_perform hsender hfirst]
    exact ih hkeeps hunstarted

/-! ## What follows an error handler -/

/-- The bare response of a status: its reason as a plain text, and the staged headers under the
content type of that. -/
def fallback (status : Status) (staged : Headers) : Response where
  status
  headers := staged.insert "content-type" (Bytes.ofText "text/plain; charset=utf-8")
  body := Bytes.ofText (status.reason?.getD "Unknown")

/-- Who waits for an answer gets the bare response if nothing was sent. -/
theorem Session.answer_complete_bare {s : Session} (hunstarted : s.context.started = false)
    (hsender : s.context.hasSender = true) (hwaits : s.channel.receiver ≠ .gone) (status : Status) :
    (s.complete (.bare status)).2.channel.answer = some (fallback status s.context.headers) := by
  have hheaders : (Response.bare status).headers.toList =
      [("content-type", Bytes.ofText "text/plain; charset=utf-8")] := by
    change (Response.withHeader {} "content-type" "text/plain; charset=utf-8").headers.toList = _
    decide +kernel
  unfold complete
  rw [if_neg (by simp [hunstarted]), if_neg (by simp [hsender])]
  dsimp only
  rw [if_neg (by exact hwaits), Headers.insertAll, hheaders]
  rfl

namespace ErrorBoundary

theorem silent_conclude (f : Failure) (status : Status) (ending : Ending (Except Failure Unit))
    (s : Session) : Silent s (conclude f status ending s) := by
  have hbare : ∀ t : Session, Silent t
      (if t.context.started then t else (t.complete (.bare status)).2) := by
    intro t
    split
    · exact .refl t
    · exact Session.silent_complete t _
  unfold conclude
  cases handlerFailure? ending with
  | none => exact hbare s
  | some reason => exact (Session.silent_add s rfl).trans (hbare _)

theorem silent_reraise (f : Failure) (s : Session) : Silent s (reraise f s).2 := by
  cases f with
  | recoverable contexts cause => exact .refl s
  | fatal f => exact Session.silent_add s rfl

theorem channel_reraise (f : Failure) (s : Session) : (reraise f s).2.channel = s.channel := by
  cases f <;> rfl

variable {s : Session}

/-- Behind an error handler that sent something nothing is sent. -/
theorem channel_conclude_of_started (hstarted : s.context.started = true) (f : Failure)
    (status : Status) (ending : Ending (Except Failure Unit)) :
    (conclude f status ending s).channel = s.channel := by
  unfold conclude
  cases handlerFailure? ending with
  | none =>
    dsimp only
    rw [if_pos hstarted]
  | some reason =>
    dsimp only
    rw [if_pos (by exact hstarted)]
    rfl

/-- Behind an error handler that sent nothing the bare response is sent, however it ended. -/
theorem answer_conclude_of_unstarted (hunstarted : s.context.started = false)
    (hsender : s.context.hasSender = true) (hwaits : s.channel.receiver ≠ .gone) (f : Failure)
    (status : Status) (ending : Ending (Except Failure Unit)) :
    (conclude f status ending s).channel.answer = some (fallback status s.context.headers) := by
  have hbare : ∀ t : Session, t.context.started = false → t.context.hasSender = true →
      t.channel.receiver ≠ .gone →
      (if t.context.started then t else (t.complete (.bare status)).2).channel.answer =
        some (fallback status t.context.headers) := by
    intro t hunstarted hsender hwaits
    rw [if_neg (by simp [hunstarted])]
    exact t.answer_complete_bare hunstarted hsender hwaits status
  unfold conclude
  cases handlerFailure? ending with
  | none => exact hbare s hunstarted hsender hwaits
  | some reason => exact hbare (s.log ..) hunstarted hsender hwaits

/-- The fallback of an error handler.  Let an error be answered with a status, where someone waits
and nothing was sent, and let the error handler send no error itself.  It is called once, with the
error and the status.  What it sends stands, whatever it does then.  If it has sent nothing at its
end, by a result, a failure or a panic, the bare response of the status is sent, with all headers
that were staged before and by it but for the content type, unless nobody waits any more. -/
theorem answerWithin_fallback (b : ErrorBoundary) (limit : Nat) (f : Failure)
    (given : Option Status) {status : Status} (hstatus : given.getD (b.classify f) = status)
    (hunstarted : s.context.started = false) (hopen : s.isClosed = false)
    (hhandler : (b.handler f status).SendsNoError (handling f status s)) :
    ∃ ops ending t, (b.handler f status).Runs (handling f status s) ops ending t ∧
      callsOf (b.answerWithin (limit + 1) f given s).2.record =
        callsOf s.record ++ [.errorHandler f status] ∧
      (∀ u, b.Visits limit (b.handler f status) (handling f status s) u →
        u.context.started = true →
          (b.answerWithin (limit + 1) f given s).2.channel.answer = u.channel.answer) ∧
      (t.context.started = false → t.channel.receiver ≠ .gone →
        (b.answerWithin (limit + 1) f given s).2.channel.answer =
          some (fallback status (ops.foldl Op.stageOn s.context.headers))) := by
  obtain ⟨ops, ending, t, hrun⟩ := hhandler.exists_runs
  have hsender : s.context.hasSender = true := by
    simp only [Session.isClosed, Bool.or_eq_false_iff, Bool.not_eq_false'] at hopen
    exact hopen.1
  have hanswer : b.answerWithin (limit + 1) f given s =
      reraise f (conclude f status ending t) :=
    answerWithin_of_run hstatus hunstarted hopen (hrun.run_eq _)
  refine ⟨ops, ending, t, hrun, ?_, fun u hu hstarted => ?_, fun hunsent hwaits => ?_⟩
  · have hbegin : callsOf (handling f status s).record =
        callsOf s.record ++ [.errorHandler f status] := Session.callsOf_append s.record _
    rw [hanswer, (silent_reraise f _).calls, (silent_conclude f status ending t).calls,
      hrun.silent.calls, hbegin]
  · have hrest := (hrun.acts_of_visits hu).reaches
    rw [hanswer, channel_reraise, channel_conclude_of_started (hrest.started hstarted),
      hrest.answer_eq_of_started hstarted]
  · obtain ⟨hheaders, hlast⟩ := hrun.headers_eq hsender hunsent
    rw [hanswer, channel_reraise, answer_conclude_of_unstarted hunsent hlast hwaits, hheaders]
    rfl

/-- An error handler that stages a status, a header and a content type, and panics. -/
def shaky : ErrorBoundary where
  handler _ _ := (do
    Script.stage (.status .created)
    Script.stage (.header "X-Tries" "1")
    Script.stage (.header "Content-Type" "text/html")
    .panic (.made "no page")
    : Script (Except Failure Unit))
  classify _ := .forbidden
  nesting := 1

/-- A session in which a header is staged. -/
def shakySession : Session where
  context := {
    request := { method := .get, path := "/" }
    headers := ⟨[("allow", [Bytes.ofText "GET"])]⟩ }

theorem answerWithin_fallback_shaky :
    shakySession.context.started = false ∧ shakySession.isClosed = false ∧
    (shaky.handler (.ofError .responseStarted) .forbidden).SendsNoError
      (handling (.ofError .responseStarted) .forbidden shakySession) ∧
    callsOf (shaky.answer (.ofError .responseStarted) none shakySession).2.record =
      [.errorHandler (.ofError .responseStarted) .forbidden] ∧
    (shaky.answer (.ofError .responseStarted) none shakySession).2.channel.answer = some {
      status := .forbidden
      headers := ⟨[("allow", [Bytes.ofText "GET"]), ("x-tries", [Bytes.ofText "1"]),
        ("content-type", [Bytes.ofText "text/plain; charset=utf-8"])]⟩
      body := Bytes.ofText "Forbidden" } := by
  have hhandler : (shaky.handler (.ofError .responseStarted) .forbidden).SendsNoError
      (handling (.ofError .responseStarted) .forbidden shakySession) :=
    .ask (.ask (.ask .panic))
  obtain ⟨ops, ending, t, hrun, hcalls, -, hsent⟩ :=
    answerWithin_fallback shaky 0 (.ofError .responseStarted) none rfl rfl rfl hhandler
  obtain ⟨rfl, rfl, rfl⟩ := hrun.unique (.ask (.ask (.ask (.panic _ _))))
  refine ⟨rfl, rfl, hhandler, hcalls, (hsent ?_ ?_).trans ?_⟩
  · decide +kernel
  · decide +kernel
  · decide +kernel

end ErrorBoundary

end HttpApp
