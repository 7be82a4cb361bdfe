/-
  HttpApp/Proofs/App/ErrorPage.lean --- what the page for errors shows of an error.

  The page for an error at the side of the server is made of its status and, for a
  client that takes JSON, of the findings that it is about.  Main statement: errors with
  the same findings get the same answer for the same status, whatever else they are;
  they differ in nothing but what is reported about them.
-/
import HttpApp.ErrorBoundary

set_option autoImplicit false

namespace HttpApp

/-! ## Exchanges that differ in their records -/

/-- Two exchanges differ in nothing but their records. -/
def Session.SameButRecord (s t : Session) : Prop := ∃ record, t = { s with record }

namespace Session.SameButRecord

variable {s t : Session}

theorem refl (s : Session) : SameButRecord s s := ⟨s.record, rfl⟩

theorem add_left (h : SameButRecord s t) (e : Entry) : SameButRecord (s.add e) t := by
  obtain ⟨record, rfl⟩ := h
  exact ⟨_, rfl⟩

theorem add_right (h : SameButRecord s t) (e : Entry) : SameButRecord s (t.add e) := by
  obtain ⟨record, rfl⟩ := h
  exact ⟨_, rfl⟩

theorem add_both (h : SameButRecord s t) (e e' : Entry) : SameButRecord (s.add e) (t.add e') :=
  (h.add_left e).add_right e'

theorem withContext (h : SameButRecord s t) (f : Context → Context) :
    SameButRecord (s.withContext f) (t.withContext f) := by
  obtain ⟨record, rfl⟩ := h
  exact ⟨_, rfl⟩

theorem context_eq (h : SameButRecord s t) : t.context = s.context := by
  obtain ⟨record, rfl⟩ := h
  rfl

/-- Completing an exchange does not read its record. -/
theorem complete (h : SameButRecord s t) (response : Response) :
    (t.complete response).1 = (s.complete response).1 ∧
      SameButRecord (s.complete response).2 (t.complete response).2 := by
  obtain ⟨record, rfl⟩ := h
  unfold Session.complete
  dsimp only [Session.withContext]
  split
  · exact ⟨rfl, _, rfl⟩
  · split
    · exact ⟨rfl, _, rfl⟩
    · split
      · exact ⟨rfl, _, rfl⟩
      · exact ⟨rfl, _, rfl⟩

theorem sendBytes (h : SameButRecord s t) (m : MediaType) (body : Bytes) :
    (t.sendBytes m body).1 = (s.sendBytes m body).1 ∧
      SameButRecord (s.sendBytes m body).2 (t.sendBytes m body).2 := by
  have htaken := h.withContext fun c => { c with contentType := none }
  unfold Session.sendBytes Session.takeContentType Session.sendAs
  dsimp only
  rw [h.context_eq, htaken.context_eq]
  exact htaken.complete _

end Session.SameButRecord

open Session (SameButRecord)

/-! ## Steps of attempts -/

namespace Attempt

section
variable (answer : Failure → Option Status → Session → Ending Unit × Session) (s : Session)

theorem run_look (k : Context → Attempt Unit) :
    ((Script.look : Script Context) >>= k : Attempt Unit).run.run answer s =
      (k s.context).run.run answer s := rfl

theorem run_log (level : Level) (message : String) (fields : List (String × EventValue))
    (k : Attempt Unit) :
    (Script.log level message fields >>= fun _ => k : Attempt Unit).run.run answer s =
      k.run.run answer (s.log level message fields) := rfl

theorem run_stage (x : Staging) (k : Attempt Unit) :
    (Script.stage x >>= fun _ => k : Attempt Unit).run.run answer s =
      k.run.run answer (s.stage x) := rfl

theorem run_send (x : Sending) :
    (send x).run.run answer s =
      (.returned ((s.send x).1.mapError Failure.ofError), (s.send x).2) := by
  change (ExceptT.bindCont ofExcept (.ok (s.send x).1)).run answer (s.send x).2 = _
  cases (s.send x).1 <;> rfl

end

end Attempt

/-! ## The page -/

namespace ErrorPage

/-- The report of an error. -/
def report (f : Failure) (status : Status) (s : Session) : Session :=
  s.log (if status.isServerError then .error else .debug)
    (if status.isServerError then "Request failed" else "Request rejected")
    [Event.textField "method" s.context.request.method.name,
      Event.textField "path" s.context.request.path, Event.numberField "status" status.code,
      Event.textField "error" f.message]

/-- The wording of an error, of which that of the server says nothing. -/
def wording (f : Failure) (status : Status) : String :=
  if status.isServerError then status.reason else f.message

/-- The members of the page that list findings. -/
def details (findings : Option Validation) : List (String × Json) :=
  match findings with
  | some v => [("errors", Json.list (v.findings.map Finding.toJson))]
  | none => []

/-- The page as JSON. -/
def page (status : Status) (wording : String) (findings : Option Validation) : Json :=
  Json.ofMembers ([("error", .text status.reason), ("status", .integer status.code),
    ("message", .text wording)] ++ details findings)

/-- Sends a status and a wording, and findings if the client takes JSON. -/
def send (status : Status) (wording : String) (findings : Option Validation) (s : Session) :
    Except Error Unit × Session :=
  if s.context.accepts .json then
    ((s.stage (.status status)).stage (.contentType .json)).send
      (.bytes (Bytes.ofText (page status wording findings).compact))
  else
    ((s.stage (.status status)).stage (.contentType .text)).send
      (.text (toString status.code ++ " " ++ status.reason ++ ": " ++ wording))

end ErrorPage

/-- The page for an error reports it, and sends its status, wording and findings. -/
theorem run_errorPage (f : Failure) (status : Status)
    (answer : Failure → Option Status → Session → Ending Unit × Session) (s : Session) :
    (errorPage f status).run answer s =
      let sent := ErrorPage.send status (ErrorPage.wording f status) f.validation?
        (ErrorPage.report f status s)
      (.returned (sent.1.mapError Failure.ofError), sent.2) := by
  have hcontext : (ErrorPage.report f status s).context = s.context := rfl
  unfold errorPage ErrorPage.send
  rw [Attempt.run_look, hcontext]
  unfold ErrorPage.wording ErrorPage.report
  cases status.isServerError <;> cases s.context.accepts .json <;>
    simp only [Bool.false_eq_true, if_false, if_true] <;>
    rw [Attempt.run_log, Attempt.run_stage, Attempt.run_stage, Attempt.run_send] <;> rfl

/-! ## What the page shows -/

theorem Session.SameButRecord.sendPage {s t : Session} (h : SameButRecord s t) (status : Status)
    (wording : String) {findings findings' : Option Validation}
    (hfindings : s.context.accepts .json = false ∨ findings = findings') :
    (ErrorPage.send status wording findings' t).1 = (ErrorPage.send status wording findings s).1 ∧
      SameButRecord (ErrorPage.send status wording findings s).2
        (ErrorPage.send status wording findings' t).2 := by
  have hstaged : ∀ m, SameButRecord ((s.stage (.status status)).stage (.contentType m))
      ((t.stage (.status status)).stage (.contentType m)) := fun m =>
    (h.withContext fun c => { c with status }).withContext fun c => { c with contentType := some m }
  unfold ErrorPage.send
  rw [h.context_eq]
  cases haccepts : s.context.accepts .json with
  | true =>
    obtain rfl := hfindings.resolve_left (by simp [haccepts])
    exact (hstaged .json).sendBytes _ _
  | false =>
    have htype := (hstaged .text).context_eq
    simp only [Bool.false_eq_true, if_false, Session.send]
    rw [htype]
    exact (hstaged .text).sendBytes _ _

namespace ErrorBoundary

theorem sameButRecord_conclude {s t : Session} (h : SameButRecord s t) (f g : Failure)
    (status : Status) (ending : Ending (Except Failure Unit)) :
    SameButRecord (conclude f status ending s) (conclude g status ending t) := by
  have hbare : ∀ {s t : Session}, SameButRecord s t → SameButRecord
      (if s.context.started then s else (s.complete (.bare status)).2)
      (if t.context.started then t else (t.complete (.bare status)).2) := by
    intro s t h
    rw [h.context_eq]
    split
    · exact h
    · exact (h.complete _).2
  unfold conclude
  cases handlerFailure? ending with
  | none => exact hbare h
  | some reason => exact hbare (h.add_both _ _)

theorem sameButRecord_reraise {s t : Session} (h : SameButRecord s t) (f g : Failure) :
    SameButRecord (reraise f s).2 (reraise g t).2 := by
  cases f <;> cases g
  · exact h
  · exact h.add_right _
  · exact h.add_left _
  · exact h.add_both _ _

theorem sameButRecord_handling (f g : Failure) (status : Status) (s : Session) :
    SameButRecord (handling f status s) (handling g status s) :=
  (SameButRecord.refl _).add_both _ _

/-- Whether an error is discarded does not depend on the error. -/
theorem sameButRecord_discard? (f g : Failure) (status : Status) (s : Session) :
    (discard? f status s = none ∧ discard? g status s = none) ∨
      ∃ t u, discard? f status s = some t ∧ discard? g status s = some u ∧ SameButRecord t u := by
  unfold discard?
  split
  · exact .inr ⟨_, _, rfl, rfl, (SameButRecord.refl s).add_both _ _⟩
  · split
    · exact .inr ⟨_, _, rfl, rfl, (SameButRecord.refl s).add_both _ _⟩
    · exact .inl ⟨rfl, rfl⟩

end ErrorBoundary

/-- The page for an error of the server is the same for all errors that are about the same
findings. -/
theorem sameButRecord_errorPage {f g : Failure} {status : Status}
    (hserver : status.isServerError = true) {s t : Session} (h : SameButRecord s t)
    (hfindings : s.context.accepts .json = false ∨ f.validation? = g.validation?)
    (answer : Failure → Option Status → Session → Ending Unit × Session) :
    ((errorPage g status).run answer t).1 = ((errorPage f status).run answer s).1 ∧
      SameButRecord ((errorPage f status).run answer s).2
        ((errorPage g status).run answer t).2 := by
  have hwording : ∀ f : Failure, ErrorPage.wording f status = status.reason := by
    intro f
    rw [ErrorPage.wording, if_pos hserver]
  have hreport : SameButRecord (ErrorPage.report f status s) (ErrorPage.report g status t) :=
    h.add_both _ _
  obtain ⟨hsent, hafter⟩ := hreport.sendPage status status.reason hfindings
  rw [run_errorPage, run_errorPage, hwording, hwording]
  refine ⟨?_, hafter⟩
  dsimp only
  rw [hsent]

/-- Errors of the server are hidden but for their findings.  For a status that says that the server
is at fault, the page for errors does the same for two errors in the same exchange, and so does
the whole answer to them, up to what is reported: all that the client gets is the same.  This
holds if the client takes no JSON, or if both errors are about the same findings. -/
theorem errorPage_hides (f g : Failure) (status : Status) (hserver : status.isServerError = true)
    (s : Session) (hfindings : s.context.accepts .json = false ∨ f.validation? = g.validation?) :
    (∀ answer,
      ((errorPage g status).run answer s).1 = ((errorPage f status).run answer s).1 ∧
      SameButRecord ((errorPage f status).run answer s).2 ((errorPage g status).run answer s).2) ∧
    ∀ b : ErrorBoundary, b.handler = errorPage →
      SameButRecord (b.answer f (some status) s).2 (b.answer g (some status) s).2 := by
  refine ⟨sameButRecord_errorPage hserver (.refl s) hfindings, fun b hb => ?_⟩
  have hhandling := ErrorBoundary.sameButRecord_handling f g status s
  unfold ErrorBoundary.answer
  cases b.nesting with
  | zero =>
    rw [ErrorBoundary.answerWithin, ErrorBoundary.answerWithin, Option.getD_some, Option.getD_some]
    rcases ErrorBoundary.sameButRecord_discard? f g status s with ⟨hf, hg⟩ | ⟨t, u, hf, hg, h⟩ <;>
      rw [hf, hg]
    · exact ErrorBoundary.sameButRecord_reraise
        (ErrorBoundary.sameButRecord_conclude hhandling f g status _) f g
    · exact ErrorBoundary.sameButRecord_reraise h f g
  | succ limit =>
    rw [ErrorBoundary.answerWithin, ErrorBoundary.answerWithin, Option.getD_some, Option.getD_some,
      hb]
    rcases ErrorBoundary.sameButRecord_discard? f g status s with ⟨hf, hg⟩ | ⟨t, u, hf, hg, h⟩ <;>
      rw [hf, hg]
    · obtain ⟨hending, hafter⟩ :=
        sameButRecord_errorPage hserver hhandling hfindings (b.answerWithin limit)
      dsimp only
      rw [hending]
      exact ErrorBoundary.sameButRecord_reraise
        (ErrorBoundary.sameButRecord_conclude hafter f g status _) f g
    · exact ErrorBoundary.sameButRecord_reraise h f g

/-- An exchange of which nothing was done, for a client that takes whatever comes. -/
def Session.untouched : Session where
  context := { request := { method := .get, path := "/" } }

/-- The response that the page for an error is to a client that takes whatever comes. -/
def ErrorPage.response? (f : Failure) (status : Status) : Option Response :=
  ((errorPage f status).run (fun _ _ s => (.returned (), s)) .untouched).2.channel.answer

/-- A message in a context and a fatal error look the same from outside. -/
theorem errorPage_hides_contexts :
    Status.internalServerError.isServerError = true ∧
      ((Failure.ofCause (.message "no such user")).context "password hunter2").validation? =
        (Failure.fatal ⟨"out of memory", none⟩).validation? ∧
      ErrorPage.response? (.fatal ⟨"out of memory", none⟩) .internalServerError =
        ErrorPage.response? ((Failure.ofCause (.message "no such user")).context "password hunter2")
          .internalServerError := by
  have hhides := errorPage_hides
    ((Failure.ofCause (.message "no such user")).context "password hunter2")
    (.fatal ⟨"out of memory", none⟩) .internalServerError (by decide) .untouched (.inr rfl)
  obtain ⟨-, record, hsame⟩ := hhides.1 fun _ _ s => (.returned (), s)
  refine ⟨by decide, rfl, ?_⟩
  rw [ErrorPage.response?, hsame]
  rfl

/-- The body of the page for a client that takes whatever comes. -/
theorem ErrorPage.body_response? (f : Failure) (status : Status) :
    (ErrorPage.response? f status).map Response.body =
      some (Bytes.ofText (ErrorPage.page status (ErrorPage.wording f status)
        f.validation?).compact) := by
  have haccepts : (ErrorPage.report f status .untouched).context.accepts .json = true := by
    change Session.untouched.context.accepts .json = true
    decide +kernel
  rw [ErrorPage.response?, run_errorPage]
  dsimp only
  rw [ErrorPage.send, if_pos haccepts]
  rfl

/-- Findings are not hidden: where the server is at fault, an error that is about a field of the
input gets another page than one that is not. -/
theorem not_hidden_findings :
    Status.internalServerError.isServerError = true ∧
      ErrorPage.response? (.ofCause (.validation ⟨[.required "password"]⟩)) .internalServerError ≠
        ErrorPage.response? (.ofCause (.message "no")) .internalServerError := by
  refine ⟨by decide, fun hsame => ?_⟩
  have hbodies := congrArg (Option.map Response.body) hsame
  rw [ErrorPage.body_response?, ErrorPage.body_response?] at hbodies
  have hdecoded := congrArg Utf8.decode (Option.some.inj hbodies)
  rw [Utf8.decode_ofText, Utf8.decode_ofText] at hdecoded
  have hpages := congrArg String.toList (Except.ok.inj hdecoded)
  simp only [Json.compact, Json.print, String.toList_ofList] at hpages
  exact absurd hpages (by decide +kernel)

end HttpApp
