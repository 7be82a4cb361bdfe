/-
  HttpApp/Proofs/App/Contexts.lean --- errors in contexts.

  A context says in words what was being done when an error came up.  It is shown in front
  of the error, and that is all: what the error is about, and so its status and its findings,
  stays as it is (`Failure.cause?_inContexts`, `Failure.chain_inContexts`).  Main statement:
  the page for an error in contexts is that for the error itself but for its message
  (`ErrorBoundary.answerWithin_inContexts`).
-/
import HttpApp.Proofs.App.HalfStaged

set_option autoImplicit false

namespace HttpApp

/-! ## Failures in contexts -/

namespace Failure

/-- A failure to which contexts are added one after the other. -/
def inContexts (f : Failure) (texts : List String) : Failure :=
  texts.foldl (fun f text => f.context text) f

theorem inContexts_cons (f : Failure) (text : String) (texts : List String) :
    f.inContexts (text :: texts) = (f.context text).inContexts texts := rfl

/-- The wordings that make up that of a failure: its contexts, its cause, and what lies behind that. -/
def chain : Failure → List String
  | .recoverable contexts cause => contexts ++ cause.chain
  | .fatal f => ["fatal: " ++ f.message]

theorem message_eq_intercalate (f : Failure) : f.message = ": ".intercalate f.chain := by
  cases f with
  | recoverable contexts cause => rfl
  | fatal f => rw [chain, String.intercalate_singleton, message]

theorem chain_context {f : Failure} (hf : f.isFatal = false) (text : String) :
    (f.context text).chain = text :: f.chain := by
  cases f with
  | recoverable contexts cause => rfl
  | fatal f => cases hf

/-- Contexts are shown from the last one to the first. -/
theorem chain_inContexts {f : Failure} (hf : f.isFatal = false) (texts : List String) :
    (f.inContexts texts).chain = texts.reverse ++ f.chain := by
  induction texts generalizing f with
  | nil => rfl
  | cons text texts ih =>
    have hnext : (f.context text).isFatal = false := by rw [isFatal_context, hf]
    rw [inContexts_cons, ih hnext, chain_context hf, List.reverse_cons, List.append_assoc,
      List.singleton_append]

/-- What one context leaves as it is, any number of them leaves. -/
theorem view_inContexts {α : Type} {view : Failure → α}
    (h : ∀ (text : String) (f : Failure), view (f.context text) = view f) (f : Failure)
    (texts : List String) : view (f.inContexts texts) = view f := by
  induction texts generalizing f with
  | nil => rfl
  | cons text texts ih => rw [inContexts_cons, ih, h]

theorem cause?_inContexts (f : Failure) (texts : List String) :
    (f.inContexts texts).cause? = f.cause? :=
  view_inContexts cause?_context f texts

theorem error?_inContexts (f : Failure) (texts : List String) :
    (f.inContexts texts).error? = f.error? := by
  rw [error?, cause?_inContexts, error?]

theorem validation?_inContexts (f : Failure) (texts : List String) :
    (f.inContexts texts).validation? = f.validation? := by
  rw [validation?, cause?_inContexts, validation?]

theorem statusCode_inContexts (f : Failure) (texts : List String) :
    (f.inContexts texts).statusCode = f.statusCode :=
  view_inContexts statusCode_context f texts

theorem isFatal_inContexts (f : Failure) (texts : List String) :
    (f.inContexts texts).isFatal = f.isFatal :=
  view_inContexts isFatal_context f texts

end Failure

/-! ## The parts of the page -/

namespace ErrorPage

/-- The page as JSON, member by member; the findings, if there are any, are listed in their order. -/
def document (status : Status) (message : String) (findings : Option Validation) : Json :=
  .object (("error", .text status.reason) ::
    ((findings.toList.map fun v => ("errors", .list (v.findings.map fun x =>
      .object [("code", .text x.kind.code), ("field", .text x.field), ("message", .text x.message)]))) ++
    [("message", .text message), ("status", .integer status.code)]))

theorem page_eq_document (status : Status) (message : String) (findings : Option Validation) :
    page status message findings = document status message findings := by
  -- The members are sorted by their names.
  have hstatus : ¬"status" < "error" := by decide
  have hmessage : ¬"message" < "error" ∧ "message" < "status" := by decide
  have herrors : ¬"errors" < "error" ∧ "errors" < "message" := by decide
  unfold page document details Json.ofMembers
  cases findings with
  | none => simp [Json.setMember, hstatus, hmessage]
  | some v => simp [Json.setMember, Finding.toJson, hstatus, hmessage, herrors]

/-- The page for a client that takes JSON, or for one that does not. -/
def bodyFor (json : Bool) (status : Status) (message : String) (findings : Option Validation) :
    Bytes :=
  if json then Bytes.ofText (document status message findings).compact
  else Bytes.ofText (toString status.code ++ " " ++ status.reason ++ ": " ++ message)

theorem body_responseIn (f : Failure) (status : Status) (c : Context) :
    (responseIn f status c).body =
      bodyFor (c.accepts .json) status (wording f status) f.validation? := by
  rw [responseIn, bodyIn, bodyFor, page_eq_document]

theorem status_responseIn (f : Failure) (status : Status) (c : Context) :
    (responseIn f status c).status = status := rfl

/-- The headers do not show what was wrong. -/
theorem headers_responseIn (f g : Failure) (status : Status) (c : Context) :
    (responseIn g status c).headers = (responseIn f status c).headers := rfl

/-- A client that takes JSON gets all findings, one by one. -/
theorem bodyFor_findings (status : Status) (message : String) (v : Validation) :
    bodyFor true status message (some v) = Bytes.ofText (Json.object [
      ("error", .text status.reason),
      ("errors", .list (v.findings.map fun x => .object [("code", .text x.kind.code),
        ("field", .text x.field), ("message", .text x.message)])),
      ("message", .text message), ("status", .integer status.code)]).compact := by
  rw [bodyFor, if_pos rfl]
  simp only [document, Option.toList_some, List.map_cons, List.map_nil, List.cons_append,
    List.nil_append]

end ErrorPage

/-! ## Errors in contexts -/

namespace ErrorBoundary

variable {b : ErrorBoundary}

/-- Contexts do not change how an error is answered.  Let a failure that is not fatal be given some
contexts, and let failures be answered by the page for errors, with a given status or else with
that of their cause.  With the contexts, the failure has the same status, cause, error and findings
as without them, and its message is made of the contexts, the last one first, and of the same
wordings as before.  Both answers end in the same way.  If no answer can be sent any more, both
leave the channel as it is.  Otherwise both responses have the same status and the same headers,
and their bodies have the same members but for the message; if the server is at fault, that is
the same, too.  A client that takes JSON gets all findings that the failure is about, one by one. -/
theorem answerWithin_inContexts (hpage : b.handler = errorPage)
    (hclassify : b.classify = Failure.statusCode) (limit : Nat) (f : Failure)
    (hf : f.isFatal = false) (texts : List String) (given : Option Status) (s : Session) :
    let g := f.inContexts texts
    let status := given.getD f.statusCode
    let answered := fun e : Failure => b.answerWithin (limit + 1) e given s
    (g.statusCode = f.statusCode ∧ g.cause? = f.cause? ∧ g.error? = f.error? ∧
      g.validation? = f.validation?) ∧
    (f.message = ": ".intercalate f.chain ∧
      g.message = ": ".intercalate (texts.reverse ++ f.chain)) ∧
    ((answered f).1 = .returned () ∧ (answered g).1 = .returned ()) ∧
    (s.context.started = true ∨ s.isClosed = true →
      (answered f).2.channel = s.channel ∧ (answered g).2.channel = s.channel) ∧
    (s.context.started = false → s.isClosed = false →
      ∃ r r', (answered f).2.channel.answer = some r ∧ (answered g).2.channel.answer = some r' ∧
        r.status = status ∧ r'.status = status ∧ r'.headers = r.headers ∧
        r.body = ErrorPage.bodyFor (s.context.accepts .json) status (ErrorPage.wording f status)
          f.validation? ∧
        r'.body = ErrorPage.bodyFor (s.context.accepts .json) status (ErrorPage.wording g status)
          f.validation? ∧
        ∀ v, f.cause? = some (.validation v) → s.context.accepts .json = true →
          r'.body = Bytes.ofText (Json.object [("error", .text status.reason),
            ("errors", .list (v.findings.map fun x => .object [("code", .text x.kind.code),
              ("field", .text x.field), ("message", .text x.message)])),
            ("message", .text (ErrorPage.wording g status)),
            ("status", .integer status.code)]).compact) := by
  intro g status answered
  have hg : g.isFatal = false := (f.isFatal_inContexts texts).trans hf
  have hfindings : g.validation? = f.validation? := f.validation?_inContexts texts
  have hmessage : g.message = ": ".intercalate (texts.reverse ++ f.chain) := by
    rw [g.message_eq_intercalate, Failure.chain_inContexts hf]
  refine ⟨⟨f.statusCode_inContexts texts, f.cause?_inContexts texts, f.error?_inContexts texts,
    hfindings⟩, ⟨f.message_eq_intercalate, hmessage⟩,
    ⟨b.answerWithin_recoverable hf _ given s, b.answerWithin_recoverable hg _ given s⟩,
    fun hlate => ⟨channel_answerWithin_of_late _ f given hlate,
      channel_answerWithin_of_late _ g given hlate⟩, fun hunstarted hopen => ?_⟩
  have hstatus : given.getD (b.classify f) = status := by rw [hclassify]
  have hstatus' : given.getD (b.classify g) = status := by
    rw [hclassify, f.statusCode_inContexts texts]
  have hbody := ErrorPage.body_responseIn g status s.context
  rw [hfindings] at hbody
  refine ⟨_, _, answer_page hpage limit f hstatus hunstarted hopen,
    answer_page hpage limit g hstatus' hunstarted hopen,
    ErrorPage.status_responseIn f status s.context, ErrorPage.status_responseIn g status s.context,
    ErrorPage.headers_responseIn f g status s.context,
    ErrorPage.body_responseIn f status s.context, hbody, fun v hv hjson => ?_⟩
  have hvalidation : f.validation? = some v := by rw [Failure.validation?, hv]
  rw [hbody, hjson, hvalidation, ErrorPage.bodyFor_findings]

/-- Findings about two fields, found when a form was read to add a user. -/
def misfilled : Validation := ⟨[.required "name", .outOfRange "age" 0 150]⟩

/-- The answer to an error in two contexts lists both findings. -/
theorem answerWithin_inContexts_misfilled :
    ({} : App).boundary.handler = errorPage ∧
    ({} : App).boundary.classify = Failure.statusCode ∧
    (Failure.ofCause (.validation misfilled)).isFatal = false ∧
    Session.awaited.context.started = false ∧ Session.awaited.isClosed = false ∧
    ∃ r, (({} : App).boundary.answer ((Failure.ofCause (.validation misfilled)).inContexts
        ["reading the form", "adding a user"]) none .awaited).2.channel.answer = some r ∧
      r.status = .badRequest ∧
      r.body = Bytes.ofText (Json.object [("error", .text "Bad Request"),
        ("errors", .list [
          .object [("code", .text "REQUIRED"), ("field", .text "name"),
            ("message", .text "name is required")],
          .object [("code", .text "OUT_OF_RANGE"), ("field", .text "age"),
            ("message", .text "age must be between 0 and 150")]]),
        ("message", .text ("adding a user: reading the form: validation failed: " ++
          "name is required; age must be between 0 and 150")),
        ("status", .integer 400)]).compact := by
  obtain ⟨-, ⟨-, hmessage⟩, -, -, hpage⟩ := answerWithin_inContexts (b := ({} : App).boundary) rfl
    rfl 63 (.ofCause (.validation misfilled)) rfl ["reading the form", "adding a user"] none .awaited
  obtain ⟨r, r', -, hr', -, hstatus, -, -, -, hfindings⟩ := hpage rfl rfl
  refine ⟨rfl, rfl, rfl, rfl, rfl, r', hr', hstatus, ?_⟩
  have hstatus' : (none : Option Status).getD (Failure.ofCause (.validation misfilled)).statusCode =
      .badRequest := rfl
  have hwording : ErrorPage.wording ((Failure.ofCause (.validation misfilled)).inContexts
      ["reading the form", "adding a user"]) .badRequest =
      "adding a user: reading the form: validation failed: " ++
        "name is required; age must be between 0 and 150" := by
    rw [ErrorPage.wording, if_neg (by decide), hmessage]
    decide +kernel
  rw [hfindings misfilled rfl (by decide +kernel), hstatus', hwording]
  rfl

end ErrorBoundary

end HttpApp
