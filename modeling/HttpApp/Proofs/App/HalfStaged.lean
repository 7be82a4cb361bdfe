/-
  HttpApp/Proofs/App/HalfStaged.lean --- errors behind a half-staged answer.

  The page for an error stages its status and its content type, and then sends a body,
  which puts that content type over whatever is staged under its name.  So nothing of an
  answer that was staged before the error shows in the page but the other headers
  (`ErrorBoundary.answer_page`).  Main statement: exchanges that differ in nothing else
  get the same page (`ErrorBoundary.answerWithin_halfStaged`).
-/
import HttpApp.Proofs.App.ErrorPage
import HttpApp.Proofs.App.Fallback
import HttpApp.Proofs.App.Unwinding
import HttpApp.Proofs.Session.Staging

set_option autoImplicit false

namespace HttpApp

open Session (Delivers Open)

/-! ## All headers but one -/

namespace Headers

theorem lookup_others (h : Headers) {name n : String} (hn : n ≠ name) :
    (h.others name).lookup n = h.fields.lookup n := by
  obtain ⟨fields⟩ := h
  simp only [others]
  induction fields with
  | nil => rfl
  | cons f fs ih =>
    by_cases hf : f.1 = name
    · have hne : (n == f.1) = false := by simpa [hf] using hn
      rw [List.filter_cons, if_neg (by simp [hf]), ih, List.lookup_cons, hne]
    · rw [List.filter_cons, if_pos (by simpa using hf), List.lookup_cons, List.lookup_cons, ih]

/-- Headers that differ in one name only have the same values of each other name. -/
theorem valuesOf_eq_of_others {h h' : Headers} {name n : String}
    (hothers : h'.others name = h.others name) (hn : n ≠ name) : h'.valuesOf n = h.valuesOf n := by
  rw [valuesOf, valuesOf, ← lookup_others h' hn, hothers, lookup_others h hn]

theorem others_insertText (h : Headers) {name n : String} (hname : name? name = some n)
    (value : String) : (h.insertText name value).others n = h.others n := by
  unfold insertText
  rw [hname]
  cases HeaderValue.ofText? value with
  | none => rfl
  | some v => exact others_insert h n v

end Headers

/-- Two responses have the same status, body and headers, in the same order up to the place of the
content type. -/
structure Response.Same (r r' : Response) : Prop where
  status : r'.status = r.status
  body : r'.body = r.body
  values : ∀ name, r'.headers.getAll name = r.headers.getAll name
  others : r'.headers.others "content-type" = r.headers.others "content-type"

/-! ## The page as a response -/

namespace ErrorPage

/-- The content type of the page for a client. -/
def typeIn (c : Context) : MediaType := if c.accepts .json then .json else .text

/-- The body of the page for a client. -/
def bodyIn (f : Failure) (status : Status) (c : Context) : Bytes :=
  if c.accepts .json then
    Bytes.ofText (page status (wording f status) f.validation?).compact
  else Bytes.ofText (toString status.code ++ " " ++ status.reason ++ ": " ++ wording f status)

/-- The page as a response: its content type is set over the headers that are staged. -/
def responseIn (f : Failure) (status : Status) (c : Context) : Response where
  status
  headers := c.headers.insertText "content-type" (typeIn c).shown
  body := bodyIn f status c

/-- The page has one content type. -/
theorem getAll_contentType_responseIn (f : Failure) (status : Status) (c : Context) :
    (responseIn f status c).headers.getAll "content-type" =
      [Bytes.ofText (if c.accepts .json then "application/json"
        else "text/plain; charset=utf-8")] := by
  have hlegal : (HeaderValue.ofText? (typeIn c).shown).isSome := by
    unfold typeIn
    split <;> decide +kernel
  rw [Headers.getAll_contentType, responseIn,
    Headers.valuesOf_insertText_self Headers.name?_contentType hlegal, typeIn]
  split <;> rfl

/-- The page has the other headers that are staged. -/
theorem others_responseIn (f : Failure) (status : Status) (c : Context) :
    (responseIn f status c).headers.others "content-type" = c.headers.others "content-type" :=
  Headers.others_insertText c.headers Headers.name?_contentType _

/-- Whoever waits for an answer gets the page. -/
theorem delivers_send {s : Session} (h : Open s) (f : Failure) (status : Status) :
    Delivers (responseIn f status s.context) (send status (wording f status) f.validation? s) := by
  have hstaged : ∀ m, Open ((s.stage (.status status)).stage (.contentType m)) := fun m =>
    (h.stage _).stage _
  unfold send responseIn typeIn bodyIn
  split
  · exact (hstaged .json).sendBytes .octetStream _
  · exact (hstaged .text).sendBytes _ _

end ErrorPage

/-! ## Errors behind a half-staged answer -/

/-- Two exchanges have the same channel, and the same context but for what is staged as the status,
as content types, and as fields of the content type. -/
structure Session.SameButStaged (s t : Session) : Prop where
  context : s.context = { t.context with
    status := s.context.status
    contentType := s.context.contentType
    defaultContentType := s.context.defaultContentType
    headers := s.context.headers }
  others : t.context.headers.others "content-type" = s.context.headers.others "content-type"
  channel : t.channel = s.channel

namespace Session.SameButStaged

variable {s t : Session}

theorem started (h : SameButStaged s t) : t.context.started = s.context.started := by
  rw [h.context]

theorem isClosed (h : SameButStaged s t) : t.isClosed = s.isClosed := by
  rw [Session.isClosed, Session.isClosed, h.channel, h.context]

theorem accepts (h : SameButStaged s t) (m : MediaType) :
    t.context.accepts m = s.context.accepts m := by
  rw [h.context]
  rfl

theorem responseIn (h : SameButStaged s t) (f : Failure) (status : Status) :
    (ErrorPage.responseIn f status s.context).Same (ErrorPage.responseIn f status t.context) := by
  have hothers : (ErrorPage.responseIn f status t.context).headers.others "content-type" =
      (ErrorPage.responseIn f status s.context).headers.others "content-type" := by
    rw [ErrorPage.others_responseIn, ErrorPage.others_responseIn, h.others]
  refine ⟨rfl, ?_, fun name => ?_, hothers⟩
  · simp only [ErrorPage.responseIn, ErrorPage.bodyIn, h.accepts]
  · unfold Headers.getAll
    cases Headers.name? name with
    | none => rfl
    | some n =>
      dsimp only
      by_cases hn : n = "content-type"
      · rw [hn, ← Headers.getAll_contentType, ← Headers.getAll_contentType,
          ErrorPage.getAll_contentType_responseIn, ErrorPage.getAll_contentType_responseIn,
          h.accepts]
      · exact Headers.valuesOf_eq_of_others hothers hn

end Session.SameButStaged

namespace ErrorBoundary

variable {b : ErrorBoundary} {s t : Session}

/-- Where an answer can still be sent, the page for errors is that answer. -/
theorem answer_page (hpage : b.handler = errorPage) (limit : Nat) (f : Failure)
    {given : Option Status} {status : Status} (hstatus : given.getD (b.classify f) = status)
    (hunstarted : s.context.started = false) (hopen : s.isClosed = false) :
    (b.answerWithin (limit + 1) f given s).2.channel.answer =
      some (ErrorPage.responseIn f status s.context) := by
  have hstaged : Open (ErrorPage.report f status (handling f status s)) := by
    obtain ⟨hunstarted, hsender, hwaits⟩ := Open.of_isClosed hunstarted hopen
    exact ⟨hunstarted, hsender, hwaits⟩
  obtain ⟨ending, t, hrun, hsent⟩ : ∃ ending t,
      (b.handler f status).run (b.answerWithin limit) (handling f status s) = (ending, t) ∧
        Delivers (ErrorPage.responseIn f status s.context) (.ok (), t) := by
    have hsent := ErrorPage.delivers_send hstaged f status
    rw [hpage]
    exact ⟨_, _, run_errorPage f status _ _, rfl, hsent.started, hsent.answer⟩
  rw [answerWithin_of_run hstatus hunstarted hopen hrun, channel_reraise,
    channel_conclude_of_started hsent.started, hsent.answer]

/-- How the answer to an error ends depends on the error alone. -/
theorem fst_answerWithin (limit : Nat) (f : Failure) (given : Option Status) (s t : Session) :
    (b.answerWithin limit f given t).1 = (b.answerWithin limit f given s).1 := by
  obtain ⟨s', -, hs, -⟩ := b.exists_reraise limit f given s
  obtain ⟨t', -, ht, -⟩ := b.exists_reraise limit f given t
  rw [hs, ht]
  cases f <;> rfl

/-- Where no answer can be sent any more, an error leaves the channel as it is. -/
theorem channel_answerWithin_of_late (limit : Nat) (f : Failure) (given : Option Status)
    (h : s.context.started = true ∨ s.isClosed = true) :
    (b.answerWithin limit f given s).2.channel = s.channel := by
  have hlate : ∃ t, discard? f (given.getD (b.classify f)) s = some t ∧ t.channel = s.channel := by
    unfold discard?
    split
    · exact ⟨_, rfl, rfl⟩
    · next hstarted =>
      rw [if_pos (h.resolve_left hstarted)]
      exact ⟨_, rfl, rfl⟩
  obtain ⟨t, hdiscard, hchannel⟩ := hlate
  cases limit <;> rw [answerWithin, hdiscard] <;> exact (channel_reraise f t).trans hchannel

/-- A half-staged answer does not show.  Let two exchanges differ in nothing but what was staged as
the status, as content types and as fields of the content type, and let an error be answered by
the page for errors in both, where another error handler may be called.  Both answers end in the same way.  If no answer can be sent any more,
both leave the channel as it is.  Otherwise the same response is delivered in both.  It has the
status with which the error is answered, one content type, which is that of JSON if the client
takes JSON and else that of texts, and all other headers that were staged. -/
theorem answerWithin_halfStaged (hpage : b.handler = errorPage) (limit : Nat) (f : Failure)
    (given : Option Status) (h : s.SameButStaged t) :
    let answered := b.answerWithin (limit + 1) f given
    (answered t).1 = (answered s).1 ∧
    (s.context.started = true ∨ s.isClosed = true →
      (answered s).2.channel = s.channel ∧ (answered t).2.channel = s.channel) ∧
    (s.context.started = false → s.isClosed = false →
      ∃ r r', (answered s).2.channel.answer = some r ∧ (answered t).2.channel.answer = some r' ∧
        r.Same r' ∧ r.status = given.getD (b.classify f) ∧
        r.headers.getAll "content-type" =
          [Bytes.ofText (if s.context.accepts .json then "application/json"
            else "text/plain; charset=utf-8")] ∧
        ∀ name n, Headers.name? name = some n → n ≠ "content-type" →
          r.headers.getAll name = s.context.headers.getAll name) := by
  intro answered
  refine ⟨fst_answerWithin _ f given s t, fun hlate => ?_, fun hunstarted hopen => ?_⟩
  · refine ⟨channel_answerWithin_of_late _ f given hlate, ?_⟩
    rw [← h.started, ← h.isClosed] at hlate
    exact (channel_answerWithin_of_late _ f given hlate).trans h.channel
  · refine ⟨_, _, answer_page hpage limit f rfl hunstarted hopen,
      answer_page hpage limit f rfl (h.started.trans hunstarted) (h.isClosed.trans hopen),
      h.responseIn f _, rfl, ErrorPage.getAll_contentType_responseIn f _ _, fun name n hname hn => ?_⟩
    rw [Headers.getAll_of_name? hname, Headers.getAll_of_name? hname]
    exact Headers.valuesOf_eq_of_others (ErrorPage.others_responseIn f _ _) hn

/-- An exchange in which only a header is staged. -/
def labelled : Session := Session.awaited.stage (.header "x-tag" "b")

/-- The same exchange with an answer that is staged but for its body. -/
def halfStaged : Session :=
  [Staging.status .created, .header "content-type" "text/css", .header "x-tag" "b",
    .defaultContentType .html, .contentType .octetStream].foldl Session.stage .awaited

theorem answerWithin_halfStaged_labelled :
    ({} : App).boundary.handler = errorPage ∧ labelled.SameButStaged halfStaged ∧
    labelled.context.started = false ∧ labelled.isClosed = false ∧
    ∃ r r', (({} : App).boundary.answer (.ofError (.routeNotFound "/")) none
        labelled).2.channel.answer = some r ∧
      (({} : App).boundary.answer (.ofError (.routeNotFound "/")) none
        halfStaged).2.channel.answer = some r' ∧
      r.Same r' ∧ r.status = .notFound ∧ r.headers.getAll "x-tag" = [Bytes.ofText "b"] ∧
      r'.headers.getAll "Content-Type" = [Bytes.ofText "application/json"] := by
  have hsame : labelled.SameButStaged halfStaged := ⟨rfl, by decide +kernel, by decide +kernel⟩
  obtain ⟨-, -, hpage⟩ := answerWithin_halfStaged (b := ({} : App).boundary) rfl 63
    (.ofError (.routeNotFound "/")) none hsame
  obtain ⟨r, r', hr, hr', hparts, hstatus, htype, hheaders⟩ := hpage rfl rfl
  refine ⟨rfl, hsame, rfl, rfl, r, r', hr, hr', hparts, hstatus.trans (by decide +kernel), ?_, ?_⟩
  · exact (hheaders "x-tag" "x-tag" (by decide +kernel) (by decide)).trans (by decide +kernel)
  · have hname : r'.headers.getAll "Content-Type" = r'.headers.getAll "content-type" := by
      rw [Headers.getAll_contentType]
      exact Headers.getAll_of_name? (by decide +kernel) _
    rw [hname, hparts.values, htype]
    decide +kernel

end ErrorBoundary

end HttpApp
