/-
  HttpApp/Proofs/Session/Staging.lean --- what a response is made of.

  What is staged one after the other leaves the last of each kind: a status, a value for
  each header, a content type, and a content type for texts.  A send counts as the last
  thing that is staged where it stages something itself.  Main statement: a response has
  all that, and one content type if it has a body (`Session.send_delivers`).
-/
import HttpApp.Proofs.Session.Bearing
import HttpApp.Proofs.Session.Departure
import HttpApp.Proofs.Session.Givens
import Mathlib.Data.List.Induction

set_option autoImplicit false

namespace HttpApp

/-! ## Header fields given as texts -/

namespace Headers

/-- The value that a field given as texts has for a name in lower case: none if it has another
name, or if its name or its value is bad. -/
def fieldValue? (name value n : String) : Option HeaderValue :=
  if name? name = some n then HeaderValue.ofText? value else none

/-- A field given as texts sets the values of its name, and of no other. -/
theorem valuesOf_insertText (h : Headers) (name value n : String) :
    (h.insertText name value).valuesOf n =
      ((fieldValue? name value n).map fun v => [v]).getD (h.valuesOf n) := by
  unfold insertText fieldValue?
  cases hname : name? name with
  | none => simp
  | some m =>
    cases HeaderValue.ofText? value with
    | none => simp
    | some v =>
      rw [valuesOf_insert]
      by_cases hn : n = m
      · simp [hn]
      · rw [if_neg hn, if_neg fun heq => hn (Option.some.inj heq).symm]
        rfl

/-- Fields set over others are set one by one. -/
theorem insertAll_insertText (base : Headers) (name value : String) :
    base.insertAll (({} : Headers).insertText name value) = base.insertText name value := by
  unfold insertText
  cases name? name with
  | none => rfl
  | some n => cases HeaderValue.ofText? value <;> rfl

theorem getAll_of_name? {name n : String} (h : name? name = some n) (headers : Headers) :
    headers.getAll name = headers.valuesOf n := by
  simp only [getAll, h]

theorem getAll_contentType (h : Headers) : h.getAll "content-type" = h.valuesOf "content-type" :=
  getAll_of_name? name?_contentType h

/-- A legal value of a header is the bytes of its text. -/
theorem valuesOf_insertText_self {name value : String} (hname : name? name = some name)
    (hvalue : (HeaderValue.ofText? value).isSome) (h : Headers) :
    (h.insertText name value).valuesOf name = [Bytes.ofText value] := by
  have htext : HeaderValue.ofText? value = some (Bytes.ofText value) := by
    unfold HeaderValue.ofText? at hvalue ⊢
    dsimp only at hvalue ⊢
    split at hvalue
    · next hall => exact if_pos hall
    · simp at hvalue
  simp [valuesOf_insertText, fieldValue?, hname, htext]

end Headers

/-! ## What operations stage -/

namespace Op

/-- The value that an operation stages for the header of a name in lower case. -/
def value? (n : String) : Op → Option HeaderValue
  | .stage (.header name value) => Headers.fieldValue? name value n
  | .send (.redirect _ location) => Headers.fieldValue? "location" location n
  | _ => none

/-- The content type that an operation stages for whatever is sent. -/
def contentType? : Op → Option MediaType
  | .stage (.contentType m) => some m
  | _ => none

/-- The content type that an operation stages for texts. -/
def defaultContentType? : Op → Option MediaType
  | .stage (.defaultContentType m) => some m
  | _ => none

/-- The last of what operations stage of a kind. -/
def last? {β : Type} (kind : Op → Option β) (ops : List Op) : Option β :=
  (ops.filterMap kind).getLast?

theorem last?_concat {β : Type} (kind : Op → Option β) (ops : List Op) (op : Op) :
    last? kind (ops ++ [op]) = (kind op).or (last? kind ops) := by
  unfold last?
  rw [List.filterMap_append, List.getLast?_append]
  cases hop : kind op <;> simp [hop]

theorem last?_cons {β : Type} (kind : Op → Option β) (op : Op) (ops : List Op) :
    last? kind (op :: ops) = (last? kind ops).or (kind op) := by
  unfold last?
  cases hop : kind op with
  | none => rw [List.filterMap_cons_none hop, Option.or_none]
  | some v =>
    rw [List.filterMap_cons_some hop, List.getLast?_cons]
    cases (ops.filterMap kind).getLast? <;> rfl

end Op

namespace Response

/-- A response has the last status that operations stage, and for each header but the content type
the last value that they stage, or else what a context has. -/
structure HasStaged (r : Response) (c : Context) (ops : List Op) : Prop where
  status : r.status = (Op.last? Op.status? ops).getD c.status
  headers : ∀ name n, Headers.name? name = some n → n ≠ "content-type" →
    r.headers.getAll name =
      ((Op.last? (Op.value? n) ops).map fun v => [v]).getD (c.headers.getAll name)

/-- A response has one content type, if the text of that is a legal value of a header. -/
def HasType (r : Response) (m : MediaType) : Prop :=
  (HeaderValue.ofText? m.shown).isSome → r.headers.getAll "content-type" = [Bytes.ofText m.shown]

/-- A response has the body of what is sent, and the content type that is set, or else that of the
renderer, of texts or of bytes. -/
def Carries (r : Response) (c : Context) (contentType : Option MediaType) (ofTexts : MediaType) :
    Sending → Prop
  | .model m => ∀ rendered, c.rendered m = .ok rendered →
    r.body = rendered.body ∧ r.HasType (contentType.getD rendered.mediaType)
  | .text body => r.body = Bytes.ofText body ∧ r.HasType (contentType.getD ofTexts)
  | .bytes body => r.body = body ∧ r.HasType (contentType.getD .octetStream)
  | .status _ | .redirect _ _ => r.body = []

end Response

namespace Session

/-! ## What is staged one after the other -/

/-- If each step of staging sets something of a kind, or leaves it, the last step that sets it
decides. -/
theorem get_foldl_stage {β γ : Type} (get : Session → β) (kind : Op → Option γ) (set : γ → β)
    (h : ∀ s x, get (s.stage x) = ((kind (.stage x)).map set).getD (get s)) (s : Session)
    (xs : List Staging) :
    get (xs.foldl stage s) = ((Op.last? kind (xs.map .stage)).map set).getD (get s) := by
  induction xs using List.reverseRecOn with
  | nil => rfl
  | append_singleton xs x ih =>
    rw [List.foldl_append, List.foldl_cons, List.foldl_nil, h, ih, List.map_append,
      List.map_singleton, Op.last?_concat]
    cases kind (.stage x) <;> rfl

variable (s : Session) (xs : List Staging)

theorem status_foldl_stage :
    (xs.foldl stage s).context.status =
      (Op.last? Op.status? (xs.map .stage)).getD s.context.status := by
  refine (get_foldl_stage (·.context.status) Op.status? id (fun s x => ?_) s xs).trans
    (by rw [Option.map_id_fun, id])
  cases x with
  | header name value =>
    have hsame := congrArg Context.status (context_stageHeader s name value)
    exact hsame
  | _ => rfl

theorem valuesOf_foldl_stage (n : String) :
    (xs.foldl stage s).context.headers.valuesOf n =
      ((Op.last? (Op.value? n) (xs.map .stage)).map fun v => [v]).getD
        (s.context.headers.valuesOf n) := by
  refine get_foldl_stage (·.context.headers.valuesOf n) (Op.value? n) (fun v => [v])
    (fun s x => ?_) s xs
  cases x with
  | header name value =>
    dsimp only [stage]
    rw [context_stageHeader, Headers.valuesOf_insertText]
    rfl
  | _ => rfl

theorem contentType_foldl_stage :
    (xs.foldl stage s).context.contentType =
      (Op.last? Op.contentType? (xs.map .stage)).or s.context.contentType := by
  refine (get_foldl_stage (·.context.contentType) Op.contentType? some
    (fun s x => ?_) s xs).trans (by cases Op.last? Op.contentType? (xs.map .stage) <;> rfl)
  cases x with
  | header name value =>
    have hsame := congrArg Context.contentType (context_stageHeader s name value)
    exact hsame
  | _ => rfl

theorem defaultContentType_foldl_stage :
    (xs.foldl stage s).context.defaultContentType =
      (Op.last? Op.defaultContentType? (xs.map .stage)).getD s.context.defaultContentType := by
  refine (get_foldl_stage (·.context.defaultContentType) Op.defaultContentType? id
    (fun s x => ?_) s xs).trans (by rw [Option.map_id_fun, id])
  cases x with
  | header name value =>
    have hsame := congrArg Context.defaultContentType (context_stageHeader s name value)
    exact hsame
  | _ => rfl

theorem given_foldl_stage : (xs.foldl stage s).context.given = s.context.given := by
  induction xs generalizing s with
  | nil => rfl
  | cons x xs ih => rw [List.foldl_cons, ih, given_stage]

/-! ## First sends -/

/-- Nothing was sent, and somebody waits for an answer. -/
structure Open (s : Session) : Prop where
  unstarted : s.context.started = false
  hasSender : s.context.hasSender = true
  waits : s.channel.receiver ≠ .gone

variable {s : Session}

theorem Open.of_isClosed (hunstarted : s.context.started = false) (hopen : s.isClosed = false) :
    Open s := by
  simp only [isClosed, Bool.or_eq_false_iff, Bool.not_eq_false', beq_eq_false_iff_ne] at hopen
  exact ⟨hunstarted, hopen.1, hopen.2⟩

theorem Open.stage (h : Open s) (x : Staging) : Open (s.stage x) := by
  have hkeeps := keeps_stage s x
  have hchannel : (s.stage x).channel = s.channel := by
    cases x with
    | header name value => exact channel_stageHeader s name value
    | _ => rfl
  exact ⟨hkeeps.started.trans h.unstarted, hkeeps.hasSender.trans h.hasSender, hchannel ▸ h.waits⟩

theorem Open.foldl_stage (h : Open s) (xs : List Staging) : Open (xs.foldl Session.stage s) := by
  induction xs generalizing s with
  | nil => exact h
  | cons x xs ih => exact ih (h.stage x)

/-- What a send that succeeds leaves: a response in the channel, and a started context. -/
structure Delivers (r : Response) (sent : Except Error Unit × Session) : Prop where
  succeeds : sent.1 = .ok ()
  started : sent.2.context.started = true
  answer : sent.2.channel.answer = some r

theorem Open.complete (h : Open s) (response : Response) :
    Delivers { response with headers := s.context.headers.insertAll response.headers }
      (s.complete response) := by
  unfold Session.complete
  rw [if_neg (by simp [h.unstarted]), if_neg (by simp [h.hasSender])]
  dsimp only
  rw [if_neg (by exact h.waits)]
  exact ⟨rfl, rfl, rfl⟩

/-- The response of a body: the staged status, and a content type over the staged headers. -/
theorem Open.sendBytes (h : Open s) (m : MediaType) (body : Bytes) :
    Delivers
      { status := s.context.status
        headers := s.context.headers.insertText "content-type" (s.context.contentType.getD m).shown
        body }
      (s.sendBytes m body) := by
  have htaken : Open (s.takeContentType m).2 := ⟨h.unstarted, h.hasSender, h.waits⟩
  have hsent := htaken.complete
    { Response.withHeader (.ofStatus s.context.status) "content-type"
        (s.context.contentType.getD m).shown with body }
  rw [← Headers.insertAll_insertText]
  exact hsent

/-- The response of a status alone: the staged headers. -/
theorem Open.sendStatus (h : Open s) (status : Status) :
    Delivers { status, headers := s.context.headers } (s.sendStatus status) :=
  (h.stage (.status status)).complete (.ofStatus status)

/-! ## Sends behind what is staged -/

/-- A body behind what is staged: nothing that is staged under the name of the content type shows
in the response. -/
theorem Open.sendBytes_foldl_stage (h : Open s) (xs : List Staging) {x : Sending}
    (hstatus : Op.status? (.send x) = none) (hvalue : ∀ n, Op.value? n (.send x) = none)
    (m : MediaType) (body : Bytes) :
    ((xs.foldl Session.stage s).sendBytes m body).1 = .ok () ∧
      ∃ r, ((xs.foldl Session.stage s).sendBytes m body).2.channel.answer = some r ∧
        r.HasStaged s.context (xs.map .stage ++ [.send x]) ∧ r.body = body ∧
        r.HasType ((xs.foldl Session.stage s).context.contentType.getD m) := by
  have hsent := (h.foldl_stage xs).sendBytes m body
  refine ⟨hsent.succeeds, _, hsent.answer, ⟨?_, fun name n hname hn => ?_⟩, rfl, fun hlegal => ?_⟩
  · dsimp only
    rw [status_foldl_stage, Op.last?_concat, hstatus, Option.none_or]
  · dsimp only
    rw [Headers.getAll_of_name? hname, Headers.getAll_of_name? hname, Headers.valuesOf_insertText,
      Headers.fieldValue?, Headers.name?_contentType, if_neg fun heq => hn (Option.some.inj heq).symm,
      Option.map_none, Option.getD_none, valuesOf_foldl_stage, Op.last?_concat, hvalue,
      Option.none_or]
  · rw [Headers.getAll_contentType]
    exact Headers.valuesOf_insertText_self Headers.name?_contentType hlegal _

/-- A status behind what is staged, where operations stage that status and the same headers. -/
theorem Open.sendStatus_foldl_stage (h : Open s) (xs : List Staging) {ops : List Op}
    {status : Status} (hstatus : Op.last? Op.status? ops = some status)
    (hvalue : ∀ n, Op.last? (Op.value? n) (xs.map .stage) = Op.last? (Op.value? n) ops) :
    ((xs.foldl Session.stage s).sendStatus status).1 = .ok () ∧
      ∃ r, ((xs.foldl Session.stage s).sendStatus status).2.channel.answer = some r ∧
        r.HasStaged s.context ops ∧ r.body = [] := by
  have hsent := (h.foldl_stage xs).sendStatus status
  refine ⟨hsent.succeeds, _, hsent.answer, ⟨?_, fun name n hname _ => ?_⟩, rfl⟩
  · rw [hstatus]
    rfl
  · dsimp only
    rw [Headers.getAll_of_name? hname, Headers.getAll_of_name? hname, valuesOf_foldl_stage, hvalue]

/-- What a response is made of.  Let somebody wait, and let nothing be sent.  Let anything be
staged, in any order, and then a model for which a renderer is found, a text, bytes, or nothing
but a status be sent.  The send succeeds, and the response has

* the last status that is staged;
* for each header but the content type the last legal value that is staged, the place where a
  redirect leads being staged by it;
* the body that is given or rendered, or none;
* with a body, one content type: the last one that is staged as such, or else the last one that is
  staged for texts, that of bytes, or that of the renderer.

Of what is not staged it has what was there. -/
theorem send_delivers (s : Session) (hunstarted : s.context.started = false)
    (hopen : s.isClosed = false) (xs : List Staging) (x : Sending)
    (hx : x.Negotiated s.context) :
    let ops := xs.map Op.stage ++ [.send x]
    let contentType := (Op.last? Op.contentType? ops).or s.context.contentType
    let ofTexts := (Op.last? Op.defaultContentType? ops).getD s.context.defaultContentType
    let sent := (xs.foldl stage s).send x
    sent.1 = .ok () ∧
      ∃ r, sent.2.channel.answer = some r ∧ r.HasStaged s.context ops ∧
        r.Carries s.context contentType ofTexts x := by
  intro ops contentType ofTexts sent
  have hs := Open.of_isClosed hunstarted hopen
  have hcontentType : (xs.foldl stage s).context.contentType = contentType :=
    (contentType_foldl_stage s xs).trans
      (congrArg (Option.or · _) (Op.last?_concat Op.contentType? (xs.map .stage) (.send x)).symm)
  have hofTexts : (xs.foldl stage s).context.defaultContentType = ofTexts :=
    (defaultContentType_foldl_stage s xs).trans
      (congrArg (Option.getD · _)
        (Op.last?_concat Op.defaultContentType? (xs.map .stage) (.send x)).symm)
  rw [← hcontentType, ← hofTexts]
  cases x with
  | model m =>
    obtain ⟨rendered, hm⟩ := hx
    have hrendered : (xs.foldl stage s).context.rendered m = .ok rendered :=
      (congrArg (Context.rendered · m) (given_foldl_stage s xs)).trans hm
    have hsent : sent = (xs.foldl stage s).sendBytes rendered.mediaType rendered.body := by
      change (xs.foldl stage s).send (.model m) = _
      rw [send, hrendered]
    rw [hsent]
    obtain ⟨hok, r, hr, hstaged, hparts⟩ := hs.sendBytes_foldl_stage xs (x := .model m) rfl
      (fun _ => rfl) rendered.mediaType rendered.body
    refine ⟨hok, r, hr, hstaged, fun rendered' hm' => ?_⟩
    obtain rfl : rendered = rendered' := Except.ok.inj (hm.symm.trans hm')
    exact hparts
  | text body => exact hs.sendBytes_foldl_stage xs rfl (fun _ => rfl) _ _
  | bytes body => exact hs.sendBytes_foldl_stage xs rfl (fun _ => rfl) _ _
  | status status =>
    exact hs.sendStatus_foldl_stage xs (Op.last?_concat Op.status? (xs.map .stage) _)
      fun n => (Op.last?_concat (Op.value? n) (xs.map .stage) (.send (.status status))).symm
  | redirect status location =>
    -- A redirect is a status behind one more header that is staged.
    have hsent := hs.sendStatus_foldl_stage (xs ++ [.header "location" location])
      (Op.last?_concat Op.status? (xs.map .stage) (.send (.redirect status location))) fun n => by
        rw [List.map_append, List.map_singleton, Op.last?_concat, Op.last?_concat]
        rfl
    rwa [List.foldl_append] at hsent

/-- An exchange in which somebody waits for an answer. -/
def awaited : Session where
  context := { request := { method := .get, path := "/" }, renderers := [.text] }

/-- A status, and headers that are set more than once, some of them badly. -/
def motley : List Staging :=
  [.header "x-tag" "a", .status .created, .header "X-Tag" "b", .header "x-tag" "\n",
    .header "x tag" "c", .header "Content-Type" "text/css", .defaultContentType .html]

/-- Of each header the last legal value is delivered, and the renderer has its content type. -/
theorem send_delivers_awaited :
    awaited.context.started = false ∧ awaited.isClosed = false ∧
      (Sending.model (.text "é")).Negotiated awaited.context ∧
      ∃ r, ((motley.foldl stage awaited).send (.model (.text "é"))).2.channel.answer = some r ∧
        r.status = .created ∧ r.headers.getAll "X-TAG" = [Bytes.ofText "b"] ∧
        r.headers.getAll "content-type" = [Bytes.ofText "text/plain; charset=utf-8"] ∧
        r.body = [195, 169] := by
  have hx : (Sending.model (.text "é")).Negotiated awaited.context := ⟨⟨.text, [195, 169]⟩, rfl⟩
  obtain ⟨-, r, hr, hstaged, hcarries⟩ :=
    send_delivers awaited rfl rfl motley (.model (.text "é")) hx
  obtain ⟨hbody, htype⟩ := hcarries ⟨.text, [195, 169]⟩ rfl
  refine ⟨rfl, rfl, hx, r, hr, hstaged.status.trans (by decide +kernel), ?_,
    htype (by decide +kernel), hbody⟩
  exact (hstaged.headers "X-TAG" "x-tag" (by decide +kernel) (by decide)).trans (by decide +kernel)

end Session

end HttpApp
