/-
  HttpApp/Proofs/Session/Bearing.lean --- what is staged is delivered.

  Whatever sends the answer of an exchange, it has the staged headers and, unless it
  says otherwise, the staged status.  `Bears` is the invariant: of one header and of the
  status it says what is staged before the answer and what the answer has.  An operation
  that neither stages that header nor another kind of status keeps it, and so does a
  response of the framework.  Main statement: `Bears.perform`.
-/
import HttpApp.Proofs.Session.Acts

set_option autoImplicit false

namespace HttpApp

/-! ## The fields of one name -/

namespace Headers

/-- The fields of a name that is in lower case, one by one. -/
def fieldsOf (h : Headers) (name : String) : List (String × HeaderValue) :=
  h.toList.filter fun f => f.1 == name

theorem fieldsOf_others (h : Headers) {name other : String} (hne : other ≠ name) :
    fieldsOf ⟨h.others name⟩ other = h.fieldsOf other := by
  obtain ⟨fields⟩ := h
  simp only [fieldsOf, toList, others]
  induction fields with
  | nil => rfl
  | cons f fs ih =>
    rw [List.flatMap_cons, List.filter_append, ← ih]
    by_cases hf : f.1 = name
    · have hnone : (f.2.map fun v => (f.1, v)).filter (fun g => g.1 == other) = [] := by
        simp only [List.filter_eq_nil_iff, List.mem_map, hf]
        rintro _ ⟨v, -, rfl⟩
        simpa using hne.symm
      rw [List.filter_cons, if_neg (by simp [hf]), hnone, List.nil_append]
    · rw [List.filter_cons, if_pos (by simpa using hf), List.flatMap_cons, List.filter_append]

/-- Setting a name leaves the fields of the others as they are. -/
theorem fieldsOf_insert (h : Headers) {name other : String} (hne : other ≠ name)
    (value : HeaderValue) : (h.insert name value).fieldsOf other = h.fieldsOf other := by
  rw [← fieldsOf_others _ hne, others_insert, fieldsOf_others h hne]

theorem fieldsOf_insertAll (base : Headers) {h : Headers} {name : String}
    (hname : ∀ f ∈ h.toList, f.1 ≠ name) :
    (base.insertAll h).fieldsOf name = base.fieldsOf name := by
  unfold insertAll
  generalize h.toList = fields at hname
  induction fields generalizing base with
  | nil => rfl
  | cons f fs ih =>
    rw [List.foldl_cons, ih _ fun g hg => hname g (List.mem_cons_of_mem _ hg),
      fieldsOf_insert base (hname f List.mem_cons_self).symm]

theorem name?_location : name? "location" = some "location" := by decide +kernel

theorem name?_contentType : name? "content-type" = some "content-type" := by decide +kernel

end Headers

/-- A response with a content type alone has no other header. -/
theorem Response.fst_eq_contentType {r : Response} (hr : r.headers = {}) {value : String}
    {f : String × HeaderValue} (hf : f ∈ (r.withHeader "content-type" value).headers.toList) :
    f.1 = "content-type" := by
  rw [withHeader, Headers.insertText, Headers.name?_contentType, hr] at hf
  cases hv : HeaderValue.ofText? value with
  | none =>
    rw [hv] at hf
    cases hf
  | some v =>
    rw [hv] at hf
    exact congrArg Prod.fst (List.mem_singleton.mp hf)

/-! ## Operations -/

namespace Op

/-- The header that an operation stages, the content type of what it sends apart. -/
def header? : Op → Option String
  | .stage (.header name value) =>
    if (HeaderValue.ofText? value).isSome then Headers.name? name else none
  | .send (.redirect _ _) => some "location"
  | _ => none

/-- The status that an operation stages. -/
def status? : Op → Option Status
  | .stage (.status status) => some status
  | .send (.status status) => some status
  | .send (.redirect status _) => some status
  | _ => none

end Op

namespace Session

/-- Staging a header changes nothing of a context but its staged headers. -/
theorem context_stageHeader (s : Session) (name value : String) :
    (s.stageHeader name value).context =
      { s.context with headers := s.context.headers.insertText name value } := by
  unfold stageHeader Headers.insertText
  cases Headers.name? name with
  | none => rfl
  | some n => cases HeaderValue.ofText? value <;> rfl

theorem channel_stageHeader (s : Session) (name value : String) :
    (s.stageHeader name value).channel = s.channel := by
  unfold stageHeader
  split <;> rfl

/-! ## The invariant -/

/-- What is staged before the answer, and what the answer has: these fields of one header, and a
status of some kind. -/
structure Bears (name : String) (fields : List (String × HeaderValue)) (kind : Status → Prop)
    (s : Session) : Prop where
  staged : s.context.started = false →
    s.context.headers.fieldsOf name = fields ∧ kind s.context.status
  sent : ∀ x, s.channel.answer = some x → x.headers.fieldsOf name = fields ∧ kind x.status

variable {name : String} {fields : List (String × HeaderValue)} {kind : Status → Prop}
  {s : Session}

theorem Bears.add (h : Bears name fields kind s) (e : Entry) : Bears name fields kind (s.add e) :=
  ⟨h.staged, h.sent⟩

/-- A response has the staged fields of every header that is not its own. -/
theorem Bears.complete (h : Bears name fields kind s) {response : Response}
    (hname : ∀ f ∈ response.headers.toList, f.1 ≠ name)
    (hstatus : s.context.started = false → kind response.status) :
    Bears name fields kind (s.complete response).2 := by
  unfold Session.complete
  split
  · exact h
  · next hstarted =>
    have hfalse : s.context.started = false := by simpa using hstarted
    split
    · exact h
    · dsimp only
      split
      · exact ⟨fun hs => (by cases hs), h.sent⟩
      · refine ⟨fun hs => (by cases hs), ?_⟩
        rintro x hx
        obtain rfl := Option.some.inj hx
        refine ⟨?_, hstatus hfalse⟩
        rw [Headers.fieldsOf_insertAll _ hname]
        exact (h.staged hfalse).1

theorem Bears.stageHeader (h : Bears name fields kind s) {n value : String}
    (hname : Headers.name? n = some name → HeaderValue.ofText? value = none) :
    Bears name fields kind (s.stageHeader n value) := by
  unfold Session.stageHeader
  split
  · next m v hm hv =>
    have hne : name ≠ m := by
      rintro rfl
      rw [hname hm] at hv
      cases hv
    refine ⟨fun hs => ⟨?_, (h.staged hs).2⟩, h.sent⟩
    exact (Headers.fieldsOf_insert _ hne v).trans (h.staged hs).1
  · exact h.add _

theorem Bears.stageStatus (h : Bears name fields kind s) {status : Status} (hs : kind status) :
    Bears name fields kind (s.stage (.status status)) :=
  ⟨fun hf => ⟨(h.staged hf).1, hs⟩, h.sent⟩

theorem Bears.sendStatus (h : Bears name fields kind s) {status : Status} (hs : kind status) :
    Bears name fields kind (s.sendStatus status).2 :=
  (h.stageStatus hs).complete (fun f hf => by cases hf) fun _ => hs

/-- Bytes are sent with a content type of their own, and the staged status. -/
theorem Bears.sendBytes (h : Bears name fields kind s) (hname : name ≠ "content-type")
    (m : MediaType) (body : Bytes) : Bears name fields kind (s.sendBytes m body).2 := by
  have htaken : Bears name fields kind (s.takeContentType m).2 := ⟨h.staged, h.sent⟩
  refine htaken.complete (fun f hf => ?_) fun hs => (h.staged hs).2
  rw [Response.fst_eq_contentType (r := .ofStatus s.context.status) rfl hf]
  exact hname.symm

theorem Bears.completeBare (h : Bears name fields kind s) (hname : name ≠ "content-type")
    {status : Status} (hs : kind status) :
    Bears name fields kind (s.complete (.bare status)).2 := by
  refine h.complete (fun f hf => ?_) fun _ => hs
  rw [Response.fst_eq_contentType (r := {}) rfl hf]
  exact hname.symm

theorem Bears.sleep (h : Bears name fields kind s) (milliseconds : Nat) :
    Bears name fields kind (s.sleep milliseconds) := by
  unfold Session.sleep
  dsimp only
  split
  · split <;> exact ⟨h.staged, h.sent⟩
  · exact ⟨h.staged, h.sent⟩

/-- An operation that stages neither the header nor a status of another kind keeps what is staged
and what the answer has. -/
theorem Bears.perform (h : Bears name fields kind s) (hname : name ≠ "content-type") {op : Op}
    (hheader : op.header? ≠ some name) (hstatus : ∀ status, op.status? = some status → kind status) :
    Bears name fields kind (s.perform op).2 := by
  cases op with
  | look | isClosed | now => exact h
  | log e => exact h.add _
  | note text => exact h.add _
  | sleep milliseconds => exact h.sleep milliseconds
  | hangUp =>
    unfold Session.perform Session.hangUp
    dsimp only
    split
    · exact ⟨h.staged, h.sent⟩
    · exact h
  | stage x =>
    cases x with
    | status status => exact h.stageStatus (hstatus status rfl)
    | header n value =>
      refine h.stageHeader fun hn => ?_
      cases hv : HeaderValue.ofText? value with
      | none => rfl
      | some v => exact absurd (by simp [Op.header?, hv, hn]) hheader
    | _ => exact ⟨h.staged, h.sent⟩
  | send x =>
    cases x with
    | model m =>
      rw [Session.perform, Session.send]
      split
      · exact h.sendBytes hname _ _
      · exact h
    | text body => exact h.sendBytes hname _ _
    | bytes body => exact h.sendBytes hname _ _
    | status status => exact h.sendStatus (hstatus status rfl)
    | redirect status location =>
      refine (h.stageHeader fun hn => ?_).sendStatus (hstatus status rfl)
      rw [Headers.name?_location] at hn
      exact absurd hn hheader

end Session

end HttpApp
