/-
  HttpApp/Proofs/Session/Alike.lean --- exchanges that differ in where they run.

  Where a handler hands its task over to an executor, the task runs on another thread,
  behind a caller that waits already; where the handler does what the task does, it
  runs on the thread of the caller.  `Session.Alike` says what two exchanges of that
  kind share.  Main statement: alike exchanges stay alike when the same step is done to
  both, and the step is told the same, unless it looks at the thread or the time of the
  caller is up (`Session.Alike.perform`).
-/
import HttpApp.Proofs.Session.Acts

set_option autoImplicit false

namespace HttpApp

/-- Whether an entry is made wherever a request runs: events and the calls of tasks tell where. -/
def Entry.isShared : Entry → Bool
  | .call (.task _) | .event _ => false
  | _ => true

def Entry.isTimeUp : Entry → Bool
  | .timeUp => true
  | _ => false

/-- A context on the thread that accepted the request, or on another one. -/
def Context.on (c : Context) (here : Bool) : Context := { c with inIoThread := here }

namespace Session

/-- Whether the caller stopped waiting because its time was up. -/
def expired (s : Session) : Bool := s.record.any Entry.isTimeUp

/-- A caller that waits began to do so in the past. -/
def Waited (s : Session) : Prop := ∀ c, s.patience.since = some c → c ≤ s.clock

/-- Two exchanges, the second one of which was handed to an executor at some time: they share all
but the thread, how long their callers wait, and what is reported.  They share the thread if the
executor is inline, and how long the callers wait if it runs jobs at once; otherwise the second
caller waits no later than the first one, which may wait without a limit. -/
structure Alike (x : Executor) (s t : Session) : Prop where
  context : t.context = s.context.on t.context.inIoThread
  channel : t.channel = s.channel
  record : t.record.filter Entry.isShared = s.record.filter Entry.isShared
  clock : t.clock = s.clock
  kept : t.kept = s.kept
  inIoThread : x.inline = true → t.context.inIoThread = s.context.inIoThread
  patience : x.placement = .caller → t.patience = s.patience
  limit : s.patience.limit = none ∨ t.patience.limit = s.patience.limit
  since : ∀ c, s.patience.since = some c → ∃ c' ≤ c, t.patience.since = some c'
  waited : t.Waited

/-- The caller that waits for an exchange which was handed to an executor did not wait in vain. -/
def Patient (x : Executor) (t : Session) : Prop := x.placement = .caller ∨ t.expired = false

variable {x : Executor} {s t u : Session}

theorem Reaches.patient (h : Reaches t u) (hu : Patient x u) : Patient x t := by
  refine hu.imp id fun hexpired => ?_
  obtain ⟨entries, hentries⟩ := h.record
  unfold expired at hexpired ⊢
  rw [← hentries, List.any_append, Bool.or_eq_false_iff] at hexpired
  exact hexpired.1

theorem Waited.alike (h : Waited s) : Alike x s s :=
  ⟨rfl, rfl, rfl, rfl, rfl, fun _ => rfl, fun _ => rfl, .inr rfl,
    fun c hc => ⟨c, Nat.le_refl c, hc⟩, h⟩

/-- Inline executors do not even change the thread. -/
theorem Alike.context_eq (h : Alike x s t) (hx : x.inline = true) : t.context = s.context := by
  rw [h.context, h.inIoThread hx]
  rfl

/-- What does not read the thread reads the same in both contexts. -/
theorem Alike.read {β : Type} (h : Alike x s t) (f : Context → β)
    (hf : ∀ c here, f (c.on here) = f c) : f t.context = f s.context := by
  rw [h.context, hf]

theorem Alike.withContext (h : Alike x s t) (f : Context → Context)
    (hf : ∀ c here, f (c.on here) = (f c).on here) :
    Alike x (s.withContext f) (t.withContext f) := by
  have hthread : ∀ c, (f c).inIoThread = c.inIoThread := by
    intro c
    have hon := congrArg Context.inIoThread (hf c c.inIoThread)
    exact hon
  refine { h with context := ?_, inIoThread := fun hx => ?_ }
  · change f t.context = (f s.context).on (f t.context).inIoThread
    rw [hthread, ← hf, ← h.context]
  · exact (hthread _).trans ((h.inIoThread hx).trans (hthread _).symm)

theorem Alike.add (h : Alike x s t) (e : Entry) : Alike x (s.add e) (t.add e) := by
  refine { h with record := ?_ }
  simp only [Session.add, List.filter_append, h.record]

/-- What is reported in one exchange need not be reported in the other. -/
theorem Alike.add_right (h : Alike x s t) {e : Entry} (he : e.isShared = false) :
    Alike x s (t.add e) := by
  refine { h with record := ?_ }
  simp [Session.add, List.filter_append, he, h.record]

theorem Alike.add_left (h : Alike x s t) {e : Entry} (he : e.isShared = false) :
    Alike x (s.add e) t := by
  refine { h with record := ?_ }
  simp [Session.add, List.filter_append, he, h.record]

theorem Alike.add_both (h : Alike x s t) {e e' : Entry} (he : e.isShared = false)
    (he' : e'.isShared = false) : Alike x (s.add e) (t.add e') :=
  (h.add_left he).add_right he'

theorem Alike.started (h : Alike x s t) : t.context.started = s.context.started :=
  h.read Context.started fun _ _ => rfl

theorem Alike.hasSender (h : Alike x s t) : t.context.hasSender = s.context.hasSender :=
  h.read Context.hasSender fun _ _ => rfl

theorem Alike.isClosed (h : Alike x s t) : t.isClosed = s.isClosed := by
  rw [Session.isClosed, Session.isClosed, h.hasSender, h.channel]

/-! ## Steps -/

theorem Alike.stageHeader (h : Alike x s t) (name value : String) :
    Alike x (s.stageHeader name value) (t.stageHeader name value) := by
  unfold Session.stageHeader
  split
  · next n v _ _ =>
    exact h.withContext (fun c => { c with headers := c.headers.insert n v }) fun _ _ => rfl
  · exact h.add _

theorem Alike.stage (h : Alike x s t) (st : Staging) : Alike x (s.stage st) (t.stage st) := by
  match st with
  | .status status => exact h.withContext (fun c => { c with status }) fun _ _ => rfl
  | .header name value => exact h.stageHeader name value
  | .contentType m => exact h.withContext (fun c => { c with contentType := some m }) fun _ _ => rfl
  | .defaultContentType m =>
    exact h.withContext (fun c => { c with defaultContentType := m }) fun _ _ => rfl
  | .attribute kind value =>
    exact h.withContext (fun c => { c with attributes := c.attributes.insert kind value })
      fun _ _ => rfl
  | .dropAttribute kind =>
    exact h.withContext (fun c => { c with attributes := c.attributes.erase kind }) fun _ _ => rfl

theorem Alike.complete (h : Alike x s t) (response : Response) :
    (t.complete response).1 = (s.complete response).1 ∧
      Alike x (s.complete response).2 (t.complete response).2 := by
  have hheaders := h.read Context.headers fun _ _ => rfl
  have htaken := h.withContext
    (fun c => { c with started := true, hasSender := false, headers := {} }) fun _ _ => rfl
  unfold Session.complete
  rw [h.started, h.hasSender, hheaders]
  split
  · exact ⟨rfl, h⟩
  · split
    · exact ⟨rfl, h⟩
    · dsimp only
      rw [htaken.channel]
      split
      · exact ⟨rfl, htaken⟩
      · exact ⟨rfl, { htaken with channel := rfl }⟩

theorem Alike.sendBytes (h : Alike x s t) (m : MediaType) (body : Bytes) :
    (t.sendBytes m body).1 = (s.sendBytes m body).1 ∧
      Alike x (s.sendBytes m body).2 (t.sendBytes m body).2 := by
  have htype : (t.takeContentType m).1 = (s.takeContentType m).1 :=
    h.read (fun c => c.contentType.getD m) fun _ _ => rfl
  have htaken : Alike x (s.takeContentType m).2 (t.takeContentType m).2 :=
    h.withContext (fun c => { c with contentType := none }) fun _ _ => rfl
  have hstatus := htaken.read Context.status fun _ _ => rfl
  unfold Session.sendBytes sendAs
  dsimp only
  rw [htype, hstatus]
  exact htaken.complete _

theorem Alike.sendStatus (h : Alike x s t) (status : Status) :
    (t.sendStatus status).1 = (s.sendStatus status).1 ∧
      Alike x (s.sendStatus status).2 (t.sendStatus status).2 :=
  (h.stage (.status status)).complete _

theorem Alike.send (h : Alike x s t) (y : Sending) :
    (t.send y).1 = (s.send y).1 ∧ Alike x (s.send y).2 (t.send y).2 := by
  cases y with
  | model m =>
    have hrendered : t.context.rendered m = s.context.rendered m :=
      h.read (fun c => c.rendered m) fun _ _ => rfl
    rw [Session.send, Session.send, hrendered]
    split
    · exact h.sendBytes _ _
    · exact ⟨rfl, h⟩
  | text body =>
    have htype := h.read Context.defaultContentType fun _ _ => rfl
    rw [Session.send, Session.send, htype]
    exact h.sendBytes _ _
  | bytes body => exact h.sendBytes _ _
  | status status => exact h.sendStatus status
  | redirect status location => exact (h.stageHeader "location" location).sendStatus status

theorem Alike.hangUp (h : Alike x s t) :
    t.hangUp.1 = s.hangUp.1 ∧ Alike x s.hangUp.2 t.hangUp.2 := by
  unfold Session.hangUp
  rw [h.channel]
  split
  · exact ⟨rfl, { h with channel := rfl }⟩
  · exact ⟨rfl, h⟩

/-! ## Time -/

/-- The time of the caller is up. -/
def IsDue (s : Session) : Prop :=
  ∃ limit since, s.patience.limit = some limit ∧ s.patience.since = some since ∧
    since + limit ≤ s.clock ∧ s.channel.answer = none ∧ s.channel.receiver ≠ .gone

/-- The caller that waits since earlier is not the later one whose time is up. -/
theorem Alike.isDue (h : Alike x s t) (hs : IsDue s) : IsDue t := by
  obtain ⟨limit, since, hlimit, hsince, hle, hanswer, hgone⟩ := hs
  obtain ⟨since', hearlier, hsince'⟩ := h.since since hsince
  have hlimited : s.patience.limit ≠ none := by simp [hlimit]
  have hsame := h.limit.resolve_left hlimited
  refine ⟨limit, since', hsame.trans hlimit, hsince', ?_, ?_, ?_⟩
  · rw [h.clock]
    omega
  · rw [h.channel, hanswer]
  · rw [h.channel]
    exact hgone

theorem Alike.isDue_left (h : Alike x s t) (hx : x.placement = .caller) (ht : IsDue t) :
    IsDue s := by
  unfold IsDue at ht ⊢
  rwa [h.clock, h.channel, h.patience hx] at ht

theorem sleep_of_isDue {milliseconds : Nat}
    (h : IsDue { s with clock := s.clock + milliseconds }) :
    s.sleep milliseconds =
      { s with
        clock := s.clock + milliseconds
        channel := { s.channel with receiver := .gone } }.add .timeUp := by
  obtain ⟨limit, since, hlimit, hsince, hle, hanswer, hgone⟩ := h
  unfold sleep
  simp_all

theorem sleep_of_not_isDue {milliseconds : Nat}
    (h : ¬IsDue { s with clock := s.clock + milliseconds }) :
    s.sleep milliseconds = { s with clock := s.clock + milliseconds } := by
  unfold sleep
  dsimp only
  split
  · next limit since hlimit hsince =>
    rw [if_neg]
    intro hup
    simp only [Bool.and_eq_true, decide_eq_true_eq, bne_iff_ne, Option.isNone_iff_eq_none] at hup
    exact h ⟨limit, since, hlimit, hsince, hup.1.1, hup.1.2, hup.2⟩
  · rfl

/-- Callers that wait equally long stop waiting together; and if the second one does not stop, the
first one does not, either. -/
theorem Alike.sleep (h : Alike x s t) (milliseconds : Nat)
    (hpatient : Patient x (t.sleep milliseconds)) :
    Alike x (s.sleep milliseconds) (t.sleep milliseconds) := by
  have hlater : Alike x { s with clock := s.clock + milliseconds }
      { t with clock := t.clock + milliseconds } :=
    { h with
      clock := congrArg (· + milliseconds) h.clock
      waited := fun c hc => Nat.le_trans (h.waited c hc) (Nat.le_add_right _ _) }
  by_cases hdue : IsDue { t with clock := t.clock + milliseconds }
  · have hcaller : x.placement = .caller := by
      refine hpatient.resolve_right ?_
      rw [sleep_of_isDue hdue]
      simp [expired, Session.add, Entry.isTimeUp]
    rw [sleep_of_isDue hdue, sleep_of_isDue (hlater.isDue_left hcaller hdue)]
    have hgone : Alike x
        { s with
          clock := s.clock + milliseconds
          channel := { s.channel with receiver := .gone } }
        { t with
          clock := t.clock + milliseconds
          channel := { t.channel with receiver := .gone } } :=
      { hlater with channel := congrArg (fun c => { c with receiver := .gone }) h.channel }
    exact hgone.add .timeUp
  · rw [sleep_of_not_isDue hdue, sleep_of_not_isDue fun hs => hdue (hlater.isDue hs)]
    exact hlater

theorem handOff_of_some {c : Nat} (h : s.patience.since = some c) : s.handOff = s := by
  simp only [handOff, h]

theorem handOff_of_none (h : s.patience.since = none) :
    s.handOff = { s with patience := { s.patience with since := some s.clock } } := by
  simp only [handOff, h]

/-- Where the second caller waits already, the first one begins to wait later. -/
theorem Alike.handOff (h : Alike x s t) : Alike x s.handOff t.handOff := by
  cases hs : s.patience.since with
  | some c =>
    obtain ⟨c', -, ht⟩ := h.since c hs
    rw [handOff_of_some hs, handOff_of_some ht]
    exact h
  | none =>
    rw [handOff_of_none hs]
    cases ht : t.patience.since with
    | some c =>
      rw [handOff_of_some ht]
      refine { h with patience := fun hx => ?_, since := fun c' hc' => ⟨c, ?_, ht⟩ }
      · rw [h.patience hx, hs] at ht
        simp at ht
      · obtain rfl := Option.some.inj hc'
        exact h.clock ▸ h.waited c ht
    | none =>
      rw [handOff_of_none ht]
      refine { h with patience := fun hx => ?_, since := fun c' hc' => ⟨c', Nat.le_refl c', ?_⟩,
                      waited := fun c' hc' => ?_ }
      · rw [h.patience hx, h.clock]
      · rw [h.clock]
        exact hc'
      · exact Nat.le_of_eq (Option.some.inj hc').symm

/-- Handing the second exchange over makes its caller wait, if it does not wait already. -/
theorem Alike.handOff_right (h : Alike x s t) (hx : x.placement ≠ .caller) :
    Alike x s t.handOff := by
  cases ht : t.patience.since with
  | some c =>
    rw [handOff_of_some ht]
    exact h
  | none =>
    rw [handOff_of_none ht]
    refine { h with patience := fun hcaller => absurd hcaller hx, since := fun c hc => ?_,
                    waited := fun c hc => Nat.le_of_eq (Option.some.inj hc).symm }
    obtain ⟨c', -, hc'⟩ := h.since c hc
    simp [ht] at hc'

/-- The same step is told the same, unless it looks at a thread that is not the same. -/
theorem Alike.perform (h : Alike x s t) {op : Op} (hop : op = .look → x.inline = true)
    (hpatient : Patient x (t.perform op).2) :
    (t.perform op).1 = (s.perform op).1 ∧ Alike x (s.perform op).2 (t.perform op).2 := by
  cases op with
  | look => exact ⟨h.context_eq (hop rfl), h⟩
  | isClosed => exact ⟨h.isClosed, h⟩
  | stage st => exact ⟨rfl, h.stage st⟩
  | send y => exact h.send y
  | log e => exact ⟨rfl, h.add _⟩
  | note text => exact ⟨rfl, h.add _⟩
  | hangUp => exact h.hangUp
  | sleep milliseconds => exact ⟨rfl, h.sleep milliseconds hpatient⟩
  | now => exact ⟨h.clock, h⟩

theorem Step.waited (h : Step s t) (hs : Waited s) : Waited t := by
  have hself : Alike .immediate s s := hs.alike
  cases h with
  | perform op => exact (hself.perform (fun _ => rfl) (.inl rfl)).2.waited
  | complete response => exact (hself.complete response).2.waited
  | handOff => exact hself.handOff.waited
  | _ => exact hs

theorem Reaches.waited (h : Reaches s t) (hs : Waited s) : Waited t := by
  induction h with
  | refl => exact hs
  | tail _ step ih => exact step.waited ih

end Session

end HttpApp
