/-
  HttpApp/Proofs/Session/Acts.lean --- what scripts and error handlers can do.

  Scripts, and the answers to errors that they send, do only a few of the things that
  can be done to an exchange.  Main statements: whatever they do, no hook, handler or
  task is called on the way, and the context stays on its thread.
-/
import HttpApp.Proofs.Session.Steps
import HttpApp.Server.Respond

set_option autoImplicit false

namespace HttpApp

/-- Whether this calls a hook, a handler, a task or a callback, and not an error handler. -/
def Call.isWork : Call → Bool
  | .errorHandler .. => false
  | _ => true

namespace Session

/-- The hooks, handlers, tasks and callbacks that were called, in order. -/
def calls (s : Session) : List Call := (callsOf s.record).filter Call.isWork

@[simp] theorem callsOf_append (es es' : List Entry) :
    callsOf (es ++ es') = callsOf es ++ callsOf es' := by
  induction es with
  | nil => rfl
  | cons e es ih =>
    cases e with
    | call c => exact congrArg (c :: ·) ih
    | _ => exact ih

/-- Nothing is called between two states of an exchange that have the same thread, but for error
handlers. -/
structure Quiet (s t : Session) : Prop where
  calls : t.calls = s.calls
  inIoThread : t.context.inIoThread = s.context.inIoThread

theorem Quiet.refl (s : Session) : Quiet s s := ⟨rfl, rfl⟩

theorem Quiet.trans {s t u : Session} (h : Quiet s t) (h' : Quiet t u) : Quiet s u :=
  ⟨h'.calls.trans h.calls, h'.inIoThread.trans h.inIoThread⟩

/-- Nothing at all is called between two states of an exchange that have the same thread. -/
structure Silent (s t : Session) : Prop where
  calls : callsOf t.record = callsOf s.record
  inIoThread : t.context.inIoThread = s.context.inIoThread

theorem Silent.refl (s : Session) : Silent s s := ⟨rfl, rfl⟩

theorem Silent.trans {s t u : Session} (h : Silent s t) (h' : Silent t u) : Silent s u :=
  ⟨h'.calls.trans h.calls, h'.inIoThread.trans h.inIoThread⟩

theorem Silent.quiet {s t : Session} (h : Silent s t) : Quiet s t :=
  ⟨congrArg (·.filter Call.isWork) h.calls, h.inIoThread⟩

theorem calls_called (s : Session) (c : Call) :
    (s.called c).calls = s.calls ++ [c].filter Call.isWork := by
  simp only [calls, called, add, callsOf_append, List.filter_append]
  rfl

/-- An entry that is no call leaves the calls as they are. -/
theorem quiet_add (s : Session) {e : Entry} (he : (callsOf [e]).filter Call.isWork = []) :
    Quiet s (s.add e) := by
  refine ⟨?_, rfl⟩
  simp only [calls, add, callsOf_append, List.filter_append, he, List.append_nil]

theorem silent_add (s : Session) {e : Entry} (he : callsOf [e] = []) : Silent s (s.add e) := by
  refine ⟨?_, rfl⟩
  rw [add, callsOf_append, he, List.append_nil]

theorem silent_stageHeader (s : Session) (name value : String) :
    Silent s (s.stageHeader name value) := by
  unfold stageHeader
  split
  · exact ⟨rfl, rfl⟩
  · exact silent_add s rfl

theorem silent_stage (s : Session) (x : Staging) : Silent s (s.stage x) := by
  cases x with
  | header name value => exact silent_stageHeader s name value
  | _ => exact ⟨rfl, rfl⟩

theorem silent_sleep (s : Session) (milliseconds : Nat) : Silent s (s.sleep milliseconds) := by
  unfold sleep
  dsimp only
  split
  · split
    · refine ⟨?_, rfl⟩
      simp only [add, callsOf_append, callsOf, List.append_nil]
    · exact ⟨rfl, rfl⟩
  · exact ⟨rfl, rfl⟩

theorem quiet_handOff (s : Session) : Quiet s s.handOff := by
  unfold handOff
  split <;> exact ⟨rfl, rfl⟩

theorem silent_hangUp (s : Session) : Silent s s.hangUp.2 := by
  unfold hangUp
  split <;> exact ⟨rfl, rfl⟩

theorem silent_complete (s : Session) (response : Response) :
    Silent s (s.complete response).2 := by
  unfold complete
  split
  · exact .refl s
  · split
    · exact .refl s
    · dsimp only
      split <;> exact ⟨rfl, rfl⟩

theorem silent_sendBytes (s : Session) (m : MediaType) (body : Bytes) :
    Silent s (s.sendBytes m body).2 := by
  have htaken : Silent s (s.takeContentType m).2 := ⟨rfl, rfl⟩
  exact htaken.trans (silent_complete (s.takeContentType m).2 _)

theorem silent_sendStatus (s : Session) (status : Status) : Silent s (s.sendStatus status).2 :=
  (silent_stage s (.status status)).trans (silent_complete _ _)

theorem silent_send (s : Session) (x : Sending) : Silent s (s.send x).2 := by
  cases x with
  | model m =>
    rw [send]
    split
    · exact silent_sendBytes s _ _
    · exact .refl s
  | text body => exact silent_sendBytes s _ _
  | bytes body => exact silent_sendBytes s _ _
  | status status => exact silent_sendStatus s status
  | redirect status location =>
    exact (silent_stageHeader s "location" location).trans (silent_sendStatus _ status)

theorem quiet_send (s : Session) (x : Sending) : Quiet s (s.send x).2 := (silent_send s x).quiet

/-- An operation of a script calls nothing. -/
theorem silent_perform (s : Session) (op : Op) : Silent s (s.perform op).2 := by
  cases op with
  | stage x => exact silent_stage s x
  | send x => exact silent_send s x
  | log e => exact silent_add s rfl
  | note text => exact silent_add s rfl
  | hangUp => exact silent_hangUp s
  | sleep milliseconds => exact silent_sleep s milliseconds
  | _ => exact .refl s

/-! ## Acts -/

/-- One thing that a script does, or the answer to an error. -/
inductive Act : Session → Session → Prop where
  | perform (s : Session) (op : Op) : Act s (s.perform op).2
  | complete (s : Session) (response : Response) : Act s (s.complete response).2
  | log (s : Session) (level : Level) (message : String) (fields : List (String × EventValue)) :
    Act s (s.log level message fields)
  | handle (s : Session) (f : Failure) (status : Status) :
    Act s (s.called (.errorHandler f status))

/-- What acts in any order can make of an exchange. -/
abbrev Acts : Session → Session → Prop := Relation.ReflTransGen Act

theorem Act.step {s t : Session} (h : Act s t) : Step s t := by
  cases h with
  | perform op => exact .perform s op
  | complete response => exact .complete s response
  | log level message fields => exact .add s _
  | handle f status => exact .add s _

theorem Act.quiet {s t : Session} (h : Act s t) : Quiet s t := by
  cases h with
  | perform op => exact (silent_perform s op).quiet
  | complete response => exact (silent_complete s response).quiet
  | log level message fields => exact quiet_add s rfl
  | handle f status => exact quiet_add s rfl

theorem Acts.reaches {s t : Session} (h : Acts s t) : Reaches s t := by
  induction h with
  | refl => exact .refl
  | tail _ act ih => exact ih.tail act.step

/-- Acts call nothing but error handlers, and leave the context on its thread. -/
theorem Acts.quiet {s t : Session} (h : Acts s t) : Quiet s t := by
  induction h with
  | refl => exact .refl s
  | tail _ act ih => exact ih.trans act.quiet

/-- What a run comes to by acts, where the run is known by its result. -/
theorem Acts.of_run {ε : Type} {s t : Session} {run : ε × Session} {ending : ε}
    (h : Acts s run.2) (hrun : run = (ending, t)) : Acts s t :=
  rel_of_run h hrun

end Session

open Session (Acts)

/-! ## Scripts and error handlers -/

/-- What each step of a script and each answer to an error does, a run of the script does. -/
theorem Script.run_closed {α : Type} {R : Session → Session → Prop} (hrefl : ∀ s, R s s)
    (htrans : ∀ {s t u}, R s t → R t u → R s u) (hperform : ∀ s op, R s (s.perform op).2)
    {answer : Failure → Option Status → Session → Ending Unit × Session}
    (hanswer : ∀ f status s, R s (answer f status s).2) (x : Script α) (s : Session) :
    R s (x.run answer s).2 := by
  induction x generalizing s with
  | ret a => exact hrefl s
  | panic p => exact hrefl s
  | ask op next ih => exact htrans (hperform s op) (ih _ _)
  | sendError f status next ih =>
    have hfirst := hanswer f status s
    rw [Script.run]
    rcases hrun : answer f status s with ⟨_ | p, t⟩
    · rw [hrun] at hfirst
      exact htrans hfirst (ih t)
    · rw [hrun] at hfirst
      exact hfirst

theorem Script.acts_run {α : Type}
    {answer : Failure → Option Status → Session → Ending Unit × Session}
    (hanswer : ∀ f status s, Acts s (answer f status s).2) (x : Script α) (s : Session) :
    Acts s (x.run answer s).2 :=
  run_closed (fun _ => .refl) .trans (fun s op => .single (.perform s op)) hanswer x s

namespace ErrorBoundary

theorem acts_conclude (f : Failure) (status : Status) (ending : Ending (Except Failure Unit))
    (s : Session) : Acts s (conclude f status ending s) := by
  -- The report of a failed handler comes first, the bare response after it.
  have hbare : ∀ t : Session, Acts t
      (if t.context.started then t else (t.complete (.bare status)).2) := by
    intro t
    split
    · exact .refl
    · exact .single (.complete t _)
  unfold conclude
  cases handlerFailure? ending with
  | none => exact hbare s
  | some reason => exact .head (.log s _ _ _) (hbare _)

theorem acts_reraise (f : Failure) (s : Session) : Acts s (reraise f s).2 := by
  cases f with
  | recoverable contexts cause => exact .refl
  | fatal f => exact .single (.log s _ _ _)

theorem acts_of_discard? {f : Failure} {status : Status} {s t : Session}
    (h : discard? f status s = some t) : Acts s t := by
  unfold discard? at h
  split at h
  · obtain rfl := Option.some.inj h
    exact .single (.log s _ _ _)
  · split at h
    · obtain rfl := Option.some.inj h
      exact .single (.log s _ _ _)
    · simp at h

theorem discard?_eq_none {f : Failure} {status : Status} {s : Session}
    (hstarted : s.context.started = false) (hclosed : s.isClosed = false) :
    discard? f status s = none := by
  simp [discard?, hstarted, hclosed]

/-- Where an answer can still be sent, an error is answered by the run of the error handler. -/
theorem answerWithin_of_run {b : ErrorBoundary} {limit : Nat} {f : Failure}
    {given : Option Status} {status : Status} (hstatus : given.getD (b.classify f) = status)
    {s t : Session} (hstarted : s.context.started = false) (hclosed : s.isClosed = false)
    {ending : Ending (Except Failure Unit)}
    (hrun : (b.handler f status).run (b.answerWithin limit) (handling f status s) = (ending, t)) :
    b.answerWithin (limit + 1) f given s = reraise f (conclude f status ending t) := by
  rw [answerWithin, hstatus]
  dsimp only
  rw [discard?_eq_none hstarted hclosed]
  dsimp only
  rw [hrun]

theorem acts_handling (f : Failure) (status : Status) (s : Session) :
    Acts s (handling f status s) :=
  .head (.perform s (.stage (.status status))) (.single (.handle _ f status))

theorem acts_answerWithin (b : ErrorBoundary) (limit : Nat) (f : Failure)
    (status : Option Status) (s : Session) : Acts s (b.answerWithin limit f status s).2 := by
  induction limit generalizing f status s with
  | zero =>
    rw [answerWithin]
    split
    · next t h => exact (acts_of_discard? h).trans (acts_reraise f t)
    · exact (acts_handling f _ s).trans ((acts_conclude ..).trans (acts_reraise ..))
  | succ limit ih =>
    rw [answerWithin]
    split
    · next t h => exact (acts_of_discard? h).trans (acts_reraise f t)
    · exact (acts_handling f _ s).trans ((Script.acts_run ih _ _).trans
        ((acts_conclude ..).trans (acts_reraise ..)))

theorem acts_answer (b : ErrorBoundary) (f : Failure) (status : Option Status) (s : Session) :
    Acts s (b.answer f status s).2 :=
  acts_answerWithin b b.nesting f status s

end ErrorBoundary

theorem Session.acts_sendModel (b : ErrorBoundary) (m : Model) (s : Session) :
    Acts s (s.sendModel b m).2 := by
  have hsend : Acts s (s.send (.model m)).2 := .single (.perform s (.send (.model m)))
  unfold sendModel
  split
  · next t heq => exact hsend.of_run heq
  · next e t heq => exact (hsend.of_run heq).trans (b.acts_answer _ _ t)

theorem Session.acts_sendImplied (s : Session) : Acts s s.sendImplied := by
  have hsend : Acts s (s.sendStatus s.context.status).2 :=
    .single (.perform s (.send (.status s.context.status)))
  unfold sendImplied
  split
  · exact .refl
  · split
    · next t heq => exact hsend.of_run heq
    · next e t heq => exact (hsend.of_run heq).tail (.log t _ _ _)

end HttpApp
