/-
  HttpApp/Proofs/Session/Moves.lean --- what an application does to an exchange.

  A move is a step that an application takes.  The caller of an exchange takes none:
  if no script can make it go away, it goes only when a script lets its time run out.
  Main statement: such a caller is gone exactly if its time was up, and then it got
  nothing (`Session.Moves.held`).
-/
import HttpApp.Proofs.Session.Alike

set_option autoImplicit false

namespace HttpApp.Session

/-! ## Moves -/

/-- One thing that an application does to an exchange. -/
inductive Move : Session → Session → Prop where
  /-- a step of a script, or a send or a report of the framework -/
  | perform (s : Session) (op : Op) : Move s (s.perform op).2
  /-- the framework sends a response of its own -/
  | complete (s : Session) (response : Response) : Move s (s.complete response).2
  | called (s : Session) (c : Call) : Move s (s.called c)
  /-- a route takes the request -/
  | bound (s : Session) (r : Route) (captures : Pattern.Captures) : Move s (s.bound r captures)
  /-- the context leaves the thread that accepted the request -/
  | leave (s : Session) : Move s (s.withContext fun c => { c with inIoThread := false })
  /-- the caller begins to wait -/
  | handOff (s : Session) : Move s s.handOff
  /-- the default pool of workers starts -/
  | startPool (s : Session) : Move s { s with poolStarted := true }
  /-- who owns the context gives it up or keeps it for good -/
  | keep (s : Session) (kept : Bool) : Move s { s with kept }

/-- What an application can make of an exchange. -/
abbrev Moves : Session → Session → Prop := Relation.ReflTransGen Move

theorem Move.log (s : Session) (level : Level) (message : String)
    (fields : List (String × EventValue)) : Move s (s.log level message fields) :=
  .perform s (.log ⟨level, message, fields⟩)

theorem Move.step {s t : Session} (h : Move s t) : Step s t := by
  cases h with
  | perform op => exact .perform s op
  | complete response => exact .complete s response
  | called c => exact .add s _
  | bound r captures => exact .bound s r captures
  | leave => exact .leave s
  | handOff => exact .handOff s
  | startPool => exact .startPool s
  | keep kept => exact .keep s kept

theorem Act.move {s t : Session} (h : Act s t) : Move s t := by
  cases h with
  | perform op => exact .perform s op
  | complete response => exact .complete s response
  | log level message fields => exact .log s level message fields
  | handle f status => exact .called s _

theorem Moves.reaches {s t : Session} (h : Moves s t) : Reaches s t := by
  induction h with
  | refl => exact .refl
  | tail _ move ih => exact ih.tail move.step

theorem Acts.moves {s t : Session} (h : Acts s t) : Moves s t := by
  induction h with
  | refl => exact .refl
  | tail _ act ih => exact ih.tail act.move

/-! ## Callers whom only their time makes go away -/

/-- No script can make the caller go away; it is gone if its time was up, and then it got
nothing. -/
structure Held (s : Session) : Prop where
  unreachable : s.channel.receiver ≠ .reachable
  gone_iff : s.channel.receiver = .gone ↔ s.expired = true
  unanswered : s.channel.receiver = .gone → s.channel.answer = none

variable {s t : Session}

theorem expired_add (s : Session) (e : Entry) : (s.add e).expired = (s.expired || e.isTimeUp) := by
  simp [expired, add]

theorem Held.of_eq (h : Held s) (hchannel : t.channel = s.channel)
    (hexpired : t.expired = s.expired) : Held t := by
  refine ⟨?_, ?_, ?_⟩ <;> rw [hchannel]
  · exact h.unreachable
  · rw [hexpired]
    exact h.gone_iff
  · exact h.unanswered

theorem Held.add (h : Held s) {e : Entry} (he : e.isTimeUp = false) : Held (s.add e) :=
  h.of_eq rfl (by rw [expired_add, he, Bool.or_false])

theorem Held.stageHeader (h : Held s) (name value : String) : Held (s.stageHeader name value) := by
  unfold Session.stageHeader
  split
  · exact h.of_eq rfl rfl
  · exact h.add rfl

theorem Held.stage (h : Held s) (x : Staging) : Held (s.stage x) := by
  cases x with
  | header name value => exact h.stageHeader name value
  | _ => exact h.of_eq rfl rfl

/-- An answer goes only to a caller that is not gone. -/
theorem Held.complete (h : Held s) (response : Response) : Held (s.complete response).2 := by
  unfold Session.complete
  split
  · exact h
  · split
    · exact h
    · dsimp only
      split
      · exact h.of_eq rfl rfl
      · next hreceiver => exact ⟨h.unreachable, h.gone_iff, fun hgone => absurd hgone hreceiver⟩

theorem Held.sendBytes (h : Held s) (m : MediaType) (body : Bytes) : Held (s.sendBytes m body).2 :=
  (h.of_eq rfl rfl : Held (s.takeContentType m).2).complete _

theorem Held.sendStatus (h : Held s) (status : Status) : Held (s.sendStatus status).2 :=
  (h.stage (.status status)).complete _

theorem Held.send (h : Held s) (x : Sending) : Held (s.send x).2 := by
  cases x with
  | model m =>
    rw [Session.send]
    split
    · exact h.sendBytes _ _
    · exact h
  | text body => exact h.sendBytes _ _
  | bytes body => exact h.sendBytes _ _
  | status status => exact h.sendStatus status
  | redirect status location => exact (h.stageHeader "location" location).sendStatus status

theorem Held.sleep (h : Held s) (milliseconds : Nat) : Held (s.sleep milliseconds) := by
  by_cases hdue : IsDue { s with clock := s.clock + milliseconds }
  · have hanswer : s.channel.answer = none := by
      obtain ⟨_, _, _, _, _, hanswer, _⟩ := hdue
      exact hanswer
    rw [sleep_of_isDue hdue]
    exact ⟨by simp [Session.add], by simp [expired, Session.add, Entry.isTimeUp], fun _ => hanswer⟩
  · rw [sleep_of_not_isDue hdue]
    exact h.of_eq rfl rfl

theorem Held.hangUp (h : Held s) : Held s.hangUp.2 := by
  unfold Session.hangUp
  rw [if_neg h.unreachable]
  exact h

theorem Held.handOff (h : Held s) : Held s.handOff := by
  unfold Session.handOff
  split
  · exact h
  · exact h.of_eq rfl rfl

theorem Held.perform (h : Held s) (op : Op) : Held (s.perform op).2 := by
  cases op with
  | stage x => exact h.stage x
  | send x => exact h.send x
  | log e => exact h.add rfl
  | note text => exact h.add rfl
  | hangUp => exact h.hangUp
  | sleep milliseconds => exact h.sleep milliseconds
  | _ => exact h

theorem Move.held (h : Move s t) (hs : Held s) : Held t := by
  cases h with
  | perform op => exact hs.perform op
  | complete response => exact hs.complete response
  | called c => exact hs.add rfl
  | handOff => exact hs.handOff
  | _ => exact hs.of_eq rfl rfl

/-- Whatever an application does, the caller goes away only when its time is up, and it gets
nothing then. -/
theorem Moves.held (h : Moves s t) (hs : Held s) : Held t := by
  induction h with
  | refl => exact hs
  | tail _ move ih => exact move.held ih

end HttpApp.Session
