/-
  HttpApp/Proofs/App/Runs.lean --- runs are made of steps.

  Being connected by moves is a relation that holds across scripts and across all that is
  done between them.  Main statement: whatever an application does to answer a request is
  a sequence of moves (`App.moves_answer`), and so one of steps.
-/
import HttpApp.Proofs.App.Closure
import HttpApp.Proofs.Session.Moves

set_option autoImplicit false

namespace HttpApp

open Session (Move Moves Reaches rel_of_run)

/-! ## Scripts and error handlers -/

/-- What a run reaches, where the run is known by its result. -/
theorem Session.Reaches.of_run {ε : Type} {s t : Session} {run : ε × Session} {ending : ε}
    (h : Reaches s run.2) (hrun : run = (ending, t)) : Reaches s t :=
  rel_of_run h hrun

/-- A script takes steps if answering errors does. -/
theorem Script.reaches_run {α : Type}
    {answer : Failure → Option Status → Session → Ending Unit × Session}
    (hanswer : ∀ f status s, Reaches s (answer f status s).2) (x : Script α) (s : Session) :
    Reaches s (x.run answer s).2 :=
  run_closed (fun _ => .refl) .trans (fun s op => .single (.perform s op)) hanswer x s

namespace ErrorBoundary

theorem reaches_conclude (f : Failure) (status : Status) (ending : Ending (Except Failure Unit))
    (s : Session) : Reaches s (conclude f status ending s) :=
  (acts_conclude f status ending s).reaches

theorem reaches_reraise (f : Failure) (s : Session) : Reaches s (reraise f s).2 :=
  (acts_reraise f s).reaches

theorem reaches_of_discard? {f : Failure} {status : Status} {s t : Session}
    (h : discard? f status s = some t) : Reaches s t :=
  (acts_of_discard? h).reaches

theorem reaches_handling (f : Failure) (status : Status) (s : Session) :
    Reaches s (handling f status s) :=
  (acts_handling f status s).reaches

theorem reaches_answerWithin (b : ErrorBoundary) (limit : Nat) (f : Failure)
    (status : Option Status) (s : Session) : Reaches s (b.answerWithin limit f status s).2 :=
  (b.acts_answerWithin limit f status s).reaches

theorem reaches_answer (b : ErrorBoundary) (f : Failure) (status : Option Status) (s : Session) :
    Reaches s (b.answer f status s).2 :=
  (b.acts_answer f status s).reaches

end ErrorBoundary

/-! ## What is done between scripts -/

/-- A script moves an exchange if answering errors does. -/
theorem Script.moves_run (b : ErrorBoundary) {α : Type} (x : Script α) (s : Session) :
    Moves s (x.run b.answer s).2 :=
  (acts_run b.acts_answer x s).moves

theorem Session.closed_moves : Session.Closed Moves where
  refl := fun _ => .refl
  trans := .trans
  event := fun s e => .single (.perform s (.log e))
  called := fun s c => .single (.called s c)
  bound := fun s r captures => .single (.bound s r captures)
  allow := fun s value => .single (.perform s (.stage (.header "allow" value)))
  leave := fun s => .single (.leave s)
  handOff := fun s => .single (.handOff s)
  startPool := fun s => .single (.startPool s)
  keep := fun s kept => .single (.keep s kept)
  model := fun s m => .single (.perform s (.send (.model m)))
  implied := fun s => .single (.perform s (.send (.status s.context.status)))

open Session (closed_moves)

/-- Every script moves an exchange, whatever it returns. -/
theorem Script.across_moves (b : ErrorBoundary) {α : Type} (x : Script α) :
    Session.Across Moves (fun _ => True) (x.run b.answer) :=
  fun s => ⟨Script.moves_run b x s, fun _ _ => trivial⟩

/-! ## Outcomes and requests -/

theorem Route.across_moves (a : App) (r : Route) : r.Across a Moves fun _ => True where
  answer := fun f status s => ((a.boundaryOf r).acts_answer f status s).moves
  before := fun h _ s => ⟨Script.moves_run _ h.before s, fun _ _ _ _ => trivial⟩
  handler := fun s => ⟨Script.moves_run _ r.handler s, fun _ _ _ _ => trivial⟩
  after := fun h _ => Script.moves_run _ h.after
  task := fun _ task _ s => ⟨Script.moves_run _ task s, fun _ _ _ _ => trivial⟩
  callback := fun _ callback _ => Script.moves_run _ callback

/-- Answering a request moves an exchange. -/
theorem App.moves_answer (a : App) (s : Session) : Moves s (a.answer s).2 :=
  App.answer_closed closed_moves (fun f status t => (a.boundary.acts_answer f status t).moves)
    (fun _ _ r _ _ => r.across_moves a) s

/-! ## Moves are steps -/

section
variable (b : ErrorBoundary)

theorem Hook.reaches_runFirst (place : Nat) (h : Hook) (s : Session) :
    Reaches s (h.runFirst b place s).2 :=
  (Hook.runFirst_across closed_moves (Script.across_moves b h.before) place s).1.reaches

theorem Hook.reaches_runBefore (hooks : List Hook) (place : Nat) (s : Session) :
    Reaches s (Hook.runBefore b place hooks s).2 :=
  (Hook.runBefore_across closed_moves trivial
    (fun h _ => Script.across_moves b h.before) place s).1.reaches

theorem Hook.reaches_runAfter (hooks : List Hook) (place : Nat) (s : Session) :
    Reaches s (Hook.runAfter b place hooks s).2 :=
  (Hook.runAfter_closed closed_moves (fun h _ => Script.moves_run b h.after) place s).reaches

end

theorem Session.reaches_dispatching (s : Session) (w : Workers) (executor : Option String)
    (x : Executor) : Reaches s (s.dispatching w executor x) :=
  (s.dispatching_closed closed_moves w executor x).reaches

theorem Session.reaches_sendModel (b : ErrorBoundary) (m : Model) (s : Session) :
    Reaches s (s.sendModel b m).2 :=
  (s.acts_sendModel b m).reaches

theorem Session.reaches_sendImplied (s : Session) : Reaches s s.sendImplied :=
  s.acts_sendImplied.reaches

theorem Session.reaches_entering (s : Session) (x : Executor) : Reaches s (s.entering x) :=
  (s.entering_closed closed_moves x).reaches

theorem reaches_settle (a : App) (r : Route) (result : Except Failure Outcome) (s : Session) :
    Reaches s (settle a r result s).2 :=
  (settle_closed closed_moves (r.across_moves a) (fun _ _ => trivial) s).reaches

/-- Answering a request takes steps. -/
theorem App.reaches_answer (a : App) (s : Session) : Reaches s (a.answer s).2 :=
  (a.moves_answer s).reaches

end HttpApp
