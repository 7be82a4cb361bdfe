/-
  HttpApp/Proofs/App/Sparing.lean --- applications that leave a header alone.

  `App.Only` says of all scripts of an application, those of tasks and callbacks included
  that an outcome leads to, which operations they can perform.  Main statement: whatever
  an application does to answer a request, a header that none of its operations stages is
  delivered as it was staged before (`App.Only.bears_answer`).
-/
import HttpApp.Proofs.App.Closure
import HttpApp.Proofs.App.Rejection

set_option autoImplicit false

namespace HttpApp

open Session (Bears)

/-! ## The operations of applications -/

/-- The tasks and the callbacks that an outcome leads to perform no operations but those that are
allowed. -/
inductive Outcome.Only (allowed : Op → Prop) : Outcome → Prop where
  | render (m : Model) : Only allowed (.render m)
  | done : Only allowed .done
  | dispatch {executor : Option String} {task : Script (Except Failure Outcome)} :
      task.Only allowed (fun result => ∀ o, result = .ok o → Outcome.Only allowed o) →
      Only allowed (.dispatch executor task)
  | detach {ownThread : Bool} {callback : Script Custody} :
      callback.Only allowed (fun _ => True) → Only allowed (.detach ownThread callback)

section
variable (allowed : Op → Prop)

/-- An error handler performs no operations but those that are allowed, whatever it answers. -/
def ErrorHandler.Only (handler : ErrorHandler) : Prop :=
  ∀ f status, (handler f status).Only allowed fun _ => True

structure Hook.Only (h : Hook) : Prop where
  before : h.before.Only allowed fun result => ∀ o, result = .ok (.respond o) → o.Only allowed
  after : h.after.Only allowed fun _ => True

structure Route.Only (r : Route) : Prop where
  handler : r.handler.Only allowed fun result => ∀ o, result = .ok o → o.Only allowed
  hooks : ∀ h ∈ r.hooks, h.Only allowed
  errorHandler : ∀ handler, r.errorHandler = some handler → ErrorHandler.Only allowed handler

/-- The scripts of an application perform no operations but those that are allowed. -/
structure App.Only (a : App) : Prop where
  routes : ∀ m, ∀ r ∈ a.table.ofMethod m, r.Only allowed
  errorHandler : ErrorHandler.Only allowed a.errorHandler

end

variable {allowed : Op → Prop} {α : Type} {P : α → Prop} {y : Script α}

/-- The page for errors stages no header. -/
theorem only_errorPage : ErrorHandler.Only (fun op => op.header? = none) errorPage := by
  intro f status
  have hsend : ∀ x : Sending, Op.header? (.send x) = none →
      (Attempt.send x).run.Only (fun op => op.header? = none) fun _ => True := by
    intro x hx
    refine .ask hx fun reply => ?_
    cases reply with
    | ok v => exact .ret trivial
    | error e => exact .ret trivial
  refine .ask rfl fun c => ?_
  -- A report and the status come first, and the content type before the answer.
  cases status.isServerError <;> refine .ask rfl fun _ => .ask rfl fun _ => ?_ <;>
    cases c.accepts .json
  all_goals exact .ask rfl fun _ => hsend _ rfl

/-- The scripts of an application with a plain route are its handler and the page for errors. -/
theorem App.only_plain {allowed : Op → Prop} (hpage : ∀ op, op.header? = none → allowed op)
    {handler : Handler}
    (h : handler.Only allowed fun result => ∀ o, result = .ok o → o.Only allowed) :
    ({ table := .plain handler } : App).Only allowed where
  routes := by
    intro m r hr
    obtain rfl : r = .plain handler := by
      unfold RouteTable.plain RouteTable.ofMethod at hr
      cases hm : m == Method.get with
      | true => simpa [List.lookup_cons, hm] using hr
      | false => simp [List.lookup_cons, hm] at hr
    exact ⟨h, fun _ hh => (by cases hh), fun _ hhandler => (by cases hhandler)⟩
  errorHandler := fun f status => (only_errorPage f status).mono hpage

/-! ## Headers that are spared -/

/-- An operation stages no header of this name. -/
def Op.Spares (name : String) (op : Op) : Prop := op.header? ≠ some name

/-- What is done while a script runs are its own operations, and those of error handlers. -/
theorem Script.Only.spares {name : String} {b : ErrorBoundary}
    (hb : ErrorHandler.Only (Op.Spares name) b.handler) (hy : y.Only (Op.Spares name) P)
    {limit : Nat} {s : Session} {d : Deed} (h : b.Does limit y s d) :
    d.Spares name fun _ => True := by
  induction h with
  | here =>
    cases hy with
    | ask hop _ => exact ⟨hop, fun _ _ => trivial⟩
  | later _ ih =>
    cases hy with
    | ask _ hnext => exact ih (hnext _)
  | handle => exact ⟨by simp [Deed.header?], fun _ _ => trivial⟩
  | within _ _ ih => exact ih (hb _ _)
  | answered _ _ ih =>
    cases hy with
    | sendError hnext => exact ih hnext

/-! ## Runs that spare a header -/

section
variable {name : String} {fields : List (String × HeaderValue)} {s : Session}

/-- What is done between scripts stages no header but the methods of other routes and content
types. -/
theorem Session.closed_bears (hname : name ≠ "content-type") (hallow : name ≠ "allow") :
    Session.Closed fun s t =>
      Bears name fields (fun _ => True) s → Bears name fields (fun _ => True) t where
  refl := fun _ => id
  trans := fun h h' => h' ∘ h
  event := fun _ e h => h.add (.event e)
  called := fun _ c h => h.add (.call c)
  bound := fun _ _ _ h => ⟨h.staged, h.sent⟩
  allow := fun _ value h => h.stageHeader fun hn => by
    rw [App.name?_allow] at hn
    exact absurd (Option.some.inj hn).symm hallow
  leave := fun _ h => ⟨h.staged, h.sent⟩
  handOff := fun s h => by
    unfold Session.handOff
    split <;> exact ⟨h.staged, h.sent⟩
  startPool := fun _ h => ⟨h.staged, h.sent⟩
  keep := fun _ _ h => ⟨h.staged, h.sent⟩
  model := fun s m h => by
    change Bears name fields (fun _ => True) (s.perform (.send (.model m))).2
    exact h.perform hname (by simp [Op.header?]) fun _ _ => trivial
  implied := fun _ h => h.sendStatus trivial

variable {b : ErrorBoundary}

theorem Script.Only.bears_run (hname : name ≠ "content-type")
    (hb : ErrorHandler.Only (Op.Spares name) b.handler) (hy : y.Only (Op.Spares name) P)
    (h : Bears name fields (fun _ => True) s) :
    Bears name fields (fun _ => True) (y.run b.answer s).2 :=
  ErrorBoundary.bears_run_of_answer hname
    (fun f status s hd hstatus h hspares =>
      ErrorBoundary.bears_answerWithin hname b.nesting f status s hd hstatus h hspares)
    y s h fun _ hd => hy.spares hb hd

/-- Sending an error does what the answer to it does. -/
theorem Script.run_fail (answer : Failure → Option Status → Session → Ending Unit × Session)
    (f : Failure) (status : Option Status) (s : Session) :
    ((Script.fail f status).run answer s).2 = (answer f status s).2 := by
  rw [Script.fail, Script.run]
  rcases answer f status s with ⟨_ | p, t⟩ <;> rfl

theorem ErrorHandler.Only.bears_answer (hname : name ≠ "content-type")
    (hb : ErrorHandler.Only (Op.Spares name) b.handler) (f : Failure) (status : Option Status)
    (h : Bears name fields (fun _ => True) s) :
    Bears name fields (fun _ => True) (b.answer f status s).2 := by
  rw [← Script.run_fail b.answer f status s]
  exact Script.Only.bears_run (P := fun _ => True) hname hb (.sendError (.ret trivial)) h

/-- The header is borne across a script that spares it. -/
theorem Script.Only.across (hname : name ≠ "content-type")
    (hb : ErrorHandler.Only (Op.Spares name) b.handler) (hy : y.Only (Op.Spares name) P) :
    Session.Across (fun s t => Bears name fields (fun _ => True) s →
      Bears name fields (fun _ => True) t) P (y.run b.answer) :=
  fun _ => ⟨hy.bears_run hname hb, fun _ ha => hy.of_run (Prod.ext ha rfl)⟩

theorem Route.Only.across {a : App} {r : Route} (hname : name ≠ "content-type")
    (ha : a.Only (Op.Spares name)) (hr : r.Only (Op.Spares name)) :
    r.Across a (fun s t => Bears name fields (fun _ => True) s →
      Bears name fields (fun _ => True) t) (Outcome.Only (Op.Spares name)) := by
  have hb : ErrorHandler.Only (Op.Spares name) (a.boundaryOf r).handler := by
    change ErrorHandler.Only _ (r.errorHandler.getD a.errorHandler)
    cases hhandler : r.errorHandler with
    | none => exact ha.errorHandler
    | some handler => exact hr.errorHandler handler hhandler
  refine ⟨fun f status s => hb.bears_answer hname f status, fun h hh => ?_,
    hr.handler.across hname hb, fun h hh s => ((hr.hooks h hh).after.across hname hb s).1,
    fun executor task hO => ?_, fun ownThread callback hO s => ?_⟩
  · exact (hr.hooks h hh).before.across hname hb
  · cases hO with
    | dispatch htask => exact htask.across hname hb
  · cases hO with
    | detach hcallback => exact (hcallback.across hname hb s).1

/-- Whatever an application does to answer a request, a header that none of its scripts stages is
delivered as it was staged before. -/
theorem App.Only.bears_answer {a : App} (hname : name ≠ "content-type") (hallow : name ≠ "allow")
    (ha : a.Only (Op.Spares name)) (h : Bears name fields (fun _ => True) s) :
    Bears name fields (fun _ => True) (a.answer s).2 :=
  App.answer_closed (P := Outcome.Only (Op.Spares name)) (Session.closed_bears hname hallow)
    (fun f status _ => ErrorHandler.Only.bears_answer (b := a.boundary) hname ha.errorHandler f
      status)
    (fun m _ r _ hlookup => (ha.routes m r (RouteTable.mem_of_lookup hlookup)).across hname ha) s h

end

end HttpApp
