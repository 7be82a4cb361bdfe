/-
  HttpApp/Proofs/Worker/Steps.lean --- what callers and workers do to a pool.

  `Does` lists the steps that are possible in a pool, each with the condition under
  which it is possible and with what it makes of the pool; `step_eq_some_iff` says that
  these are the steps of `step`, and the lemmas about `Does` say what a step does to one
  part of a pool.  All that holds of every pool that can be reached is shown by
  `run_invariant`: it holds of a new pool, and every step keeps it.  The invariants
  speak of the pool and of the steps that led to it, because what a pool has accepted
  can be read off its steps alone: the jobs handed over before the first shutdown.
-/
import Mathlib.Data.List.Induction
import Mathlib.Data.List.TakeWhile
import HttpApp.Worker.Pool

set_option autoImplicit false

namespace HttpApp

variable {J : Type}

/-! ## The steps behind a pool -/

/-- Whether a step shuts a pool down. -/
def PoolStep.isShutdown : PoolStep J → Bool
  | .shutdown _ => true
  | _ => false

/-- The job that a step hands over. -/
def PoolStep.job? : PoolStep J → Option J
  | .submit job => some job
  | _ => none

/-- The job that a worker runs. -/
def WorkerState.job? : WorkerState J → Option J
  | .running job => some job
  | _ => none

namespace Pool

/-- Whether a pool is shut down by some of the steps. -/
def isClosed (steps : List (PoolStep J)) : Bool := steps.any (·.isShutdown)

/-- The jobs that are handed over, in order. -/
def submitted (steps : List (PoolStep J)) : List J := steps.filterMap (·.job?)

/-- The jobs that are handed over before the first shutdown, in order. -/
def accepted (steps : List (PoolStep J)) : List J :=
  submitted (steps.takeWhile fun s => !s.isShutdown)

/-- The jobs that were run. -/
def done (p : Pool J) : List J := p.finished.map (·.job)

/-- The jobs that workers run. -/
def underway (p : Pool J) : List J := p.workers.filterMap (·.job?)

@[simp] theorem isClosed_concat (steps : List (PoolStep J)) (s : PoolStep J) :
    isClosed (steps ++ [s]) = (isClosed steps || s.isShutdown) := by
  simp [isClosed]

theorem isClosed_eq_true_iff {steps : List (PoolStep J)} :
    isClosed steps = true ↔ ∃ caller, .shutdown caller ∈ steps := by
  constructor
  · intro h
    obtain ⟨s, hs, hc⟩ := List.any_eq_true.mp h
    cases s with
    | shutdown caller => exact ⟨caller, hs⟩
    | _ => cases hc
  · rintro ⟨caller, hs⟩
    exact List.any_eq_true.mpr ⟨_, hs, rfl⟩

theorem accepted_of_isClosed {steps : List (PoolStep J)} (h : isClosed steps = true)
    (more : List (PoolStep J)) : accepted (steps ++ more) = accepted steps := by
  obtain ⟨s, hs, hc⟩ := List.any_eq_true.mp h
  have hall : ¬ ∀ t ∈ steps, (!t.isShutdown) = true := fun ha => by simpa [hc] using ha s hs
  simp only [accepted, List.takeWhile_append]
  rw [if_neg]
  intro hl
  exact hall (List.takeWhile_eq_self_iff.mp ((List.takeWhile_prefix _).eq_of_length hl))

theorem accepted_of_open {steps : List (PoolStep J)} (h : isClosed steps = false) :
    accepted steps = submitted steps := by
  have hall : ∀ t ∈ steps, (!t.isShutdown) = true := by
    intro t ht
    simpa using List.any_eq_false.mp h t ht
  rw [accepted, List.takeWhile_eq_self_iff.mpr hall]

/-- What a step adds to the accepted jobs: the job that it hands over, if there was no shutdown. -/
theorem accepted_concat (steps : List (PoolStep J)) (s : PoolStep J) :
    accepted (steps ++ [s]) =
      accepted steps ++ if isClosed steps then [] else s.job?.toList := by
  cases hc : isClosed steps with
  | true =>
    rw [accepted_of_isClosed hc, if_pos rfl, List.append_nil]
  | false =>
    have hall : ∀ t ∈ steps, (!t.isShutdown) = true := by
      intro t ht
      simpa using List.any_eq_false.mp hc t ht
    rw [accepted_of_open hc, accepted, List.takeWhile_append_of_pos hall]
    cases s with
    | shutdown caller => simp [submitted, PoolStep.isShutdown, PoolStep.job?]
    | _ => simp [submitted, PoolStep.isShutdown, PoolStep.job?]

/-- What is handed over after a shutdown comes on top of what is accepted. -/
theorem accepted_append_submitted (before after : List (PoolStep J)) (caller : Option Nat) :
    (accepted (before ++ .shutdown caller :: after) ++ submitted after).Sublist
      (submitted (before ++ .shutdown caller :: after)) := by
  have hc : isClosed (before ++ [.shutdown caller]) = true := by simp [PoolStep.isShutdown]
  have hs : submitted (before ++ .shutdown caller :: after) =
      submitted before ++ submitted after := by
    simp [submitted, PoolStep.job?]
  have ha : accepted (before ++ .shutdown caller :: after) = accepted before := by
    rw [List.append_cons, accepted_of_isClosed hc, accepted_concat]
    simp [PoolStep.job?]
  rw [hs, ha]
  exact ((List.takeWhile_sublist _).filterMap _).append (List.Sublist.refl _)

/-! ## Steps -/

/-- The steps that are possible in a pool, and what each of them makes of it. -/
inductive Does (p : Pool J) : PoolStep J → Pool J → Prop where
  | accept (job : J) (h : p.accepting = true) :
    Does p (.submit job) { p with queue := p.queue ++ [job] }
  | refuse (job : J) (h : p.accepting = false) : Does p (.submit job) p
  | take (i : Nat) (job : J) (queue : List J) (hi : p.workers[i]? = some .idle)
    (hq : p.queue = job :: queue) :
    Does p (.take i) { p with queue, workers := p.workers.set i (.running job) }
  | finish (i : Nat) (panicked : Bool) (job : J) (hi : p.workers[i]? = some (.running job))
    (hb : p.isBlocked i = false) :
    Does p (.finish i panicked)
      { p with workers := p.workers.set i .idle, finished := p.finished ++ [⟨job, i⟩] }
  | leave (i : Nat) (hi : p.workers[i]? = some .idle) (hq : p.queue = [])
    (ha : p.accepting = false) :
    Does p (.leave i)
      { p with
        workers := p.workers.set i .gone
        closings := p.closings.map fun c => { c with awaited := c.awaited.erase i } }
  | shutdown (caller : Option Nat)
    (h : ∀ i, caller = some i → p.isRunning i = true ∧ p.isBlocked i = false) :
    Does p (.shutdown caller)
      { p with accepting := false, closings := p.closings ++ [p.closing caller] }

theorem does_of_step {p q : Pool J} {s : PoolStep J} (h : p.step s = some q) : p.Does s q := by
  cases s with
  | submit job =>
    cases ha : p.accepting with
    | true =>
      obtain rfl : { p with queue := p.queue ++ [job] } = q := by simpa [step, ha] using h
      exact .accept job ha
    | false =>
      obtain rfl : p = q := by simpa [step, ha] using h
      exact .refuse job ha
  | take i =>
    simp only [step] at h
    split at h
    next job queue hi hq =>
      obtain rfl := Option.some.inj h
      exact .take i job queue hi hq
    next => cases h
  | finish i panicked =>
    simp only [step] at h
    split at h
    next job hi =>
      split at h
      next => cases h
      next hb =>
        obtain rfl := Option.some.inj h
        exact .finish i panicked job hi (by simpa using hb)
    next => cases h
  | leave i =>
    simp only [step] at h
    split at h
    next hi hq =>
      split at h
      next => cases h
      next ha =>
        obtain rfl := Option.some.inj h
        exact .leave i hi hq (by simpa using ha)
    next => cases h
  | shutdown caller =>
    simp only [step] at h
    split at h
    next hc =>
      obtain rfl := Option.some.inj h
      refine .shutdown caller ?_
      rintro i rfl
      simpa using hc
    next => cases h

/-- The steps of a pool are those that are listed. -/
theorem step_eq_some_iff {p q : Pool J} {s : PoolStep J} : p.step s = some q ↔ p.Does s q := by
  refine ⟨does_of_step, ?_⟩
  intro h
  cases h with
  | accept job ha => simp [step, ha]
  | refuse job ha => simp [step, ha]
  | take i job queue hi hq => simp [step, hi, hq]
  | finish i panicked job hi hb => simp [step, hi, hb]
  | leave i hi hq ha => simp [step, hi, hq, ha]
  | shutdown caller hc =>
    cases caller with
    | none => simp [step]
    | some i => simp [step, hc i rfl]

/-- A worker that has left has left before, or is the one that changes. -/
theorem eq_gone_of_set {workers : List (WorkerState J)} {i j : Nat} {w : WorkerState J}
    (hw : w ≠ .gone) (h : (workers.set i w)[j]? = some .gone) : workers[j]? = some .gone := by
  rw [List.getElem?_set] at h
  split at h
  · split at h
    · exact absurd (Option.some.inj h) hw
    · cases h
  · exact h

namespace Does

variable {p q : Pool J} {s : PoolStep J}

theorem accepting_eq (h : p.Does s q) : q.accepting = (p.accepting && !s.isShutdown) := by
  cases h <;> simp [PoolStep.isShutdown, *]

theorem length_workers (h : p.Does s q) : q.workers.length = p.workers.length := by
  cases h <;> simp

/-- Nothing comes into the queue of a pool that accepts no jobs. -/
theorem queue_eq_nil (h : p.Does s q) (ha : p.accepting = false) (hq : p.queue = []) :
    q.queue = [] := by
  cases h with
  | accept job h => simp [ha] at h
  | take i job queue hi h => simp [hq] at h
  | _ => exact hq

/-- Only by leaving does a worker go, and only from a pool that accepts no jobs and has none. -/
theorem gone (h : p.Does s q) {i : Nat} (hq : q.workers[i]? = some .gone) :
    p.workers[i]? = some .gone ∨ s = .leave i ∧ p.accepting = false ∧ p.queue = [] := by
  cases h with
  | accept job h => exact .inl hq
  | refuse job h => exact .inl hq
  | take j job queue hj h => exact .inl (eq_gone_of_set (by simp) hq)
  | finish j panicked job hj h => exact .inl (eq_gone_of_set (by simp) hq)
  | leave j hj he ha =>
    by_cases hij : j = i
    · exact .inr ⟨by rw [hij], ha, he⟩
    · exact .inl (by simpa [List.getElem?_set, hij] using hq)
  | shutdown caller h => exact .inl hq

end Does

/-! ## Runs -/

theorem run_concat (p : Pool J) (steps : List (PoolStep J)) (s : PoolStep J) :
    p.run (steps ++ [s]) = (p.run steps).bind fun q => q.step s := by
  induction steps generalizing p with
  | nil => simp [run]
  | cons t ts ih =>
    simp only [List.cons_append, run, Option.bind_assoc]
    congr
    funext q
    exact ih q

/-- What holds of a pool before any step, and is kept by every step, holds of every pool that is
reached from it. -/
theorem run_invariant {I : List (PoolStep J) → Pool J → Prop} {p : Pool J} (start : I [] p)
    (next : ∀ {steps q s r}, I steps q → q.Does s r → I (steps ++ [s]) r)
    {steps : List (PoolStep J)} {q : Pool J} (h : p.run steps = some q) : I steps q := by
  induction steps using List.reverseRecOn generalizing q with
  | nil =>
    obtain rfl : p = q := by simpa [run] using h
    exact start
  | append_singleton steps s ih =>
    rw [run_concat] at h
    obtain ⟨r, hr, hs⟩ := Option.bind_eq_some_iff.mp h
    exact next (ih hr) (does_of_step hs)

end Pool

end HttpApp
