/-
  HttpApp/Proofs/Worker/Conservation.lean --- a pool neither loses nor repeats work.

  In whatever order callers and workers take their steps, what a pool was handed before
  its first shutdown is found in three places: with the jobs that were run, with the
  workers, and in the queue.  `Accounts` is the invariant: the three places together
  hold the accepted jobs, each as often as it was handed over, and a worker has left
  only if the pool is shut down and the queue is empty.  Jobs are compared as they are,
  so where each job is handed over once, each is in one place only.  Main statement:
  `work_conserved`.
-/
import Mathlib.Data.List.Perm.Basic
import HttpApp.Proofs.Worker.Steps

set_option autoImplicit false

namespace HttpApp.Pool

variable {J : Type}

/-! ## The places of a job -/

/-- The jobs that a pool holds: those that were run, those that workers run, and the queue. -/
def held (p : Pool J) : List J := p.done ++ p.underway ++ p.queue

/-- Where one worker changes, its job goes and another one comes. -/
theorem perm_jobs_set {workers : List (WorkerState J)} {i : Nat} {w : WorkerState J}
    (h : workers[i]? = some w) (v : WorkerState J) :
    ((workers.set i v).filterMap (·.job?) ++ w.job?.toList).Perm
      (workers.filterMap (·.job?) ++ v.job?.toList) := by
  have jobs_cons : ∀ (u : WorkerState J) us,
      (u :: us).filterMap (·.job?) = u.job?.toList ++ us.filterMap (·.job?) := by
    intro u us
    cases hu : u.job? <;> simp [hu]
  induction workers generalizing i with
  | nil => cases h
  | cons u us ih =>
    cases i with
    | zero =>
      obtain rfl : u = w := by simpa using h
      rw [List.set_cons_zero, jobs_cons, jobs_cons]
      refine List.perm_append_comm.trans ?_
      rw [List.append_assoc]
      exact List.perm_append_comm.append_left _
    | succ i =>
      rw [List.set_cons_succ, jobs_cons, jobs_cons, List.append_assoc, List.append_assoc]
      exact (ih (by simpa using h)).append_left _

/-- A worker that takes a job holds it in the place of the queue. -/
theorem held_take {p : Pool J} {i : Nat} {job : J} {queue : List J}
    (hi : p.workers[i]? = some .idle) (hq : p.queue = job :: queue) :
    (held { p with queue, workers := p.workers.set i (.running job) }).Perm p.held := by
  have hw : ((p.workers.set i (.running job)).filterMap (·.job?)).Perm (p.underway ++ [job]) := by
    simpa [WorkerState.job?, underway] using perm_jobs_set hi (.running job)
  have hh : p.held = p.done ++ (p.underway ++ [job]) ++ queue := by simp [held, hq]
  rw [hh]
  exact (hw.append_left _).append_right _

/-- A worker that ends a job hands it to those that were run. -/
theorem held_finish {p : Pool J} {i : Nat} {job : J}
    (hi : p.workers[i]? = some (.running job)) :
    (held { p with workers := p.workers.set i .idle, finished := p.finished ++ [⟨job, i⟩] }).Perm
      p.held := by
  have hw : (job :: (p.workers.set i .idle).filterMap (·.job?)).Perm p.underway := by
    refine (List.perm_append_singleton _ _).symm.trans ?_
    simpa [WorkerState.job?, underway] using perm_jobs_set hi .idle
  have hh : held { p with workers := p.workers.set i .idle, finished := p.finished ++ [⟨job, i⟩] } =
      p.done ++ (job :: (p.workers.set i .idle).filterMap (·.job?)) ++ p.queue := by
    simp [held, done, underway]
  rw [hh]
  exact (hw.append_left _).append_right _

/-- A worker that leaves holds no job. -/
theorem held_leave {p : Pool J} {i : Nat} (hi : p.workers[i]? = some .idle)
    (closings : List Closing) :
    (held { p with workers := p.workers.set i .gone, closings }).Perm p.held := by
  have hw : ((p.workers.set i .gone).filterMap (·.job?)).Perm p.underway := by
    simpa [WorkerState.job?, underway] using perm_jobs_set hi .gone
  exact (hw.append_left _).append_right _

/-- A step keeps what a pool holds, and adds a job that it hands over, if jobs are accepted. -/
theorem Does.held_perm {p q : Pool J} {s : PoolStep J} (h : p.Does s q) :
    q.held.Perm (p.held ++ if p.accepting then s.job?.toList else []) := by
  cases h with
  | accept job ha => simp [held, done, underway, ha, PoolStep.job?]
  | refuse job ha => simp [ha]
  | take i job queue hi hq => simpa [PoolStep.job?] using held_take hi hq
  | finish i panicked job hi hb => simpa [PoolStep.job?] using held_finish hi
  | leave i hi hq ha => simpa [PoolStep.job?] using held_leave hi _
  | shutdown caller hc => simp [held, done, underway, PoolStep.job?]

/-! ## The invariant -/

/-- What a pool of some size has to show for the steps that led to it. -/
structure Accounts (size : Nat) (steps : List (PoolStep J)) (p : Pool J) : Prop where
  accepting : p.accepting = !isClosed steps
  held : p.held.Perm (accepted steps)
  workers : p.workers.length = size
  gone : ∀ {i : Nat}, p.workers[i]? = some .gone → p.accepting = false ∧ p.queue = []

theorem accounts_start (name : String) (size : Nat) :
    Accounts (max size 1) [] (start name size : Pool J) where
  accepting := rfl
  held := by simp [Pool.held, done, underway, start, accepted, submitted, WorkerState.job?]
  workers := List.length_replicate
  gone := by simp [start, List.getElem?_replicate]

/-- Every step keeps the accounts. -/
theorem Accounts.next {size : Nat} {steps : List (PoolStep J)} {p q : Pool J} {s : PoolStep J}
    (a : Accounts size steps p) (h : p.Does s q) : Accounts size (steps ++ [s]) q where
  accepting := by rw [h.accepting_eq, a.accepting, isClosed_concat, Bool.not_or]
  held := by
    have hadded : (if p.accepting then s.job?.toList else []) =
        if isClosed steps then [] else s.job?.toList := by
      cases hc : isClosed steps <;> simp [a.accepting, hc]
    rw [accepted_concat, ← hadded]
    exact h.held_perm.trans (a.held.append_right _)
  workers := h.length_workers.trans a.workers
  gone := by
    intro i hi
    have hbefore : p.accepting = false ∧ p.queue = [] :=
      (h.gone hi).elim (fun hp => a.gone hp) And.right
    exact ⟨by simp [h.accepting_eq, hbefore.1], h.queue_eq_nil hbefore.1 hbefore.2⟩

theorem accounts_of_run {name : String} {size : Nat} {steps : List (PoolStep J)} {p : Pool J}
    (h : (start name size).run steps = some p) : Accounts (max size 1) steps p :=
  run_invariant (accounts_start name size) Accounts.next h

/-! ## Workers that have left -/

/-- With no worker left, all that a pool holds was run. -/
theorem Accounts.held_eq_done {size : Nat} {steps : List (PoolStep J)} {p : Pool J}
    (a : Accounts size steps p) (hs : 0 < size) (h : ∀ w ∈ p.workers, w = .gone) :
    p.held = p.done := by
  have hu : p.underway = [] := by
    refine List.filterMap_eq_nil_iff.mpr fun w hw => ?_
    rw [h w hw, WorkerState.job?]
    simp
  have hq : p.queue = [] := by
    have hl : 0 < p.workers.length := a.workers ▸ hs
    refine (a.gone (i := 0) ?_).2
    rw [List.getElem?_eq_getElem hl, h _ (List.getElem_mem hl)]
  simp [Pool.held, hu, hq]

/-- A pool neither loses nor repeats work, after any steps of callers and workers.

What was run, what workers run and what is in the queue are together the accepted jobs, those
handed over before the first shutdown, each as often as it was handed over.  So where every job
is handed over once, each accepted job is in one of the places and there once, and a job that
is handed over after a shutdown is in none.  A job that ends, be it with a panic, counts as run,
and its worker goes on; a worker leaves only a pool that is shut down and has an empty queue.
With no worker left, the jobs that were run are the accepted ones. -/
theorem work_conserved {name : String} {size : Nat} {steps : List (PoolStep J)} {p : Pool J}
    (h : (start name size).run steps = some p) :
    (p.done ++ p.underway ++ p.queue).Perm (accepted steps) ∧
    ((submitted steps).Nodup →
      (p.done ++ p.underway ++ p.queue).Nodup ∧
      ∀ before caller after job, steps = before ++ .shutdown caller :: after →
        .submit job ∈ after → job ∉ p.done ++ p.underway ++ p.queue) ∧
    (∀ i panicked q, p.step (.finish i panicked) = some q →
      ∃ job, p.workers[i]? = some (.running job) ∧ q.done = p.done ++ [job] ∧
        q.workers = p.workers.set i .idle) ∧
    (∀ s i q, p.step s = some q → p.workers[i]? ≠ some .gone → q.workers[i]? = some .gone →
      s = .leave i ∧ (∃ caller, .shutdown caller ∈ steps) ∧ p.queue = []) ∧
    p.workers.length = max size 1 ∧
    ((∀ w ∈ p.workers, w = .gone) → p.done.Perm (accepted steps)) := by
  have a := accounts_of_run h
  refine ⟨a.held, ?_, ?_, ?_, a.workers, ?_⟩
  · intro distinct
    have hsub : (accepted steps).Sublist (submitted steps) :=
      (List.takeWhile_sublist _).filterMap _
    refine ⟨a.held.nodup_iff.mpr (distinct.sublist hsub), ?_⟩
    rintro before caller after job rfl hjob hmem
    have hnd := distinct.sublist (accepted_append_submitted before after caller)
    have hlate : job ∈ submitted after := List.mem_filterMap.mpr ⟨_, hjob, rfl⟩
    exact (List.nodup_append.mp hnd).2.2 job (a.held.mem_iff.mp hmem) job hlate rfl
  · intro i panicked q hq
    cases does_of_step hq with
    | finish _ _ job hi hb => exact ⟨job, hi, by simp [done], rfl⟩
  · intro s i q hq hp hg
    obtain ⟨hs, ha, he⟩ := ((does_of_step hq).gone hg).resolve_left hp
    have hc : isClosed steps = true := by simpa [ha] using a.accepting
    exact ⟨hs, isClosed_eq_true_iff.mp hc, he⟩
  · intro hw
    rw [← a.held_eq_done (by omega) hw]
    exact a.held

/-- Two workers, a job that panics, a job that shuts the pool down, and a job that comes late. -/
def busySteps : List (PoolStep Nat) :=
  [.submit 0, .submit 1, .take 1, .submit 2, .finish 1 true, .take 1, .take 0, .shutdown (some 1),
    .submit 3, .finish 0 false, .leave 0, .finish 1 false, .leave 1]

/-- What is left behind the busy steps. -/
def busyPool : Pool Nat where
  name := "pool"
  accepting := false
  workers := [.gone, .gone]
  finished := [⟨0, 1⟩, ⟨2, 0⟩, ⟨1, 1⟩]
  closings := [⟨some 1, []⟩]

theorem work_conserved_busySteps :
    (start "pool" 2).run busySteps = some busyPool ∧
    (busyPool.done ++ busyPool.underway ++ busyPool.queue).Nodup ∧
    3 ∉ busyPool.done ++ busyPool.underway ++ busyPool.queue ∧ busyPool.done.Perm [0, 1, 2] := by
  have h : (start "pool" 2).run busySteps = some busyPool := rfl
  obtain ⟨-, hd, -, -, -, hg⟩ := work_conserved h
  obtain ⟨hn, hl⟩ := hd (by decide)
  exact ⟨h, hn, hl (busySteps.take 7) (some 1) (busySteps.drop 8) 3 rfl (by decide), hg (by decide)⟩

end HttpApp.Pool
