/-
  HttpApp/Proofs/Worker/Closing.lean --- which calls of a shutdown wait.

  The first call of a shutdown waits for the workers that have not left, the calling
  one apart; `Waits` is the invariant that says so.  When it returns to somebody who is
  not a worker, the queue is empty and every accepted job was run.  A call that comes
  after it waits for nobody: it returns while jobs are in the queue and on workers, also
  when the first call still waits.  What holds of a pool after any call is only that it
  accepts no job.  Main statement: `first_shutdown_waits`.
-/
import HttpApp.Proofs.Worker.Conservation

set_option autoImplicit false

namespace HttpApp.Pool

variable {J : Type}

/-! ## The invariant -/

/-- For whom the calls of a shutdown wait: the first one for every worker that has not left and
is not the caller, the others for none. -/
structure Waits (p : Pool J) : Prop where
  accepting : p.accepting = p.closings.isEmpty
  first : ∀ {c later}, p.closings = c :: later → ∀ i,
    i ∈ c.awaited ↔ i < p.workers.length ∧ c.caller ≠ some i ∧ p.workers[i]? ≠ some .gone
  once : ∀ c ∈ p.closings, c.awaited.Nodup
  later : ∀ c ∈ p.closings.tail, c.awaited = []

theorem waits_start (name : String) (size : Nat) : Waits (start name size : Pool J) where
  accepting := rfl
  first := fun h => by cases h
  once := fun c hc => by cases hc
  later := fun c hc => by cases hc

/-- A worker that takes or ends a job is waited for as before. -/
theorem Waits.set {p : Pool J} (w : Waits p) {i : Nat} {u v : WorkerState J}
    (hi : p.workers[i]? = some u) (hu : u ≠ .gone) (hv : v ≠ .gone) (queue : List J)
    (finished : List (DoneJob J)) :
    Waits { p with queue, finished, workers := p.workers.set i v } where
  accepting := w.accepting
  first := fun {c later} hc j => by
    rw [w.first hc j, List.length_set]
    by_cases hij : i = j
    · subst hij
      have hl : i < p.workers.length := (List.getElem?_eq_some_iff.mp hi).1
      simp only [List.getElem?_set_self hl, hi, ne_eq, Option.some.injEq, hu, hv]
    · simp only [List.getElem?_set_ne hij]
  once := w.once
  later := w.later

/-- Nobody waits for a worker that leaves. -/
theorem Waits.leave {p : Pool J} (w : Waits p) (i : Nat) :
    Waits { p with
      workers := p.workers.set i .gone
      closings := p.closings.map fun c => { c with awaited := c.awaited.erase i } } where
  accepting := by simp [w.accepting]
  first := fun {c later} hc j => by
    obtain ⟨d, ds, hd, rfl, rfl⟩ := List.map_eq_cons_iff.mp hc
    have hn : d.awaited.Nodup := w.once d (by simp [hd])
    simp only [hn.mem_erase_iff, w.first hd j, List.length_set, List.getElem?_set]
    by_cases hij : i = j
    · subst hij
      simp +contextual
    · simp [hij, Ne.symm hij]
  once := fun c hc => by
    obtain ⟨d, hd, rfl⟩ := List.mem_map.mp hc
    exact (w.once d hd).erase i
  later := fun c hc => by
    rw [← List.map_tail] at hc
    obtain ⟨d, hd, rfl⟩ := List.mem_map.mp hc
    simp [w.later d hd]

/-- A call is the first one, and waits for the others who are there, or it waits for nobody. -/
theorem Waits.shutdown {p : Pool J} (w : Waits p) (caller : Option Nat)
    (hg : p.accepting = true → ∀ i : Nat, p.workers[i]? ≠ some .gone) :
    Waits { p with accepting := false, closings := p.closings ++ [p.closing caller] } where
  accepting := by simp
  first := fun {c later} hc i => by
    cases hp : p.closings with
    | nil =>
      -- While jobs are accepted nobody has left, so the first call waits for all who are there.
      have ha : p.accepting = true := by simp [w.accepting, hp]
      obtain ⟨rfl, rfl⟩ : p.closing caller = c ∧ [] = later := by simpa [hp] using hc
      simp [closing, ha, hg ha i]
    | cons d ds =>
      obtain ⟨rfl, -⟩ : d = c ∧ ds ++ [p.closing caller] = later := by simpa [hp] using hc
      exact w.first hp i
  once := fun c hc => by
    rcases List.mem_append.mp hc with hc | hc
    · exact w.once c hc
    · obtain rfl := List.mem_singleton.mp hc
      simp only [closing]
      split
      · exact List.nodup_range.filter _
      · exact List.nodup_nil
  later := fun c hc => by
    cases hp : p.closings with
    | nil => simp [hp] at hc
    | cons d ds =>
      have ha : p.accepting = false := by simp [w.accepting, hp]
      have hc' : c ∈ ds ∨ c = p.closing caller := by simpa [hp] using hc
      rcases hc' with hc' | rfl
      · exact w.later c (by simpa [hp] using hc')
      · simp [closing, ha]

theorem Waits.next {p q : Pool J} {s : PoolStep J} (w : Waits p)
    (hg : p.accepting = true → ∀ i : Nat, p.workers[i]? ≠ some .gone) (h : p.Does s q) : Waits q := by
  cases h with
  | accept job ha => exact ⟨w.accepting, w.first, w.once, w.later⟩
  | refuse job ha => exact w
  | take i job queue hi hq => exact w.set hi (by simp) (by simp) queue p.finished
  | finish i panicked job hi hb => exact w.set hi (by simp) (by simp) p.queue _
  | leave i hi hq ha => exact w.leave i
  | shutdown caller hc => exact w.shutdown caller hg

theorem waits_of_run {name : String} {size : Nat} {steps : List (PoolStep J)} {p : Pool J}
    (h : (start name size).run steps = some p) : Waits p := by
  have hb : Accounts (max size 1) steps p ∧ Waits p := by
    refine run_invariant (I := fun steps p => Accounts (max size 1) steps p ∧ Waits p)
      ⟨accounts_start name size, waits_start name size⟩ ?_ h
    rintro steps q s r ⟨a, w⟩ hd
    refine ⟨a.next hd, w.next ?_ hd⟩
    intro ha i hi
    simpa [ha] using (a.gone hi).1
  exact hb.2

/-! ## The calls -/

theorem returned_iff {c : Closing} : c.returned = true ↔ ∀ i, i ∉ c.awaited := by
  rw [Closing.returned, List.isEmpty_iff, List.eq_nil_iff_forall_not_mem]

/-- Which calls of a shutdown wait, after any steps of callers and workers.

With the first call the pool accepts no more jobs: each one that is handed over leaves it as it
is.  The first call has returned exactly when every worker apart from the caller has left.  If
it was made by somebody who is not a worker, then the queue is empty, no job runs, and the jobs
that were run are the accepted ones.  Every later call has returned, whatever is still in the
queue or on a worker. -/
theorem first_shutdown_waits {name : String} {size : Nat} {steps : List (PoolStep J)} {p : Pool J}
    (h : (start name size).run steps = some p) {c : Closing} {later : List Closing}
    (hc : p.closings = c :: later) :
    (p.accepting = false ∧ ∀ job, p.step (.submit job) = some p) ∧
    (c.returned = true ↔
      ∀ i < p.workers.length, c.caller ≠ some i → p.workers[i]? = some .gone) ∧
    (c.returned = true → c.caller = none →
      p.queue = [] ∧ p.underway = [] ∧ p.done.Perm (accepted steps)) ∧
    ∀ d ∈ later, d.returned = true := by
  have a := accounts_of_run h
  have w := waits_of_run h
  have ha : p.accepting = false := by simp [w.accepting, hc]
  have hr : c.returned = true ↔
      ∀ i < p.workers.length, c.caller ≠ some i → p.workers[i]? = some .gone := by
    rw [returned_iff]
    refine forall_congr' fun i => ?_
    rw [w.first hc i]
    tauto
  refine ⟨⟨ha, fun job => by simp [step, ha]⟩, hr, ?_, ?_⟩
  · intro hret hnone
    have hall : ∀ u ∈ p.workers, u = .gone := by
      intro u hu
      obtain ⟨i, hi, rfl⟩ := List.mem_iff_getElem.mp hu
      have hg := hr.mp hret i hi (by simp [hnone])
      rw [List.getElem?_eq_getElem hi] at hg
      exact Option.some.inj hg
    have hp := a.held_eq_done (by omega) hall
    have hd : p.underway ++ p.queue = [] := by
      simpa [Pool.held, List.append_assoc] using hp
    obtain ⟨hu, hq⟩ := List.append_eq_nil_iff.mp hd
    exact ⟨hq, hu, hp ▸ a.held⟩
  · intro d hd
    rw [Closing.returned, w.later d (by simpa [hc] using hd)]
    rfl

/-- Two calls that overlap: the second one comes while a worker runs a job. -/
def overlappingSteps : List (PoolStep Nat) := [.submit 0, .take 0, .shutdown none, .shutdown none]

/-- The pool behind the overlapping calls: the first call waits, the second has returned. -/
def overlappedPool : Pool Nat where
  name := "pool"
  accepting := false
  workers := [.running 0]
  closings := [⟨none, [0]⟩, ⟨none, []⟩]

theorem first_shutdown_waits_overlapping :
    (start "pool" 1).run overlappingSteps = some overlappedPool ∧
    ∃ p, overlappedPool.run [.finish 0 true, .leave 0] = some p ∧
      p.closings = [⟨none, []⟩, ⟨none, []⟩] ∧ p.queue = [] ∧ p.done.Perm [0] := by
  have h : (start "pool" 1).run (overlappingSteps ++ [.finish 0 true, .leave 0]) =
      some { overlappedPool with
        workers := [.gone], finished := [⟨0, 0⟩], closings := [⟨none, []⟩, ⟨none, []⟩] } := rfl
  obtain ⟨-, -, hw, -⟩ := first_shutdown_waits h rfl
  obtain ⟨hq, -, hd⟩ := hw rfl rfl
  exact ⟨rfl, _, rfl, rfl, hq, hd⟩

/-- Not every call of a shutdown by somebody who is not a worker returns to a pool whose accepted
jobs were run: the second of two overlapping calls returns while a job runs. -/
theorem not_waited_overlapping :
    ¬ ∀ (name : String) (size : Nat) (steps : List (PoolStep Nat)) (p : Pool Nat),
      (start name size).run steps = some p → (∀ i, .shutdown (some i) ∉ steps) →
      ∀ c ∈ p.closings, c.returned = true →
        p.accepting = false ∧ p.done.Perm (accepted steps) := by
  intro h
  have hp := (h "pool" 1 overlappingSteps overlappedPool rfl (by simp [overlappingSteps])
    ⟨none, []⟩ (by simp [overlappedPool]) rfl).2
  have hl := hp.length_eq
  revert hl
  decide

end HttpApp.Pool
