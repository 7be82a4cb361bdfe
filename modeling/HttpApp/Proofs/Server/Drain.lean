/-
  HttpApp/Proofs/Server/Drain.lean --- which connections a server serves before it ends.

  `Does` lists the steps that are possible in the life of a server, each with the
  condition under which it is possible.  What has become of a connection can be read off
  the steps: `Follows` is the invariant that says so, and every step keeps it.  A server
  that waits for open connections ends when it finds no task at work, and a task is at
  work only once it has begun.  So a connection that is accepted shortly before the
  server is told to stop can be left behind: the server ends without having served it,
  though its time is not up.  Main statement: `served_iff_begun`.
-/
import Mathlib.Data.List.Induction
import HttpApp.Server.Drain

set_option autoImplicit false

namespace HttpApp.ServerRun

/-! ## Steps -/

/-- The steps that are possible in the life of a server, and what each of them makes of it. -/
inductive Does (r : ServerRun) : ServerStep → ServerRun → Prop where
  | accept (h : r.phase = .listening) :
    Does r .accept { r with connections := r.connections ++ [.accepted] }
  | begin (i : Nat) (hi : r.connections[i]? = some .accepted) :
    Does r (.begin i) { r with connections := r.connections.set i .active }
  | finish (i : Nat) (hi : r.connections[i]? = some .active) :
    Does r (.finish i) { r with connections := r.connections.set i .served }
  | signal (h : r.phase = .listening) : Does r .signal { r with phase := .draining }
  | wait (h : r.phase = .draining) (hactive : r.active ≠ 0) : Does r .check r
  | drain (h : r.phase = .draining) (hactive : r.active = 0) :
    Does r .check { r with phase := .drained }
  | timeUp (h : r.phase = .draining) : Does r .timeUp { r with phase := .gaveUp }

theorem advance_eq_some {r q : ServerRun} {i : Nat} {before after : ConnectionState}
    (h : r.advance i before after = some q) :
    r.connections[i]? = some before ∧ q = { r with connections := r.connections.set i after } := by
  unfold advance at h
  split at h
  · next hi => exact ⟨hi, (Option.some.inj h).symm⟩
  · cases h

theorem does_of_step {r q : ServerRun} {s : ServerStep} (h : r.step s = some q) : r.Does s q := by
  cases s with
  | accept =>
    obtain ⟨hphase, rfl⟩ : r.phase = .listening ∧ _ = q := by simpa [step] using h
    exact .accept hphase
  | begin i =>
    obtain ⟨hi, rfl⟩ := advance_eq_some h
    exact .begin i hi
  | finish i =>
    obtain ⟨hi, rfl⟩ := advance_eq_some h
    exact .finish i hi
  | signal =>
    obtain ⟨hphase, rfl⟩ : r.phase = .listening ∧ _ = q := by simpa [step] using h
    exact .signal hphase
  | check =>
    obtain ⟨hphase, rfl⟩ : r.phase = .draining ∧
        (if r.active = 0 then { r with phase := .drained } else r) = q := by
      simpa [step] using h
    split
    · next hactive => exact .drain hphase hactive
    · next hactive => exact .wait hphase hactive
  | timeUp =>
    obtain ⟨hphase, rfl⟩ : r.phase = .draining ∧ _ = q := by simpa [step] using h
    exact .timeUp hphase

/-- The steps of a server are those that are listed. -/
theorem step_eq_some_iff {r q : ServerRun} {s : ServerStep} : r.step s = some q ↔ r.Does s q := by
  refine ⟨does_of_step, ?_⟩
  intro h
  cases h with
  | accept h => simp [step, h]
  | begin i hi => simp [step, advance, hi]
  | finish i hi => simp [step, advance, hi]
  | signal h => simp [step, h]
  | wait h hactive => simp [step, h, hactive]
  | drain h hactive => simp [step, h, hactive]
  | timeUp h => simp [step, h]

/-! ## Runs -/

theorem run_concat (r : ServerRun) (steps : List ServerStep) (s : ServerStep) :
    r.run (steps ++ [s]) = (r.run steps).bind fun q => q.step s := by
  induction steps generalizing r with
  | nil => simp [run]
  | cons t ts ih =>
    simp only [List.cons_append, run, Option.bind_assoc]
    congr
    funext q
    exact ih q

/-- What holds of a server before any step, and is kept by every step, holds of every state that
is reached from it. -/
theorem run_invariant {I : List ServerStep → ServerRun → Prop} {r : ServerRun} (start : I [] r)
    (next : ∀ {steps q s p}, I steps q → q.Does s p → I (steps ++ [s]) p)
    {steps : List ServerStep} {q : ServerRun} (h : r.run steps = some q) : I steps q := by
  induction steps using List.reverseRecOn generalizing q with
  | nil =>
    obtain rfl : r = q := by simpa [run] using h
    exact start
  | append_singleton steps s ih =>
    rw [run_concat] at h
    obtain ⟨p, hp, hs⟩ := Option.bind_eq_some_iff.mp h
    exact next (ih hp) (does_of_step hs)

/-! ## The invariant -/

/-- What the steps behind a server say of it: which connections there are, and which of their
tasks have begun and ended. -/
structure Follows (steps : List ServerStep) (r : ServerRun) : Prop where
  listening : r.phase = .listening ↔ .signal ∉ steps
  accepted : r.connections.length = steps.count .accept
  begun : ∀ i, .begin i ∈ steps ↔
    r.connections[i]? = some .active ∨ r.connections[i]? = some .served
  finished : ∀ i, .finish i ∈ steps ↔ r.connections[i]? = some .served

theorem follows_start : Follows [] {} where
  listening := by simp
  accepted := rfl
  begun := by simp
  finished := by simp

/-- A step that leaves the connections as they are. -/
theorem Follows.stay {steps : List ServerStep} {r : ServerRun} (f : Follows steps r)
    {s : ServerStep} {phase : ServerPhase}
    (hphase : phase = .listening ↔ .signal ∉ steps ++ [s]) (hs : s ≠ .accept)
    (hbegin : ∀ i, s ≠ .begin i) (hfinish : ∀ i, s ≠ .finish i) :
    Follows (steps ++ [s]) { r with phase } where
  listening := hphase
  accepted := by simp [f.accepted, hs]
  begun := fun i => by simp [f.begun i, (hbegin i).symm]
  finished := fun i => by simp [f.finished i, (hfinish i).symm]

/-- A new connection stands behind the others, and its task has not begun. -/
theorem Follows.accept {steps : List ServerStep} {r : ServerRun} (f : Follows steps r) :
    Follows (steps ++ [.accept]) { r with connections := r.connections ++ [.accepted] } where
  listening := by simp [f.listening]
  accepted := by simp [f.accepted]
  begun := fun i => by
    simp only [List.mem_append, f.begun i, List.getElem?_append]
    split
    · simp
    · next h => simp [List.getElem?_eq_none (Nat.le_of_not_lt h), List.getElem?_singleton]
  finished := fun i => by
    simp only [List.mem_append, f.finished i, List.getElem?_append]
    split
    · simp
    · next h => simp [List.getElem?_eq_none (Nat.le_of_not_lt h), List.getElem?_singleton]

theorem Follows.begin {steps : List ServerStep} {r : ServerRun} (f : Follows steps r) {i : Nat}
    (hi : r.connections[i]? = some .accepted) :
    Follows (steps ++ [.begin i]) { r with connections := r.connections.set i .active } where
  listening := by simp [f.listening]
  accepted := by simp [f.accepted]
  begun := fun j => by
    by_cases hij : i = j
    · subst hij
      simp [List.getElem?_set_self (List.getElem?_eq_some_iff.mp hi).1]
    · simp [f.begun j, List.getElem?_set_ne hij, Ne.symm hij]
  finished := fun j => by
    by_cases hij : i = j
    · subst hij
      simp [f.finished i, hi, List.getElem?_set_self (List.getElem?_eq_some_iff.mp hi).1]
    · simp [f.finished j, List.getElem?_set_ne hij]

theorem Follows.finish {steps : List ServerStep} {r : ServerRun} (f : Follows steps r) {i : Nat}
    (hi : r.connections[i]? = some .active) :
    Follows (steps ++ [.finish i]) { r with connections := r.connections.set i .served } where
  listening := by simp [f.listening]
  accepted := by simp [f.accepted]
  begun := fun j => by
    by_cases hij : i = j
    · subst hij
      simp [f.begun i, hi, List.getElem?_set_self (List.getElem?_eq_some_iff.mp hi).1]
    · simp [f.begun j, List.getElem?_set_ne hij]
  finished := fun j => by
    by_cases hij : i = j
    · subst hij
      simp [List.getElem?_set_self (List.getElem?_eq_some_iff.mp hi).1]
    · simp [f.finished j, List.getElem?_set_ne hij, Ne.symm hij]

/-- A server that waits for open connections was told to stop. -/
theorem Follows.signal_of_draining {steps : List ServerStep} {r : ServerRun} (f : Follows steps r)
    (h : r.phase = .draining) : .signal ∈ steps := by
  by_contra hn
  simp [f.listening.mpr hn] at h

theorem Follows.next {steps : List ServerStep} {r q : ServerRun} {s : ServerStep}
    (f : Follows steps r) (h : r.Does s q) : Follows (steps ++ [s]) q := by
  cases h with
  | accept h => exact f.accept
  | begin i hi => exact f.begin hi
  | finish i hi => exact f.finish hi
  | signal h => exact f.stay (by simp) (by simp) (by simp) (by simp)
  | wait h hactive =>
    exact f.stay (by simp [h, f.signal_of_draining h]) (by simp) (by simp) (by simp)
  | drain h hactive => exact f.stay (by simp [f.signal_of_draining h]) (by simp) (by simp) (by simp)
  | timeUp h => exact f.stay (by simp [f.signal_of_draining h]) (by simp) (by simp) (by simp)

theorem follows_of_run {steps : List ServerStep} {r : ServerRun}
    (h : ({} : ServerRun).run steps = some r) : Follows steps r :=
  run_invariant follows_start Follows.next h

/-! ## The end -/

theorem active_eq_zero_iff {r : ServerRun} :
    r.active = 0 ↔ ∀ i : Nat, r.connections[i]? ≠ some .active := by
  rw [active, List.countP_eq_zero]
  constructor
  · intro h i hi
    simpa using h _ (List.mem_of_getElem? hi)
  · intro h c hc
    obtain ⟨i, hi⟩ := List.mem_iff_getElem?.mp hc
    simp only [beq_iff_eq]
    rintro rfl
    exact h i hi

/-- Only a look that finds no task at work lets a server end before its time is up. -/
theorem Does.drained {r q : ServerRun} {s : ServerStep} (h : r.Does s q)
    (hq : q.phase = .drained) :
    r.phase = .drained ∧ s ≠ .check ∨
      s = .check ∧ r.phase = .draining ∧ r.active = 0 ∧ q.connections = r.connections := by
  cases h with
  | accept h => simp [h] at hq
  | begin i hi => exact .inl ⟨hq, by simp⟩
  | finish i hi => exact .inl ⟨hq, by simp⟩
  | signal h => simp at hq
  | wait h hactive => simp [h] at hq
  | drain h hactive => exact .inr ⟨rfl, h, hactive, rfl⟩
  | timeUp h => simp at hq

/-- What a server has served when it ends before its time is up, in whatever order connections
were accepted, their tasks began and ended, and the server was told to stop and looked.

It was told to stop, every connection that it accepted is there, no task is at work, and those
that are served, because their tasks have ended, are the ones whose tasks had begun when the
server looked for the last time.  So all are served exactly if every task had begun by then. -/
theorem served_iff_begun {steps : List ServerStep} {r : ServerRun}
    (h : ({} : ServerRun).run (steps ++ [.check]) = some r) (hdrained : r.phase = .drained) :
    .signal ∈ steps ∧ r.connections.length = steps.count .accept ∧ r.active = 0 ∧
      (∀ i, (r.connections[i]? = some .served ↔ .finish i ∈ steps) ∧
        (.finish i ∈ steps ↔ .begin i ∈ steps)) ∧
      ((∀ c ∈ r.connections, c = .served) ↔ ∀ i < r.connections.length, .begin i ∈ steps) := by
  rw [run_concat] at h
  obtain ⟨q, hq, hcheck⟩ := Option.bind_eq_some_iff.mp h
  have f := follows_of_run hq
  obtain ⟨-, hne⟩ | ⟨-, hphase, hactive, hconnections⟩ := (does_of_step hcheck).drained hdrained
  · exact absurd rfl hne
  have hidle := active_eq_zero_iff.mp hactive
  have hfinished : ∀ i, .finish i ∈ steps ↔ .begin i ∈ steps := by
    intro i
    rw [f.finished i, f.begun i]
    exact ⟨.inr, fun hi => hi.resolve_left (hidle i)⟩
  have hserved : ∀ i, r.connections[i]? = some .served ↔ .finish i ∈ steps := by
    intro i
    rw [hconnections, f.finished i]
  refine ⟨f.signal_of_draining hphase, by rw [hconnections, f.accepted], ?_,
    fun i => ⟨hserved i, hfinished i⟩, ?_⟩
  · rw [active_eq_zero_iff, hconnections]
    exact hidle
  · constructor
    · intro hall i hi
      rw [← hfinished i, ← hserved i, List.getElem?_eq_getElem hi, hall _ (List.getElem_mem hi)]
    · intro hall c hc
      obtain ⟨i, hi, rfl⟩ := List.mem_iff_getElem.mp hc
      have hci := (hserved i).mpr ((hfinished i).mpr (hall i hi))
      rw [List.getElem?_eq_getElem hi] at hci
      exact Option.some.inj hci

/-- Two connections, of which the task of the second one begins only while the server waits. -/
def lateSteps : List ServerStep :=
  [.accept, .begin 0, .accept, .signal, .check, .begin 1, .finish 0, .check, .finish 1]

theorem served_iff_begun_late :
    ({} : ServerRun).run (lateSteps ++ [.check]) = some ⟨.drained, [.served, .served]⟩ ∧
      ServerStep.begin 1 ∈ lateSteps ∧
      (ServerRun.mk .drained [.served, .served]).connections[1]? = some .served := by
  obtain ⟨-, -, -, hserved, -⟩ := @served_iff_begun lateSteps _ rfl rfl
  have hbegin : ServerStep.begin 1 ∈ lateSteps := by decide
  exact ⟨rfl, hbegin, (hserved 1).1.mpr ((hserved 1).2.mpr hbegin)⟩

/-- Not every connection is served that was accepted by a server that ends before its time is up:
the task of the last one can begin too late. -/
theorem not_served_unbegun :
    ¬ ∀ (steps : List ServerStep) (r : ServerRun), ({} : ServerRun).run steps = some r →
      r.phase = .drained → ∀ c ∈ r.connections, c = .served := by
  intro h
  have hc := h [.accept, .signal, .check] ⟨.drained, [.accepted]⟩ rfl rfl .accepted (by simp)
  cases hc

end HttpApp.ServerRun
