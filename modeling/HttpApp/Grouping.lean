/-
  HttpApp/Grouping.lean --- maps with lists.

  Values are collected under keys: one that is added comes last in the list of its key.
  A map is a list of keys with their lists; the order of the keys means nothing.
-/

set_option autoImplicit false

namespace HttpApp.Grouping

variable {κ α : Type} [DecidableEq κ]

/-- Adds a value to those of its key. -/
def push (key : κ) (a : α) : List (κ × List α) → List (κ × List α)
  | [] => [(key, [a])]
  | g :: gs => if key = g.1 then (g.1, g.2 ++ [a]) :: gs else g :: push key a gs

theorem lookup_cons_eq_ite (g : κ × List α) (gs : List (κ × List α)) (key : κ) :
    (g :: gs).lookup key = if key = g.1 then some g.2 else gs.lookup key := by
  rw [List.lookup_cons]
  by_cases h : key = g.1
  · simp [h]
  · simp [h, beq_false_of_ne h]

/-- A value that is added comes last in the list of its key, and no other list changes. -/
theorem lookup_push (key : κ) (a : α) (gs : List (κ × List α)) (key' : κ) :
    (push key a gs).lookup key' =
      if key' = key then some ((gs.lookup key').getD [] ++ [a]) else gs.lookup key' := by
  induction gs with
  | nil => exact lookup_cons_eq_ite _ _ key'
  | cons g gs ih =>
    rw [push, lookup_cons_eq_ite g gs]
    split
    · next h =>
      rw [lookup_cons_eq_ite, ← h]
      split <;> rfl
    · next h =>
      rw [lookup_cons_eq_ite, ih]
      by_cases hkey : key' = key
      · have hg : key' ≠ g.1 := fun heq => h (hkey.symm.trans heq)
        rw [if_neg hg, if_pos hkey, if_pos hkey, if_neg hg]
      · rw [if_neg hkey, if_neg hkey]

theorem mem_keys_push {key : κ} {a : α} {gs : List (κ × List α)} {key' : κ} :
    key' ∈ (push key a gs).map (·.1) ↔ key' = key ∨ key' ∈ gs.map (·.1) := by
  induction gs with
  | nil => simp [push]
  | cons g gs ih =>
    rw [push]
    split
    · next h => simp [h]
    · rw [List.map_cons, List.mem_cons, ih, List.map_cons, List.mem_cons]
      exact or_left_comm

/-- Every key stays once. -/
theorem nodup_push (key : κ) (a : α) {gs : List (κ × List α)} (h : (gs.map (·.1)).Nodup) :
    ((push key a gs).map (·.1)).Nodup := by
  induction gs with
  | nil => simp [push]
  | cons g gs ih =>
    have hcons := List.nodup_cons.1 h
    rw [push]
    split
    · exact h
    · next hne =>
      refine List.nodup_cons.2 ⟨fun hmem => ?_, ih hcons.2⟩
      exact (mem_keys_push.1 hmem).elim (fun heq => hne heq.symm) hcons.1

/-- The values are those that were there and the one that is added. -/
theorem flatMap_push_perm (key : κ) (a : α) (gs : List (κ × List α)) :
    ((push key a gs).flatMap (·.2)).Perm (gs.flatMap (·.2) ++ [a]) := by
  induction gs with
  | nil => simp [push]
  | cons g gs ih =>
    rw [push]
    split
    · have hcomm : ([a] ++ gs.flatMap (·.2)).Perm (gs.flatMap (·.2) ++ [a]) := List.perm_append_comm
      simpa using hcomm.append_left g.2
    · simpa using ih.append_left g.2

end HttpApp.Grouping
