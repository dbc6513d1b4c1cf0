import Mathlib.Algebra.Order.Group.Nat
import Mathlib.Logic.Function.Iterate

/-!
# M5Z80.Lib.Holding

A server that takes the items of a queue in order and holds each one for a
fixed number of steps, the next item in the step that lets go of the last.
-/

namespace Holding

variable {α : Type*}

/-- The item that is held, with the number of steps since it was taken, and
the items that wait. -/
structure Server (α : Type*) where
  held : Option (α × Nat)
  queue : List α

namespace Server

/-- The first item of a queue is taken. -/
def take : List α → Server α
  | [] => ⟨none, []⟩
  | a :: rest => ⟨some (a, 0), rest⟩

/-- An item is held until it has been for `last` steps. -/
def step (last : Nat) (v : Server α) : Server α :=
  match v.held with
  | none => take v.queue
  | some (a, r) => if r < last then ⟨some (a, r + 1), v.queue⟩ else take v.queue

/-! ## runs -/

section

variable (last : Nat)

/-- A held element is held until its time. -/
theorem iterate_cons (a : α) (rest : List α) {r : Nat} (hr : r ≤ last) :
    (step last)^[r + 1] ⟨none, a :: rest⟩ = ⟨some (a, r), rest⟩ := by
  induction r with
  | zero => rfl
  | succ r ih =>
      rw [Function.iterate_succ_apply', ih (Nat.le_of_succ_le hr), step]
      exact if_pos hr

/-- When the first item has had its time, the rest is served as if it had
been the whole queue. -/
theorem iterate_rest (a : α) (rest : List α) (n : Nat) :
    (step last)^[n + 1 + (last + 1)] ⟨none, a :: rest⟩ = (step last)^[n + 1] ⟨none, rest⟩ := by
  rw [Function.iterate_add_apply, iterate_cons last a rest (Nat.le_refl last),
    Function.iterate_succ_apply, Function.iterate_succ_apply]
  congr 1
  exact if_neg (Nat.lt_irrefl last)

/-- With an empty queue nothing is held. -/
theorem iterate_nil (n : Nat) : (step last)^[n] ⟨none, ([] : List α)⟩ = ⟨none, []⟩ :=
  Function.iterate_fixed rfl n

/-- The item with number `k` is held from step `(last + 1) * k + 1` on. -/
theorem held_iterate (queue : List α) (k : Nat) {r : Nat} (hr : r ≤ last) :
    ((step last)^[(last + 1) * k + r + 1] ⟨none, queue⟩).held =
      queue[k]?.map fun a => (a, r) := by
  induction k generalizing queue with
  | zero =>
      rw [Nat.mul_zero, Nat.zero_add]
      cases queue with
      | nil => rw [iterate_nil]; rfl
      | cons a rest => rw [iterate_cons last a rest hr]; rfl
  | succ k ih =>
      cases queue with
      | nil => rw [iterate_nil]; rfl
      | cons a rest =>
          have hsteps : (last + 1) * (k + 1) + r + 1 =
              ((last + 1) * k + r) + 1 + (last + 1) := by
            rw [Nat.mul_succ]
            omega
          rw [hsteps, iterate_rest, ih]
          rfl

/-- What is held after a step is an item and a time below the limit, or the
queue has come to its end. -/
theorem held_cases (queue : List α) (n : Nat) :
    ((step last)^[n + 1] ⟨none, queue⟩).held =
      queue[n / (last + 1)]?.map fun a => (a, n % (last + 1)) := by
  have hr : n % (last + 1) ≤ last := Nat.lt_succ_iff.mp (Nat.mod_lt n (Nat.succ_pos last))
  rw [← held_iterate last queue _ hr, Nat.div_add_mod]

/-- The queue comes to its end. -/
theorem held_eq_none (queue : List α) {n : Nat} (h : (last + 1) * queue.length < n) :
    ((step last)^[n] ⟨none, queue⟩).held = none := by
  obtain ⟨n, rfl⟩ := Nat.exists_eq_succ_of_ne_zero (Nat.ne_of_gt (Nat.zero_lt_of_lt h))
  have hk : queue.length ≤ n / (last + 1) := by
    rw [Nat.le_div_iff_mul_le (Nat.succ_pos last), Nat.mul_comm]
    exact Nat.lt_succ_iff.mp h
  rw [held_cases, List.getElem?_eq_none hk]
  rfl

end

end Server

end Holding
