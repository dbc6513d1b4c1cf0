import Mathlib.Data.Nat.ModEq
import M5Z80.Lib.Run

/-!
# M5Z80.Lib.Ring

A ring of slots under two counters that only count up, as a bounded queue:
position `k` of the stream lies in slot `k % n`, and what waits are the
positions from the number of takes to the number of puts.
-/

namespace Ring

variable {α : Type*} {n : Nat}

/-! ## the queue -/

/-- A queue that counts what has been taken from it. -/
structure Fifo (α : Type*) where
  taken : Nat
  waiting : List α

namespace Fifo

/-- Positions put so far. -/
def put (q : Fifo α) : Nat := q.taken + q.waiting.length

/-- Takes the oldest element, if one waits. -/
def pop (q : Fifo α) : Fifo α :=
  match q.waiting with
  | [] => q
  | _ :: rest => ⟨q.taken + 1, rest⟩

/-- Appends an element if fewer than `n` wait. -/
def push (n : Nat) (a : α) (q : Fifo α) : Fifo α :=
  if q.waiting.length < n then { q with waiting := q.waiting ++ [a] } else q

end Fifo

/-! ## the ring -/

/-- The slots hold the queue `q`. -/
structure Holds (slots : Nat → α) (n : Nat) (q : Fifo α) : Prop where
  length_le : q.waiting.length ≤ n
  slot : ∀ i < q.waiting.length, q.waiting[i]? = some (slots ((q.taken + i) % n))

/-- Only the slot of the take counter matters, not the counter. -/
theorem Holds.congr {slots : Nat → α} {t t' : Nat} {xs : List α} (h : Holds slots n ⟨t, xs⟩)
    (ht : t % n = t' % n) : Holds slots n ⟨t', xs⟩ where
  length_le := h.length_le
  slot i hi := by rw [h.slot i hi, Nat.add_mod, ht, ← Nat.add_mod]

/-- The slots tell what waits. -/
theorem Holds.unique {slots : Nat → α} {t : Nat} {xs ys : List α} (hx : Holds slots n ⟨t, xs⟩)
    (hy : Holds slots n ⟨t, ys⟩) (hlen : xs.length = ys.length) : xs = ys := by
  refine List.ext_getElem? fun i => ?_
  by_cases hi : i < xs.length
  · exact (hx.slot i hi).trans (hy.slot i (hlen ▸ hi)).symm
  · rw [List.getElem?_eq_none (Nat.not_lt.mp hi),
      List.getElem?_eq_none (hlen ▸ Nat.not_lt.mp hi)]

/-- Two waiting positions lie in different slots. -/
theorem slot_ne {t i k : Nat} (hi : i < k) (hk : k < n) : (t + i) % n ≠ (t + k) % n := by
  intro heq
  have hmod : i ≡ k [MOD n] := Nat.ModEq.add_left_cancel' t heq
  rw [Nat.ModEq, Nat.mod_eq_of_lt (hi.trans hk), Nat.mod_eq_of_lt hk] at hmod
  omega

variable {slots : Nat → α} {q : Fifo α}

/-- The oldest element lies in the slot of the take counter. -/
theorem Holds.head (h : Holds slots n q) {a : α} {rest : List α} (hq : q.waiting = a :: rest) :
    slots (q.taken % n) = a := by
  have h0 := h.slot 0 (by simp [hq])
  simpa [hq] using h0.symm

/-- The slots hold what is left after the first is taken. -/
theorem Holds.pop (h : Holds slots n q) : Holds slots n q.pop := by
  obtain ⟨taken, waiting⟩ := q
  cases waiting with
  | nil => exact h
  | cons a rest =>
      refine ⟨(Nat.le_succ _).trans h.length_le, fun i hi => ?_⟩
      have hi' := h.slot (i + 1) (Nat.succ_lt_succ hi)
      rw [List.getElem?_cons_succ, Nat.add_comm i, ← Nat.add_assoc] at hi'
      exact hi'

/-- A put writes the slot of the put counter, which is free. -/
theorem Holds.push (h : Holds slots n q) (hlt : q.waiting.length < n) (a : α) {slots' : Nat → α}
    (hslots : ∀ k < n, slots' k = if k = q.put % n then a else slots k) :
    Holds slots' n (q.push n a) := by
  have hn : 0 < n := Nat.zero_lt_of_lt hlt
  rw [Fifo.push, if_pos hlt]
  refine ⟨by simpa [Nat.add_one_le_iff] using hlt, fun i hi => ?_⟩
  simp only [List.length_append, List.length_singleton] at hi
  rcases Nat.lt_succ_iff_lt_or_eq.mp hi with hold | rfl
  · rw [List.getElem?_append_left hold, h.slot i hold, hslots _ (Nat.mod_lt _ hn), Fifo.put,
      if_neg (slot_ne hold hlt)]
  · rw [List.getElem?_concat_length, hslots _ (Nat.mod_lt _ hn), Fifo.put, if_pos rfl]

/-! ## wrapping counters -/

/-- To take does not count as a put. -/
theorem put_pop (q : Fifo α) : q.pop.put = q.put := by
  obtain ⟨taken, waiting⟩ := q
  cases waiting with
  | nil => rfl
  | cons a rest =>
      change taken + 1 + rest.length = taken + (rest.length + 1)
      omega

/-- A push puts one at most, since a full queue drops it. -/
theorem put_push_le (q : Fifo α) (a : α) : (q.push n a).put ≤ q.put + 1 := by
  rw [Fifo.push]
  split
  · change q.taken + (q.waiting ++ [a]).length ≤ q.put + 1
    rw [List.length_append, ← Nat.add_assoc]
    exact Nat.le_refl _
  · exact Nat.le_succ _

/-- To push takes nothing. -/
theorem taken_push (q : Fifo α) (a : α) : (q.push n a).taken = q.taken := by
  rw [Fifo.push]
  split <;> rfl

/-- What was taken had been put. -/
theorem taken_le_put (q : Fifo α) : q.taken ≤ q.put := Nat.le_add_right _ _

/-- Counters of which the first has not wrapped are in the same round until
the second one has. -/
theorem div_eq_div_iff {M : Nat} (ht : q.taken < M) : q.taken / M = q.put / M ↔ q.put < M := by
  rw [Nat.div_eq_of_lt ht, eq_comm, Nat.div_eq_zero_iff_lt (Nat.zero_lt_of_lt ht)]

/-- The take counter is at or below the put counter unless the counters have
wrapped between the two. -/
theorem taken_mod_le_put_mod_iff {M : Nat} (hM : q.waiting.length < M) :
    q.taken % M ≤ q.put % M ↔ q.taken / M = q.put / M := by
  have ht := Nat.mod_add_div q.taken M
  have hp := Nat.mod_add_div q.put M
  have htlt : q.taken % M < M := Nat.mod_lt _ (by omega)
  have hplt : q.put % M < M := Nat.mod_lt _ (by omega)
  have hput : q.put = q.taken + q.waiting.length := rfl
  have hmono : q.taken / M ≤ q.put / M := Nat.div_le_div_right (by omega)
  constructor
  · intro hle
    by_contra hne
    have hstep : M * (q.taken / M + 1) ≤ M * (q.put / M) :=
      Nat.mul_le_mul_left M (Nat.lt_of_le_of_ne hmono hne)
    rw [Nat.mul_add, Nat.mul_one] at hstep
    omega
  · intro heq
    rw [heq] at ht
    omega

end Ring
