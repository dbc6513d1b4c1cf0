import Mathlib.Algebra.Ring.Nat

/-!
# M5Z80.Lib.Divider

A counter that counts down from `n` and starts again at its last count, by
the number of ticks since it was loaded.
-/

namespace Divider

variable {n k : Nat}

/-- The count after `k` ticks. -/
def count (n k : Nat) : Nat := n - k % n

/-- At first the count is what was loaded. -/
@[simp] theorem count_zero : count n 0 = n := by
  rw [count, Nat.zero_mod, Nat.sub_zero]

/-- A count never shows zero. -/
theorem count_pos (hn : 0 < n) : 0 < count n k :=
  Nat.sub_pos_of_lt (Nat.mod_lt k hn)

/-- The last count comes before every multiple of `n`. -/
theorem count_eq_one_iff (hn : 0 < n) : count n k = 1 ↔ n ∣ k + 1 := by
  have hlt := Nat.mod_lt k hn
  have hdvd : n ∣ k + 1 ↔ n ∣ k % n + 1 := by
    have hk : k + 1 = n * (k / n) + (k % n + 1) := by rw [← Nat.add_assoc, Nat.div_add_mod]
    rw [hk]
    exact Nat.dvd_add_right (Nat.dvd_mul_right n (k / n))
  rw [hdvd, count]
  constructor
  · intro hlast
    have hn' : n = k % n + 1 := by omega
    exact hn' ▸ Nat.dvd_refl n
  · intro h
    have hle := Nat.le_of_dvd (Nat.succ_pos _) h
    omega

/-- One tick. -/
theorem count_succ (n k : Nat) :
    count n (k + 1) = if n ∣ k + 1 then n else count n k - 1 := by
  split
  · next h => rw [count, Nat.mod_eq_zero_of_dvd h, Nat.sub_zero]
  · next h =>
      have hdiv : (k + 1) / n = k / n := Nat.succ_div_of_not_dvd h
      have hk := Nat.div_add_mod k n
      have hk' := Nat.div_add_mod (k + 1) n
      rw [hdiv] at hk'
      rw [count, count]
      omega

/-- A multiple of `n` has `m` multiples before it exactly if it is
`n * (m + 1)` or a later one. -/
theorem le_div_iff (hn : 0 < n) (h : n ∣ k + 1) (m : Nat) :
    m ≤ k / n ↔ n * (m + 1) ≤ k + 1 := by
  have hdiv : (k + 1) / n = k / n + 1 := Nat.succ_div_of_dvd h
  rw [Nat.mul_comm, ← Nat.le_div_iff_mul_le hn, hdiv]
  omega

end Divider
