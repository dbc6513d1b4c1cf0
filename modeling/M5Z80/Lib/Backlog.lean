import Mathlib.Algebra.BigOperators.Intervals
import Mathlib.Algebra.Order.BigOperators.Group.Finset

/-!
# M5Z80.Lib.Backlog

A server that works in rounds.  Work arrives in every round, and the server
takes off a portion at each of its turns unless there is less than that
left.  The backlog stays bounded exactly when in every stretch of rounds no
more arrives than the turns could take off, up to a constant.
-/

namespace Backlog

open Finset

/-- A server: `b n` is the backlog before round `n`, in which `c n` arrives
and `t n` of `s n` turns take off `p` each.  As long as the backlog is at
most `M`, a turn is skipped only in a round that ends with `K` or less. -/
structure Server (b : Nat → Int) (c t s : Nat → Nat) (p K M : Nat) : Prop where
  start : b 0 = 0
  step : ∀ n, b (n + 1) = b n + c n - p * t n
  nonneg : ∀ n, 0 ≤ b n
  turns : ∀ n, t n ≤ s n
  idle : ∀ n, b n ≤ M → t n = s n ∨ b (n + 1) ≤ K

/-- In every stretch of rounds the turns could take off what arrives, up to
`D`. -/
def Affords (c s : Nat → Nat) (p D : Nat) : Prop :=
  ∀ i n, i ≤ n → ∑ k ∈ Ico i n, c k ≤ p * ∑ k ∈ Ico i n, s k + D

namespace Server

variable {b : Nat → Int} {c t s : Nat → Nat} {p K M : Nat} (h : Server b c t s p K M)
include h

/-- Over a stretch of rounds, the backlog grows by what arrives less what is
taken off. -/
theorem eq_sum {i n : Nat} (hi : i ≤ n) :
    b n + (p * ∑ k ∈ Ico i n, t k : Nat) = b i + (∑ k ∈ Ico i n, c k : Nat) := by
  induction n, hi using Nat.le_induction with
  | base => simp
  | succ n hi ih =>
      have hstep := h.step n
      rw [sum_Ico_succ_top hi, sum_Ico_succ_top hi, Nat.mul_add]
      omega

/-- A bounded backlog means that the turns could take off what arrives. -/
theorem affords {B : Nat} (hb : ∀ n, b n ≤ B) : Affords c s p B := by
  intro i n hi
  have hsum := h.eq_sum hi
  have hstart := h.nonneg i
  have hend := hb n
  have hturns : p * ∑ k ∈ Ico i n, t k ≤ p * ∑ k ∈ Ico i n, s k :=
    Nat.mul_le_mul_left p (sum_le_sum fun k _ => h.turns k)
  omega

/-- If the turns could take off what arrives, the backlog is bounded. -/
theorem bounded {D : Nat} (hD : Affords c s p D) (hM : K + D ≤ M) (n : Nat) : b n ≤ K + D := by
  -- the round since which no turn has been skipped
  have hbusy : ∃ i ≤ n, b i ≤ K ∧
      b n + (p * ∑ k ∈ Ico i n, s k : Nat) ≤ b i + (∑ k ∈ Ico i n, c k : Nat) := by
    induction n with
    | zero =>
        refine ⟨0, Nat.le_refl 0, ?_, ?_⟩
        · rw [h.start]
          exact Int.natCast_nonneg K
        · simp
    | succ n ih =>
        obtain ⟨i, hi, hbi, hbn⟩ := ih
        have hafford := hD i n hi
        have hstep := h.step n
        obtain hall | hlow := h.idle n (by omega)
        · refine ⟨i, Nat.le_succ_of_le hi, hbi, ?_⟩
          rw [hall] at hstep
          rw [sum_Ico_succ_top hi, sum_Ico_succ_top hi, Nat.mul_add]
          omega
        · refine ⟨n + 1, Nat.le_refl _, hlow, ?_⟩
          simp
  obtain ⟨i, hi, hbi, hbn⟩ := hbusy
  have hafford := hD i n hi
  omega

end Server

end Backlog
