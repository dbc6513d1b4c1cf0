import Mathlib.Data.Nat.Digits.Defs
import Mathlib.Tactic.LinearCombination

/-!
# M5Z80.Lib.Columns

Numbers worked out column by column, the lowest first, with a carry that goes
through the state.  Addition and subtraction are one rule, in which the sign
says what the carry does.
-/

namespace Columns

variable {σ α β : Type*}

/-- The digits that the columns give, and the state after the last. -/
def run (step : α → σ → σ) (digit : σ → β) : List α → σ → List β × σ
  | [], q => ([], q)
  | x :: xs, q =>
      (digit (step x q) :: (run step digit xs (step x q)).1, (run step digit xs (step x q)).2)

variable {step : α → σ → σ} {digit : σ → β} {P : α → Prop} {Q : β → Prop}

/-- What holds of the digit of one column holds of all. -/
theorem forall_run (h : ∀ x, P x → ∀ q, Q (digit (step x q))) {xs : List α} (hxs : ∀ x ∈ xs, P x)
    (q : σ) : ∀ y ∈ (run step digit xs q).1, Q y := by
  induction xs generalizing q with
  | nil => exact fun y hy => absurd hy List.not_mem_nil
  | cons x xs ih =>
      rw [List.forall_mem_cons] at hxs
      exact List.forall_mem_cons.mpr ⟨h x hxs.1 q, ih hxs.2 (step x q)⟩

/-- A column takes the carry `c` in and leaves the carry that it does not show. -/
theorem run_value {b s : ℤ} {v₁ v₂ : α → ℕ} {w : β → ℕ} {c : σ → ℕ}
    (h : ∀ x, P x → ∀ q, (w (digit (step x q)) : ℤ) + s * (b * c (step x q)) =
      v₁ x + s * (v₂ x + c q))
    {xs : List α} (hxs : ∀ x ∈ xs, P x) (q : σ) :
    Nat.ofDigits b ((run step digit xs q).1.map w) +
        s * (b ^ xs.length * c (run step digit xs q).2) =
      Nat.ofDigits b (xs.map v₁) + s * (Nat.ofDigits b (xs.map v₂) + c q) := by
  have hnil : Nat.ofDigits b [] = 0 := rfl
  have hcons (d : ℕ) (ds : List ℕ) : Nat.ofDigits b (d :: ds) = d + b * Nat.ofDigits b ds := rfl
  induction xs generalizing q with
  | nil => simp only [run, List.map_nil, hnil, List.length_nil, pow_zero, one_mul, zero_add]
  | cons x xs ih =>
      rw [List.forall_mem_cons] at hxs
      have hcolumn := h x hxs.1 q
      have hrest := ih hxs.2 (step x q)
      simp only [run, List.map_cons, hcons, List.length_cons, pow_succ]
      linear_combination hcolumn + b * hrest

end Columns
