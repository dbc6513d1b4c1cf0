import Mathlib.Logic.Function.Basic

/-!
# M5Z80.Lib.BlockCopy

A block that is copied byte by byte, each byte read after the ones before it
were written.  Where the target overlaps the source `d` bytes on, the first `d`
bytes are repeated.
-/

namespace BlockCopy

variable {κ β : Type*}

/-- The byte of the source that byte `k` of the target gets, when the target is the
source `d` bytes on: where the byte `d` before it took a write, what was written there. -/
def origin (d : Nat) (dst : Nat → Option κ) (k : Nat) : Nat :=
  if _h : 0 < d ∧ d ≤ k ∧ (dst (k - d)).isSome then origin d dst (k - d) else k
termination_by k
decreasing_by omega

variable {dst : Nat → Option κ} {d k : Nat}

/-- Over a byte that took its write the origin goes back by `d`. -/
theorem origin_back (hd : 0 < d) (hk : d ≤ k) (h : (dst (k - d)).isSome) :
    origin d dst k = origin d dst (k - d) := by
  rw [origin, dif_pos ⟨hd, hk, h⟩]

/-- A byte with nothing written `d` before it comes from itself. -/
theorem origin_self (h : d ≤ k → dst (k - d) = none) : origin d dst k = k := by
  rw [origin, dif_neg]
  rintro ⟨-, hk, hsome⟩
  rw [h hk] at hsome
  exact absurd hsome Bool.false_ne_true

/-- A target that takes every write gets the first `d` bytes again and again. -/
theorem origin_eq_mod (hd : 0 < d) (h : ∀ j < k, (dst j).isSome) : origin d dst k = k % d := by
  induction k using Nat.strongRecOn with
  | ind k ih =>
      by_cases hk : d ≤ k
      · rw [origin_back hd hk (h _ (by omega)), ih (k - d) (by omega) fun j hj => h j (by omega),
          ← Nat.mod_eq_sub_mod hk]
      · rw [origin_self fun hle => absurd hle hk, Nat.mod_eq_of_lt (Nat.lt_of_not_le hk)]

variable [DecidableEq κ]

/-- A byte goes from one cell to another, which may take no writes. -/
def move (src : κ) (dst : Option κ) (s : κ → β) : κ → β :=
  (dst.map fun c => Function.update s c (s src)).getD s

/-- The first `n` bytes of a block. -/
def copy (src : Nat → κ) (dst : Nat → Option κ) : Nat → (κ → β) → κ → β
  | 0, s => s
  | n + 1, s => move (src n) (dst n) (copy src dst n s)

variable {src : Nat → κ} {n : Nat} {s : κ → β} {c : κ}

/-- A move leaves every cell but its target. -/
theorem move_of_ne {a : κ} {b : Option κ} (h : b ≠ some c) : move a b s c = s c := by
  cases b with
  | none => rfl
  | some c' => exact Function.update_of_ne (fun heq => h (congrArg some heq.symm)) _ _

/-- A move puts the byte of its source into its target. -/
theorem move_self (a : κ) : move a (some c) s c = s a := Function.update_self ..

/-- Cells outside the target keep their values. -/
theorem copy_of_ne (h : ∀ k < n, dst k ≠ some c) : copy src dst n s c = s c := by
  induction n with
  | zero => rfl
  | succ n ih =>
      rw [copy, move_of_ne (h n (Nat.lt_succ_self n))]
      exact ih fun k hk => h k (Nat.lt_succ_of_lt hk)

/-- A target that is the source `d` bytes on, or apart from it, when no cell is
written twice and a byte of the source is overwritten before it is read only by the
byte of the target `d` before it. -/
theorem copy_overlap (hd : 0 < d)
    (hoverlap : ∀ k, k + d < n → ∀ c, dst k = some c → c = src (k + d))
    (honce : ∀ j k c, j < n → k < n → dst j = some c → dst k = some c → j = k)
    (hback : ∀ j k, j < k → k < n → dst j = some (src k) → j + d = k) (hk : k < n)
    (hc : dst k = some c) : copy src dst n s c = s (src (origin d dst k)) := by
  induction n generalizing k c with
  | zero => exact absurd hk (Nat.not_lt_zero k)
  | succ n ih =>
      have ih : ∀ {k c}, k < n → dst k = some c →
          copy src dst n s c = s (src (origin d dst k)) :=
        ih (fun k hk => hoverlap k (by omega))
          (fun j k c hj hk => honce j k c (by omega) (by omega))
          fun j k hjk hk => hback j k hjk (by omega)
      rcases Nat.lt_succ_iff_lt_or_eq.mp hk with hlt | rfl
      · have hne : dst n ≠ some c := fun hn =>
          Nat.ne_of_lt hlt (honce k n c hk (Nat.lt_succ_self n) hc hn)
        rw [copy, move_of_ne hne, ih hlt hc]
      · rw [copy, hc, move_self]
        by_cases hsome : d ≤ k ∧ (dst (k - d)).isSome
        · obtain ⟨hle, hsome⟩ := hsome
          obtain ⟨c', hc'⟩ := Option.isSome_iff_exists.mp hsome
          have hsub : k - d + d = k := Nat.sub_add_cancel hle
          have hcell : c' = src k := by
            rw [hoverlap (k - d) (by omega) c' hc', hsub]
          rw [← hcell, ih (by omega) hc', ← origin_back hd hle hsome]
        · -- no byte before it is written to this byte of the source
          rw [origin_self fun hle => Option.not_isSome_iff_eq_none.mp fun h => hsome ⟨hle, h⟩]
          refine copy_of_ne fun j hj hcj => hsome ?_
          have hjd := hback j k hj hk hcj
          refine ⟨by omega, ?_⟩
          rw [← hjd, Nat.add_sub_cancel, hcj]
          rfl

end BlockCopy
