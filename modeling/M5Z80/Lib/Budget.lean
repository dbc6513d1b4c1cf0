import Mathlib.Algebra.BigOperators.Intervals
import Mathlib.Algebra.Order.BigOperators.Group.Finset
import Mathlib.Logic.Function.Iterate

/-!
# M5Z80.Lib.Budget

Do-while loops that run on a budget: the loop ends after the first pass
that leaves nothing.  A pass takes its cost off the budget, or refills it, or
stops the loop.  Whether the loop ends is a matter of what the passes between
two refills cost.
-/

namespace Budget

variable {σ : Type*} (step : σ → σ) (left : σ → Int)

/-- The loop, in at most `fuel` passes. -/
def loop : Nat → σ → Option σ
  | 0, _ => none
  | fuel + 1, s => if 0 < left (step s) then loop fuel (step s) else some (step s)

/-- The loop from `s` makes its pass `n`: every pass before it left
something. -/
def Makes (s : σ) (n : Nat) : Prop := ∀ i < n, 0 < left (step^[i + 1] s)

/-! ## passes -/

section

variable {step left}

/-- No pass needs no budget. -/
theorem makes_zero (s : σ) : Makes step left s 0 := fun i h => absurd h (Nat.not_lt_zero i)

/-- A first pass, and the others behind it. -/
theorem makes_succ {s : σ} {n : Nat} :
    Makes step left s (n + 1) ↔ 0 < left (step s) ∧ Makes step left (step s) n := by
  constructor
  · intro h
    exact ⟨h 0 (Nat.succ_pos n), fun i hi => h (i + 1) (Nat.succ_lt_succ hi)⟩
  · rintro ⟨hfirst, hrest⟩ i hi
    cases i with
    | zero => exact hfirst
    | succ i => exact hrest i (Nat.lt_of_succ_lt_succ hi)

/-- The loop ends after its pass `n`, the last one it makes. -/
theorem loop_eq_some {fuel : Nat} {s t : σ} (h : loop step left fuel s = some t) :
    ∃ n, Makes step left s n ∧ left t ≤ 0 ∧ t = step (step^[n] s) ∧
      ∀ k, Makes step left s k → k ≤ n := by
  induction fuel generalizing s with
  | zero => cases h
  | succ fuel ih =>
      rw [loop] at h
      split at h
      case isTrue hpos =>
        obtain ⟨n, hn, ht, heq, hlast⟩ := ih h
        refine ⟨n + 1, makes_succ.mpr ⟨hpos, hn⟩, ht, heq, fun k hk => ?_⟩
        cases k with
        | zero => exact Nat.zero_le _
        | succ k => exact Nat.succ_le_succ (hlast k (makes_succ.mp hk).2)
      case isFalse hpos =>
        cases h
        refine ⟨0, makes_zero s, Int.not_lt.mp hpos, rfl, fun k hk => ?_⟩
        cases k with
        | zero => exact Nat.le_refl 0
        | succ k => exact absurd (makes_succ.mp hk).1 hpos

/-- A loop that runs out of fuel has made a pass for each unit of it. -/
theorem makes_of_loop_eq_none {fuel : Nat} {s : σ} (h : loop step left fuel s = none) :
    Makes step left s fuel := by
  induction fuel generalizing s with
  | zero => exact makes_zero s
  | succ fuel ih =>
      rw [loop] at h
      split at h
      case isTrue hpos => exact makes_succ.mpr ⟨hpos, ih h⟩
      case isFalse => cases h

/-- A loop that makes every pass runs out of any fuel. -/
theorem loop_eq_none {s : σ} (h : ∀ n, Makes step left s n) (fuel : Nat) :
    loop step left fuel s = none := by
  cases hloop : loop step left fuel s with
  | none => rfl
  | some t =>
      obtain ⟨n, -, -, -, hlast⟩ := loop_eq_some hloop
      exact absurd (hlast (n + 1) (h (n + 1))) (Nat.not_succ_le_self n)

/-- The loop ends exactly when it does not make every pass. -/
theorem ends_iff_not_makes (s : σ) :
    (∃ fuel, loop step left fuel s ≠ none) ↔ ¬ ∀ n, Makes step left s n := by
  constructor
  · rintro ⟨fuel, hfuel⟩ hall
    exact hfuel (loop_eq_none hall fuel)
  · intro hends
    by_contra hloop
    have hnone (fuel : Nat) : loop step left fuel s = none := by
      by_contra hsome
      exact hloop ⟨fuel, hsome⟩
    exact hends fun n => makes_of_loop_eq_none (hnone n)

/-- The invariant rule: what a pass that leaves something keeps holds before
every pass. -/
theorem Makes.invariant {P : σ → Prop} (hstep : ∀ s, P s → 0 < left (step s) → P (step s))
    {s : σ} {n : Nat} (hn : Makes step left s n) (h : P s) : P (step^[n] s) := by
  induction n generalizing s with
  | zero => exact h
  | succ n ih =>
      obtain ⟨hpos, hrest⟩ := makes_succ.mp hn
      exact ih hrest (hstep s h hpos)

end

/-! ## what the passes take -/

variable (cost : σ → Nat) (refills stops : σ → Prop)

/-- What the passes from `a` on take off the budget, up to pass `n`. -/
def spent (s : σ) (a n : Nat) : Nat := ∑ k ∈ Finset.Ico a n, cost (step^[k] s)

/-- The passes between `b` and `n`, none of which refills the budget. They
come behind the first pass, which every loop makes, or behind one that refills. -/
structure Stretch (s : σ) (b n : Nat) : Prop where
  lt : b < n
  start : b = 0 ∨ refills (step^[b] s)
  keeps : ∀ k, b < k → k < n → ¬ refills (step^[k] s)

/-- Between two refills a pass that leaves something takes its cost and does
not stop the loop; one that leaves nothing has found no more than its cost, or
stops the loop. -/
structure Accounts : Prop where
  takes : ∀ s, 0 < left s → 0 < left (step s) → ¬ refills s →
    left (step s) = left s - cost s ∧ ¬ stops s
  last : ∀ s, 0 < left s → left (step s) ≤ 0 → ¬ refills s → left s ≤ cost s ∨ stops s

variable {step left cost refills stops}

/-- The cost of one more pass. -/
theorem spent_succ {s : σ} {a n : Nat} (h : a ≤ n) :
    spent step cost s a (n + 1) = spent step cost s a n + cost (step^[n] s) :=
  Finset.sum_Ico_succ_top h _

/-- The budget in a stretch of passes that all leave something. -/
theorem Accounts.left_eq (h : Accounts step left cost refills stops) {s : σ} {b n : Nat}
    (hkeeps : ∀ k, b < k → k < n → ¬ refills (step^[k] s))
    (hpos : ∀ k, b < k → k ≤ n → 0 < left (step^[k] s)) (hbn : b < n) :
    left (step^[n] s) = left (step^[b + 1] s) - spent step cost s (b + 1) n ∧
      ∀ k, b < k → k < n → ¬ stops (step^[k] s) := by
  induction n, hbn using Nat.le_induction with
  | base => exact ⟨by simp [spent], fun k hk hn => by omega⟩
  | succ n hn ih =>
      obtain ⟨hleft, hstops⟩ := ih (fun k hk hkn => hkeeps k hk (by omega))
        fun k hk hkn => hpos k hk (by omega)
      have hsucc : step^[n + 1] s = step (step^[n] s) := Function.iterate_succ_apply' step n s
      have hnext := hpos (n + 1) (by omega) le_rfl
      rw [hsucc] at hnext
      obtain ⟨htake, hstop⟩ := h.takes _ (hpos n hn (by omega)) hnext (hkeeps n hn (by omega))
      refine ⟨?_, fun k hk hkn => ?_⟩
      · rw [hsucc, htake, hleft, spent_succ (by omega)]
        push_cast
        omega
      · obtain hlt | rfl := Nat.lt_succ_iff_lt_or_eq.mp hkn
        · exact hstops k hk hlt
        · exact hstop

/-- The last refill before pass `n`, or the first pass. -/
theorem exists_stretch (s : σ) (n : Nat) : ∃ b, Stretch step refills s b (n + 1) := by
  induction n with
  | zero => exact ⟨0, Nat.one_pos, .inl rfl, fun k hk hn => by omega⟩
  | succ n ih =>
      by_cases hfill : refills (step^[n + 1] s)
      · exact ⟨n + 1, Nat.lt_succ_self _, .inr hfill, fun k hk hn => by omega⟩
      · obtain ⟨b, hlt, hstart, hkeeps⟩ := ih
        refine ⟨b, by omega, hstart, fun k hk hn => ?_⟩
        obtain hkn | rfl := Nat.lt_succ_iff_lt_or_eq.mp hn
        · exact hkeeps k hk hkn
        · exact hfill

/-- The loop ends exactly when some stretch of its passes costs what the budget
was where it began, or has a pass that stops the loop. -/
theorem Accounts.ends_iff (h : Accounts step left cost refills stops) (s : σ) :
    (∃ fuel, loop step left fuel s ≠ none) ↔
      ∃ b n, Stretch step refills s b n ∧
        (left (step^[b + 1] s) ≤ spent step cost s (b + 1) n ∨
          ∃ k, b < k ∧ k < n ∧ stops (step^[k] s)) := by
  rw [ends_iff_not_makes]
  constructor
  · intro hends
    -- the first pass that leaves nothing, and the stretch that it ends
    classical
    obtain ⟨n, hn, hfirst⟩ : ∃ n, left (step^[n + 1] s) ≤ 0 ∧
        ∀ k < n, 0 < left (step^[k + 1] s) := by
      have hsome : ∃ n, left (step^[n + 1] s) ≤ 0 := by
        by_contra hnone
        exact hends fun n i _ => not_le.mp fun hi => hnone ⟨i, hi⟩
      exact ⟨Nat.find hsome, Nat.find_spec hsome, fun k hk => not_le.mp (Nat.find_min hsome hk)⟩
    obtain ⟨b, hstretch⟩ : ∃ b, Stretch step refills s b (n + 1) := exists_stretch s n
    refine ⟨b, n + 1, hstretch, ?_⟩
    obtain hb | rfl := Nat.lt_succ_iff_lt_or_eq.mp hstretch.lt
    · have hpos : ∀ k, b < k → k ≤ n → 0 < left (step^[k] s) := fun k hk hkn => by
        obtain ⟨j, rfl⟩ := Nat.exists_eq_succ_of_ne_zero (Nat.ne_zero_of_lt hk)
        exact hfirst j hkn
      obtain ⟨hleft, -⟩ := h.left_eq (fun k hk hkn => hstretch.keeps k hk (by omega)) hpos hb
      rw [Function.iterate_succ_apply'] at hn
      obtain hcost | hstop := h.last _ (hpos n hb le_rfl) hn (hstretch.keeps n hb (by omega))
      · have hb' : b + 1 ≤ n := hb
        refine .inl ?_
        rw [spent_succ hb']
        push_cast
        omega
      · exact .inr ⟨n, hb, Nat.lt_succ_self n, hstop⟩
    · exact .inl (by simpa [spent] using hn)
  · rintro ⟨b, n, hstretch, hspent⟩ hall
    have hpos : ∀ k, b < k → k ≤ n → 0 < left (step^[k] s) := fun k hk _ => by
      obtain ⟨j, rfl⟩ := Nat.exists_eq_succ_of_ne_zero (Nat.ne_zero_of_lt hk)
      exact hall (j + 1) j (Nat.lt_succ_self j)
    obtain ⟨hleft, hstops⟩ := h.left_eq hstretch.keeps hpos hstretch.lt
    obtain hcost | ⟨k, hk, hkn, hstop⟩ := hspent
    · have hn := hpos n hstretch.lt le_rfl
      omega
    · exact hstops k hk hkn hstop

/-- Costs that come again and again add up to any amount. -/
theorem exists_le_spent {s : σ} (hcost : ∀ N, ∃ n, N ≤ n ∧ cost (step^[n] s) ≠ 0)
    (a amount : Nat) : ∃ n, a ≤ n ∧ amount ≤ spent step cost s a n := by
  induction amount with
  | zero => exact ⟨a, le_rfl, Nat.zero_le _⟩
  | succ amount ih =>
      obtain ⟨n, hn, hspent⟩ := ih
      obtain ⟨k, hk, hne⟩ := hcost n
      have hmono : spent step cost s a n ≤ spent step cost s a k :=
        Finset.sum_le_sum_of_subset (Finset.Ico_subset_Ico le_rfl hk)
      refine ⟨k + 1, by omega, ?_⟩
      rw [spent_succ (hn.trans hk)]
      omega

/-- Finitely many passes that refill and infinitely many that cost something are
enough for the loop to end. -/
theorem Accounts.ends (h : Accounts step left cost refills stops) {s : σ}
    (hrefills : ∃ N, ∀ n, N ≤ n → ¬ refills (step^[n] s))
    (hcost : ∀ N, ∃ n, N ≤ n ∧ cost (step^[n] s) ≠ 0) :
    ∃ fuel, loop step left fuel s ≠ none := by
  obtain ⟨N, hN⟩ := hrefills
  obtain ⟨b, hlt, hstart, hkeeps⟩ : ∃ b, Stretch step refills s b (N + 1) := exists_stretch s N
  obtain ⟨n, hn, hspent⟩ := exists_le_spent hcost (b + 1) (left (step^[b + 1] s)).toNat
  refine (h.ends_iff s).mpr ⟨b, n, ⟨hn, hstart, fun k hk hkn => ?_⟩, .inl (by omega)⟩
  by_cases hkN : k < N + 1
  · exact hkeeps k hk hkN
  · exact hN k (by omega)

end Budget
