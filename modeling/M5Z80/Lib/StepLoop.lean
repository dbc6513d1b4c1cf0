import Mathlib.Computability.StateTransition

/-!
# M5Z80.Lib.StepLoop

Loops that take a step as long as there is one, over a step function
`σ → Option σ`.  `run` is the loop with fuel; the states it comes to are the
ones that Mathlib's `Reaches` relates to its start.  A loop ends if each step
it comes to lowers a measure, and does not end once it comes to a property
that always leaves a step and that steps keep.
-/

namespace StepLoop

open StateTransition

variable {σ : Type*} (step : σ → Option σ)

/-- The loop, with fewer than `fuel` steps. -/
def run : Nat → σ → Option σ
  | 0, _ => none
  | fuel + 1, s =>
      match step s with
      | some s' => run fuel s'
      | none => some s

variable {step}

/-- A step uses up one unit of fuel. -/
theorem run_of_step {s s' : σ} (h : step s = some s') (fuel : Nat) :
    run step (fuel + 1) s = run step fuel s' := by simp [run, h]

/-- The run ends where there is no step. -/
theorem run_of_none {s : σ} (h : step s = none) (fuel : Nat) :
    run step (fuel + 1) s = some s := by simp [run, h]

/-- More fuel gives the same result. -/
theorem run_of_le {n k : Nat} {s t : σ} (h : run step n s = some t) (hk : n ≤ k) :
    run step k s = some t := by
  induction n generalizing s k with
  | zero => cases h
  | succ n ih =>
      obtain ⟨k, rfl⟩ := Nat.exists_eq_succ_of_ne_zero (Nat.ne_of_gt (Nat.zero_lt_of_lt hk))
      cases hs : step s with
      | none =>
          rw [run_of_none hs] at h ⊢
          exact h
      | some s' =>
          rw [run_of_step hs] at h ⊢
          exact ih h (Nat.le_of_succ_le_succ hk)

/-- A result is a state that the loop comes to and that has no step. -/
theorem reaches_of_run {fuel : Nat} {s t : σ} (h : run step fuel s = some t) :
    Reaches step s t ∧ step t = none := by
  induction fuel generalizing s with
  | zero => cases h
  | succ fuel ih =>
      cases hs : step s with
      | none =>
          rw [run_of_none hs] at h
          cases h
          exact ⟨.refl, hs⟩
      | some s' =>
          rw [run_of_step hs] at h
          obtain ⟨hreaches, hlast⟩ := ih h
          exact ⟨.head hs hreaches, hlast⟩

/-- The invariant rule, for steps that the loop comes to. -/
theorem invariant {P : σ → Prop} {s t : σ} (h : Reaches step s t)
    (hstep : ∀ u v, Reaches step s u → step u = some v → P u → P v) (hs : P s) : P t := by
  induction h with
  | refl => exact hs
  | tail hreaches hv ih => exact hstep _ _ hreaches hv ih

/-- A loop whose steps lower a measure ends. -/
theorem ends_of_measure (measure : σ → Nat) {s : σ}
    (h : ∀ u v, Reaches step s u → step u = some v → measure v < measure u) :
    ∃ fuel t, run step fuel s = some t := by
  induction hn : measure s using Nat.strong_induction_on generalizing s with
  | _ n ih =>
      cases hs : step s with
      | none => exact ⟨1, s, run_of_none hs 0⟩
      | some s' =>
          have hlt := h s s' .refl hs
          obtain ⟨fuel, t, ht⟩ := ih _ (hn ▸ hlt)
            (fun u v hu hv => h u v (.head hs hu) hv) rfl
          exact ⟨fuel + 1, t, (run_of_step hs fuel).trans ht⟩

/-- What the loop comes to is on the way to its result. -/
theorem reaches_result {s t u : σ} (ht : Reaches step s t) (hlast : step t = none)
    (hu : Reaches step s u) : Reaches step u t := by
  obtain hut | htu := reaches_total hu ht
  · exact hut
  · obtain rfl | ⟨v, hv, -⟩ := Relation.ReflTransGen.cases_head htu
    · exact .refl
    · exact absurd (hlast.symm.trans hv) (Option.some_ne_none v).symm

/-- A loop with a result does not come to a property that always leaves a
step and that steps keep. -/
theorem not_endless {P : σ → Prop} (hstep : ∀ u, P u → ∃ v, step u = some v ∧ P v) {s t u : σ}
    (ht : Reaches step s t) (hlast : step t = none) (hu : Reaches step s u) : ¬ P u := by
  intro h
  have hP : P t := invariant (reaches_result ht hlast hu) (fun v w _ hw hv => by
    obtain ⟨w', hw', hnext⟩ := hstep v hv
    rwa [Option.some.inj (hw.symm.trans hw')]) h
  obtain ⟨v, hv, -⟩ := hstep t hP
  exact Option.some_ne_none v (hv.symm.trans hlast)

end StepLoop
