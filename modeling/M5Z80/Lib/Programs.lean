import Mathlib.Logic.Basic

/-!
# M5Z80.Lib.Programs

Programs over a state that are put together from primitives.  `Made prim n`
are the programs that run primitives of a total weight of at most `n`, and
a relation between the states before and after, graded by such weights,
holds of a program when it holds of the primitives.
-/

namespace Programs

variable {σ : Type}

/-- The programs made of the primitives `prim`, which each have a weight. -/
inductive Made (prim : (α : Type) → Nat → StateM σ α → Prop) :
    {α : Type} → Nat → StateM σ α → Prop
  | pure {α : Type} (a : α) : Made prim 0 (Pure.pure a)
  | prim {α : Type} {n : Nat} {x : StateM σ α} (h : prim α n x) : Made prim n x
  | bind {α β : Type} {j k : Nat} {x : StateM σ α} {f : α → StateM σ β}
      (hx : Made prim j x) (hf : ∀ a, Made prim k (f a)) : Made prim (j + k) (x >>= f)
  | mono {α : Type} {j k : Nat} {x : StateM σ α} (hx : Made prim j x) (h : j ≤ k) :
      Made prim k x

/-- Relations between states graded by a weight: no weight allows nothing
less than staying, and weights add up. -/
structure Graded (R : Nat → σ → σ → Prop) : Prop where
  refl : ∀ s, R 0 s s
  trans : ∀ {j k s t u}, R j s t → R k t u → R (j + k) s u
  mono : ∀ {j k s t}, R j s t → j ≤ k → R k s t

variable {prim : (α : Type) → Nat → StateM σ α → Prop} {R : Nat → σ → σ → Prop}

/-- What the primitives keep, programs keep. -/
theorem Made.rel (hR : Graded R)
    (hprim : ∀ {α : Type} {n : Nat} {x : StateM σ α}, prim α n x → ∀ s, R n s (x s).2)
    {α : Type} {n : Nat} {x : StateM σ α} (h : Made prim n x) (s : σ) : R n s (x s).2 := by
  induction h generalizing s with
  | pure a => exact hR.refl s
  | prim hx => exact hprim hx s
  | @bind α β j k x f hx hf ihx ihf => exact hR.trans (ihx s) (ihf (x s).1 (x s).2)
  | mono hx hjk ih => exact hR.mono (ih s) hjk

/-- A relation without grades: an invariant, or what stays the same. -/
theorem Made.keeps {R : σ → σ → Prop} (refl : ∀ s, R s s)
    (trans : ∀ {s t u}, R s t → R t u → R s u)
    (hprim : ∀ {α : Type} {n : Nat} {x : StateM σ α}, prim α n x → ∀ s, R s (x s).2)
    {α : Type} {n : Nat} {x : StateM σ α} (h : Made prim n x) (s : σ) : R s (x s).2 :=
  h.rel (R := fun _ => R) ⟨refl, trans, fun h _ => h⟩ hprim s

/-- A choice between two programs weighs at most as much as the heavier. -/
theorem Made.ite {c : Prop} [Decidable c] {α : Type} {j k : Nat} {x y : StateM σ α}
    (hx : Made prim j x) (hy : Made prim k y) : Made prim (max j k) (if c then x else y) := by
  by_cases h : c
  · rw [if_pos h]
    exact hx.mono (Nat.le_max_left j k)
  · rw [if_neg h]
    exact hy.mono (Nat.le_max_right j k)

end Programs
