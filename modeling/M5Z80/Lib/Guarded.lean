import M5Z80.Lib.Run

/-!
# M5Z80.Lib.Guarded

Steps that keep a property exactly under a condition.  `safe` is about the
history of a state and so never comes back once it is lost; `inv` is what
the condition relies on.  Guarded steps compose, and a machine whose every
step is guarded is safe after a run exactly when the run met the conditions.
-/

namespace Run

variable {σ ι : Type*} {safe inv : σ → Prop} {s s' s'' : σ} {ok ok' : Prop}

/-- The step from `s` to `s'` stays safe exactly when `ok`, and then keeps the
invariant. -/
structure Guarded (safe inv : σ → Prop) (s : σ) (ok : Prop) (s' : σ) : Prop where
  back : safe s' → safe s
  safe_iff : inv s → safe s → (safe s' ↔ ok)
  keeps : inv s → ok → inv s'

namespace Guarded

/-- A step that leaves the history alone. -/
theorem skip (hsafe : safe s' ↔ safe s) (hinv : inv s → inv s') :
    Guarded safe inv s True s' where
  back := hsafe.mp
  safe_iff _ hs := iff_of_true (hsafe.mpr hs) trivial
  keeps hi _ := hinv hi

theorem refl (s : σ) : Guarded safe inv s True s := skip Iff.rfl id

/-- Two guarded parts, one behind the other. -/
theorem trans (h : Guarded safe inv s ok s') (h' : Guarded safe inv s' ok' s'') :
    Guarded safe inv s (ok ∧ ok') s'' where
  back hs := h.back (h'.back hs)
  safe_iff hi hs := by
    constructor
    · intro hs''
      have hs' := h'.back hs''
      have hok := (h.safe_iff hi hs).mp hs'
      exact ⟨hok, (h'.safe_iff (h.keeps hi hok) hs').mp hs''⟩
    · intro ⟨hok, hok'⟩
      exact (h'.safe_iff (h.keeps hi hok) ((h.safe_iff hi hs).mpr hok)).mpr hok'
  keeps hi hok := h'.keeps (h.keeps hi hok.1) hok.2

/-- The condition may be stated with the invariant in hand. -/
theorem congr (h : Guarded safe inv s ok s') (hok : inv s → (ok ↔ ok')) :
    Guarded safe inv s ok' s' where
  back := h.back
  safe_iff hi hs := (h.safe_iff hi hs).trans (hok hi)
  keeps hi hok' := h.keeps hi ((hok hi).mpr hok')

/-- A step without a condition first. -/
theorem after (h : Guarded safe inv s True s') (h' : Guarded safe inv s' ok s'') :
    Guarded safe inv s ok s'' :=
  (h.trans h').congr fun _ => iff_of_eq (true_and ok)

/-- The run rule. -/
theorem exec_iff {step : ι → σ → σ} {ok : σ → ι → Prop}
    (hstep : ∀ s o, Guarded safe inv s (ok s o) (step o s)) (ops : List ι) (hinv : inv s) :
    safe (exec step ops s) ↔ safe s ∧ Along step ok ops s := by
  refine Run.exec_iff (P := fun s => safe s → inv s) ?_ ?_ ops fun _ => hinv
  · intro s o hi hs'
    have hs := (hstep s o).back hs'
    exact (hstep s o).keeps (hi hs) (((hstep s o).safe_iff (hi hs) hs).mp hs')
  · intro s o hi
    constructor
    · intro hs'
      have hs := (hstep s o).back hs'
      exact ⟨hs, ((hstep s o).safe_iff (hi hs) hs).mp hs'⟩
    · intro ⟨hs, hok⟩
      exact ((hstep s o).safe_iff (hi hs) hs).mpr hok

end Guarded

end Run
