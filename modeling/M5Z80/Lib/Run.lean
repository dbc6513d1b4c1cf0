import Mathlib.Data.List.Basic

/-!
# M5Z80.Lib.Run

Runs of a machine that is fed one input at a time: `exec step ops s` is the
state after the inputs `ops`.  A condition on inputs that depends on the
state each one finds is `Along`; invariants, relations between the ends of
a run and simulations are proved for one step and carried to runs here.
-/

namespace Run

variable {σ τ ι : Type*}

/-! ## runs -/

/-- The state after a list of inputs. -/
def exec (step : ι → σ → σ) (ops : List ι) (s : σ) : σ := ops.foldl (fun s o => step o s) s

section

variable (step : ι → σ → σ)

@[simp] theorem exec_nil (s : σ) : exec step [] s = s := rfl

@[simp] theorem exec_cons (o : ι) (ops : List ι) (s : σ) :
    exec step (o :: ops) s = exec step ops (step o s) := rfl

theorem exec_append (ops ops' : List ι) (s : σ) :
    exec step (ops ++ ops') s = exec step ops' (exec step ops s) := List.foldl_append

/-! ## conditions along a run -/

/-- Every input of the run meets `ok` in the state it finds. -/
def Along (ok : σ → ι → Prop) : List ι → σ → Prop
  | [], _ => True
  | o :: ops, s => ok s o ∧ Along ok ops (step o s)

variable {step}

/-- A condition on the input alone. -/
theorem along_input_iff {ok : ι → Prop} (ops : List ι) (s : σ) :
    Along step (fun _ o => ok o) ops s ↔ ∀ o ∈ ops, ok o := by
  induction ops generalizing s with
  | nil => simp [Along]
  | cons o ops ih => rw [Along, ih (step o s), List.forall_mem_cons]

/-- A condition along two runs. -/
theorem along_append {ok : σ → ι → Prop} (ops ops' : List ι) (s : σ) :
    Along step ok (ops ++ ops') s ↔
      Along step ok ops s ∧ Along step ok ops' (exec step ops s) := by
  induction ops generalizing s with
  | nil => simp [Along]
  | cons o ops ih => simp only [List.cons_append, Along, exec_cons, ih, and_assoc]

/-- Two conditions along a run. -/
theorem along_and {ok ok' : σ → ι → Prop} (ops : List ι) (s : σ) :
    Along step (fun s o => ok s o ∧ ok' s o) ops s ↔
      Along step ok ops s ∧ Along step ok' ops s := by
  induction ops generalizing s with
  | nil => simp [Along]
  | cons o ops ih =>
      rw [Along, Along, Along, ih]
      exact and_and_and_comm

/-! ## rules -/

/-- The invariant rule. -/
theorem Along.invariant {ok : σ → ι → Prop} {P : σ → Prop}
    (hstep : ∀ s o, P s → ok s o → P (step o s)) {ops : List ι} {s : σ}
    (hok : Along step ok ops s) (h : P s) : P (exec step ops s) := by
  induction ops generalizing s with
  | nil => exact h
  | cons o ops ih => exact ih hok.2 (hstep s o h hok.1)

/-- Two conditions that agree wherever an invariant holds, and keep it,
agree along runs. -/
theorem along_congr {ok ok' : σ → ι → Prop} {P : σ → Prop}
    (hiff : ∀ s o, P s → (ok s o ↔ ok' s o)) (hstep : ∀ s o, P s → ok s o → P (step o s))
    (ops : List ι) {s : σ} (h : P s) : Along step ok ops s ↔ Along step ok' ops s := by
  induction ops generalizing s with
  | nil => rfl
  | cons o ops ih =>
      rw [Along, Along, ← hiff s o h]
      exact and_congr_right fun ho => ih (hstep s o h ho)

/-- Two conditions that agree wherever an invariant of the run holds. -/
theorem Along.congr {ok ok₁ ok₂ : σ → ι → Prop} {P : σ → Prop}
    (hstep : ∀ s o, P s → ok s o → P (step o s))
    (hiff : ∀ s o, P s → ok s o → (ok₁ s o ↔ ok₂ s o)) {ops : List ι} {s : σ}
    (hok : Along step ok ops s) (h : P s) : Along step ok₁ ops s ↔ Along step ok₂ ops s := by
  induction ops generalizing s with
  | nil => rfl
  | cons o ops ih =>
      rw [Along, Along, hiff s o h hok.1, ih hok.2 (hstep s o h hok.1)]

/-- A property of the states a run reaches, as a condition along it. -/
theorem along_step_iff {Q : σ → Prop} (ops : List ι) (s : σ) :
    Q s ∧ Along step (fun s o => Q (step o s)) ops s ↔
      ∀ pre, pre <+: ops → Q (exec step pre s) := by
  induction ops generalizing s with
  | nil => simp [Along]
  | cons o ops ih =>
      rw [Along, ih]
      constructor
      · rintro ⟨hs, hops⟩ pre hpre
        cases pre with
        | nil => exact hs
        | cons o' pre =>
            obtain ⟨rfl, htail⟩ := List.cons_prefix_cons.mp hpre
            exact hops pre htail
      · intro h
        refine ⟨h [] List.nil_prefix, fun pre hpre => h (o :: pre) ?_⟩
        exact List.cons_prefix_cons.mpr ⟨rfl, hpre⟩

/-- An invariant that every step keeps holds after every run. -/
theorem invariant {P : σ → Prop} (hstep : ∀ s o, P s → P (step o s)) (ops : List ι) {s : σ}
    (h : P s) : P (exec step ops s) :=
  Along.invariant (fun s o hs _ => hstep s o hs)
    ((along_input_iff ops s).mpr fun _ _ => trivial) h

/-- A property that a step keeps exactly when its input meets `ok`, and
never recovers, holds after a run exactly when the run met `ok` all along. -/
theorem exec_iff {ok : σ → ι → Prop} {P Q : σ → Prop} (hinv : ∀ s o, P s → P (step o s))
    (hstep : ∀ s o, P s → (Q (step o s) ↔ Q s ∧ ok s o)) (ops : List ι) {s : σ} (h : P s) :
    Q (exec step ops s) ↔ Q s ∧ Along step ok ops s := by
  induction ops generalizing s with
  | nil => simp [Along]
  | cons o ops ih => rw [exec_cons, ih (hinv s o h), hstep s o h, Along, and_assoc]

/-- A simulation: a relation that every step and its abstraction `f o` keep
holds between the ends of a run and of its abstraction. -/
theorem exec_simulates {κ : Type*} {R : σ → τ → Prop} (f : ι → κ) (astep : κ → τ → τ)
    (hstep : ∀ s t o, R s t → R (step o s) (astep (f o) t)) (ops : List ι) {s : σ} {t : τ}
    (h : R s t) : R (exec step ops s) (exec astep (ops.map f) t) := by
  induction ops generalizing s t with
  | nil => exact h
  | cons o ops ih => exact ih (hstep s t o h)

/-- Conditions that agree in related states agree along two machines that a
relation follows. -/
theorem along_related {astep : ι → τ → τ} {ok : σ → ι → Prop} {aok : τ → ι → Prop}
    {R : σ → τ → Prop} (hstep : ∀ s t o, R s t → R (step o s) (astep o t))
    (hiff : ∀ s t o, R s t → (ok s o ↔ aok t o)) (ops : List ι) {s : σ} {t : τ} (h : R s t) :
    Along step ok ops s ↔ Along astep aok ops t := by
  induction ops generalizing s t with
  | nil => rfl
  | cons o ops ih => rw [Along, Along, hiff s t o h, ih (hstep s t o h)]

/-! ## outputs -/

/-- What the inputs of a run put out, each in the state it finds. -/
def trace {ω : Type*} (step : ι → σ → σ) (out : σ → ι → ω) : List ι → σ → List ω
  | [], _ => []
  | o :: ops, s => out s o :: trace step out ops (step o s)

/-- Two machines put out the same if a relation between their states, kept
by the inputs that meet `ok`, makes them put out the same at every input. -/
theorem trace_eq {ω : Type*} {astep : ι → τ → τ} {out : σ → ι → ω} {aout : τ → ι → ω}
    {ok : τ → ι → Prop} {R : σ → τ → Prop}
    (hstep : ∀ s t o, R s t → ok t o → R (step o s) (astep o t))
    (hout : ∀ s t o, R s t → ok t o → out s o = aout t o) {ops : List ι} {s : σ} {t : τ}
    (hok : Along astep ok ops t) (h : R s t) : trace step out ops s = trace astep aout ops t := by
  induction ops generalizing s t with
  | nil => rfl
  | cons o ops ih =>
      rw [trace, trace, hout s t o h hok.1, ih hok.2 (hstep s t o h hok.1)]

end

end Run
