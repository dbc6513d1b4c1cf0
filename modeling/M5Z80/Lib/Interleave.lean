import Mathlib.Logic.Function.Basic
import Mathlib.Data.List.Basic

/-!
# M5Z80.Lib.Interleave

Inputs to several machines in one order.  A step that may fail changes the
machine its input is for; whatever the order, each machine ends where its
own inputs take it.
-/

namespace Interleave

variable {ι σ α : Type*} [DecidableEq ι]

/-- The inputs of machine `i`, in order. -/
def inputs (i : ι) (l : List (ι × α)) : List α := (l.filter fun p => p.1 = i).map Prod.snd

/-- No inputs. -/
@[simp] theorem inputs_nil (i : ι) : inputs i ([] : List (ι × α)) = [] := rfl

/-- An input of the source itself. -/
theorem inputs_cons_self (i : ι) (a : α) (l : List (ι × α)) :
    inputs i ((i, a) :: l) = a :: inputs i l := by simp [inputs]

/-- An input of another source. -/
theorem inputs_cons_of_ne {i j : ι} (h : j ≠ i) (a : α) (l : List (ι × α)) :
    inputs i ((j, a) :: l) = inputs i l := by simp [inputs, h]

/-- An input of the whole is one of its source. -/
theorem mem_inputs {p : ι × α} {l : List (ι × α)} (h : p ∈ l) : p.2 ∈ inputs p.1 l :=
  List.mem_map.mpr ⟨p, List.mem_filter.mpr ⟨h, decide_eq_true rfl⟩, rfl⟩

variable (step : α → σ → Option σ)

/-- A run of one machine. -/
def run : List α → σ → Option σ
  | [], s => some s
  | a :: l, s => (step a s).bind (run l)

/-- A step of the machine that the input is for. -/
def stepAt (p : ι × α) (f : ι → σ) : Option (ι → σ) :=
  (step p.2 (f p.1)).map (Function.update f p.1)

/-- A run of all machines. -/
def runAll : List (ι × α) → (ι → σ) → Option (ι → σ)
  | [], f => some f
  | p :: l, f => (stepAt step p f).bind (runAll l)

/-- Inputs in two lists. -/
theorem run_append (l l' : List α) (s : σ) :
    run step (l ++ l') s = (run step l s).bind (run step l') := by
  induction l generalizing s with
  | nil => rfl
  | cons a l ih =>
      rw [List.cons_append, run, run, Option.bind_assoc]
      exact congrArg _ (funext ih)

/-- A list of blocks, each of which takes a state that is `ok` to another. -/
theorem run_flatMap {β : Type*} {enc : β → List α} {f : σ → β → σ} {ok : σ → Prop}
    {good : β → Prop} (h : ∀ b s, good b → ok s → run step (enc b) s = some (f s b) ∧ ok (f s b))
    {l : List β} (hl : ∀ b ∈ l, good b) {s : σ} (hs : ok s) :
    run step (l.flatMap enc) s = some (l.foldl f s) ∧ ok (l.foldl f s) := by
  induction l generalizing s with
  | nil => exact ⟨rfl, hs⟩
  | cons b l ih =>
      obtain ⟨hb, hrest⟩ := List.forall_mem_cons.mp hl
      obtain ⟨hrun, hok⟩ := h b s hb hs
      rw [List.flatMap_cons, run_append, hrun]
      exact ih hrest hok

/-- The machines do not disturb each other. -/
theorem runAll_eq_some_iff (l : List (ι × α)) (f g : ι → σ) :
    runAll step l f = some g ↔ ∀ i, run step (inputs i l) (f i) = some (g i) := by
  induction l generalizing f with
  | nil =>
      rw [runAll, Option.some_inj]
      constructor
      · rintro rfl i
        rfl
      · intro h
        exact funext fun i => Option.some.inj (h i)
  | cons p l ih =>
      obtain ⟨j, a⟩ := p
      rw [runAll, stepAt]
      cases hstep : step a (f j) with
      | none =>
          refine iff_of_false (Option.some_ne_none g ∘ Eq.symm) fun h => ?_
          have hj := h j
          rw [inputs_cons_self, run, hstep] at hj
          cases hj
      | some s =>
          rw [Option.map_some, Option.bind_some, ih]
          refine forall_congr' fun i => ?_
          by_cases hij : j = i
          · subst hij
            rw [inputs_cons_self, run, hstep, Function.update_self, Option.bind_some]
          · rw [inputs_cons_of_ne hij, Function.update_of_ne (Ne.symm hij)]

end Interleave
