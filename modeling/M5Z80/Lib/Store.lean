import M5Z80.Lib.Run
import Mathlib.Logic.Function.Basic

/-!
# M5Z80.Lib.Store

Stores as functions from cells to values, and address spaces that show
cells of several stores through switchable banks.  A `Banking` says which
cell an address shows in each configuration; runs of bank switches, writes
and reads keep exactly the cells that were not written, whatever was
switched in between.
-/

namespace Store

/-! ## logs of writes -/

section

variable {κ β : Type*} [DecidableEq κ]

/-- The store after a log of writes, the oldest first. -/
def replay (log : List (κ × β)) (s : κ → β) : κ → β :=
  log.foldl (fun s e => Function.update s e.1 e.2) s

/-- The value of the last write to `c`. -/
def lastTo (c : κ) : List (κ × β) → Option β
  | [] => none
  | e :: log => (lastTo c log).or (if e.1 = c then some e.2 else none)

/-- A store holds what was written last, or what it held at first. -/
theorem replay_apply (log : List (κ × β)) (s : κ → β) (c : κ) :
    replay log s c = (lastTo c log).getD (s c) := by
  induction log generalizing s with
  | nil => rfl
  | cons e log ih =>
      rw [replay, List.foldl_cons, ← replay, ih, lastTo]
      cases lastTo c log with
      | some v => rfl
      | none =>
          by_cases h : e.1 = c
          · subst h; simp
          · simp [h, Function.update_of_ne (Ne.symm h)]

/-- Nothing was written where the log has no entry. -/
theorem lastTo_eq_none {c : κ} {log : List (κ × β)} (h : ∀ e ∈ log, e.1 ≠ c) :
    lastTo c log = none := by
  induction log with
  | nil => rfl
  | cons e log ih =>
      rw [lastTo, ih fun e' he' => h e' (List.mem_cons_of_mem _ he'),
        if_neg (h e List.mem_cons_self)]
      rfl

end

/-! ## banked address spaces -/

/-- A banked address space: in configuration `g`, address `a` shows the
cell `decode g a`, or none; some cells take no writes; a command changes
the configuration. -/
structure Banking (γ ι α κ : Type*) where
  decode : γ → α → Option κ
  writable : κ → Bool
  switch : ι → γ → γ

/-- What is done to a banked address space. -/
inductive Op (ι α β : Type*)
  | switch (i : ι)
  | write (a : α) (v : β)
  | read (a : α)

namespace Banking

variable {γ ι α κ β : Type*} (B : Banking γ ι α κ)

/-- The cell a write reaches. -/
def target (g : γ) (a : α) : Option κ := (B.decode g a).filter B.writable

/-- The configuration after some operations. -/
def config : List (Op ι α β) → γ → γ
  | [], g => g
  | .switch i :: ops, g => config ops (B.switch i g)
  | .write _ _ :: ops, g => config ops g
  | .read _ :: ops, g => config ops g

/-- The writes that reach a cell. -/
def log : List (Op ι α β) → γ → List (κ × β)
  | [], _ => []
  | .switch i :: ops, g => log ops (B.switch i g)
  | .write a v :: ops, g => ((B.target g a).map (·, v)).toList ++ log ops g
  | .read _ :: ops, g => log ops g

variable [DecidableEq κ]

/-- One operation on a configuration and the cells. -/
def step : Op ι α β → γ × (κ → β) → γ × (κ → β)
  | .switch i, (g, s) => (B.switch i g, s)
  | .write a v, (g, s) => (g, ((B.target g a).map fun c => Function.update s c v).getD s)
  | .read _, (g, s) => (g, s)

/-- A run ends in the configuration its commands make, and its cells hold
what the log says. -/
theorem exec_step (ops : List (Op ι α β)) (g : γ) (s : κ → β) :
    Run.exec B.step ops (g, s) = (B.config ops g, replay (B.log ops g) s) := by
  induction ops generalizing g s with
  | nil => rfl
  | cons o ops ih =>
      rw [Run.exec_cons]
      cases o with
      | switch i => exact ih _ _
      | read a => exact ih _ _
      | write a v =>
          rw [step, ih, config, log]
          cases B.target g a with
          | none => rfl
          | some c => rfl

omit [DecidableEq κ] in
/-- A cell that takes no writes is in no log. -/
theorem log_writable {ops : List (Op ι α β)} {g : γ} {e : κ × β} (h : e ∈ B.log ops g) :
    B.writable e.1 = true := by
  induction ops generalizing g with
  | nil => cases h
  | cons o ops ih =>
      cases o with
      | switch i => exact ih h
      | read a => exact ih h
      | write a v =>
          rw [log, List.mem_append] at h
          cases h with
          | inr h => exact ih h
          | inl h =>
              rw [Option.mem_toList, Option.map_eq_some_iff] at h
              obtain ⟨c, hc, rfl⟩ := h
              exact (Option.mem_filter_iff.mp hc).2

/-- A cell that takes no writes keeps its value. -/
theorem replay_log_of_not_writable (ops : List (Op ι α β)) (g : γ) (s : κ → β) {c : κ}
    (h : B.writable c = false) : replay (B.log ops g) s c = s c := by
  have hnone : lastTo c (B.log ops g) = none := by
    apply lastTo_eq_none
    intro e he hec
    have := B.log_writable he
    rw [hec, h] at this
    exact absurd this Bool.false_ne_true
  rw [replay_apply, hnone]
  rfl

end Banking

end Store
