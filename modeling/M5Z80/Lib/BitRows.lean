import Mathlib.Data.Set.Basic
import Mathlib.Logic.Function.Basic

/-!
# M5Z80.Lib.BitRows

Rows of bits that are active low: a position belongs to the set that the rows
hold when its bit is clear.  Masking a row adds positions to this set or takes
them away.
-/

namespace BitRows

variable {ι : Type*} {w : Nat}

/-- The positions with a clear bit. -/
def low (rows : ι → BitVec w) : Set (ι × Fin w) := {p | (rows p.1)[p.2] = false}

/-- The positions of row `i` that a mask has. -/
def marked (i : ι) (mask : BitVec w) : Set (ι × Fin w) := {p | p.1 = i ∧ mask[p.2] = true}

theorem mem_low {rows : ι → BitVec w} {p : ι × Fin w} :
    p ∈ low rows ↔ (rows p.1)[p.2] = false := Iff.rfl

theorem mem_marked {i : ι} {mask : BitVec w} {p : ι × Fin w} :
    p ∈ marked i mask ↔ p.1 = i ∧ mask[p.2] = true := Iff.rfl

/-- Rows of set bits hold nothing. -/
theorem low_allOnes : low (fun _ : ι => BitVec.allOnes w) = ∅ := by
  ext p
  simp [mem_low]

variable [DecidableEq ι]

/-- To clear the bits of a mask adds its positions. -/
theorem low_update_and_not (rows : ι → BitVec w) (i : ι) (mask : BitVec w) :
    low (Function.update rows i (rows i &&& ~~~mask)) = low rows ∪ marked i mask := by
  ext ⟨j, b⟩
  by_cases h : j = i
  · subst h
    simp [mem_low, mem_marked]
    grind
  · simp [mem_low, mem_marked, h]

/-- To set the bits of a mask takes its positions away. -/
theorem low_update_or (rows : ι → BitVec w) (i : ι) (mask : BitVec w) :
    low (Function.update rows i (rows i ||| mask)) = low rows \ marked i mask := by
  ext ⟨j, b⟩
  by_cases h : j = i
  · subst h
    simp [mem_low, mem_marked]
  · simp [mem_low, mem_marked, h]

end BitRows
