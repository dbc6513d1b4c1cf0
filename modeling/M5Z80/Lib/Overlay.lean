import Mathlib.Data.List.Basic

/-!
# M5Z80.Lib.Overlay

Blocks of cells placed in a memory one after the other, where a later one
hides what it covers of the earlier ones: a cell is that of the last block
that covers it.
-/

namespace Overlay

variable {α : Type*}

/-- A block of cells: where it starts, and what it holds. -/
structure Block (α : Type*) where
  start : Nat
  cells : List α

/-- The cell of a block at address `i`, if the block covers it. -/
def Block.cell (b : Block α) (i : Nat) : Option α :=
  if b.start ≤ i then b.cells[i - b.start]? else none

/-- The memory with a block in it. -/
def place (mem : Nat → α) (b : Block α) : Nat → α := fun i => (b.cell i).getD (mem i)

/-- The cell of the last block that covers address `i`. -/
def topCell (bs : List (Block α)) (i : Nat) : Option α := bs.reverse.findSome? fun b => b.cell i

/-- Nothing lies over an empty stack of blocks. -/
@[simp] theorem topCell_nil (i : Nat) : topCell ([] : List (Block α)) i = none := rfl

/-- A block is hidden by those behind it. -/
theorem topCell_cons (b : Block α) (bs : List (Block α)) (i : Nat) :
    topCell (b :: bs) i = (topCell bs i).or (b.cell i) := by
  rw [topCell, List.reverse_cons, List.findSome?_append, List.findSome?_singleton]
  rfl

/-- Placing blocks one after the other leaves the topmost cells. -/
theorem foldl_place (bs : List (Block α)) (mem : Nat → α) (i : Nat) :
    bs.foldl place mem i = (topCell bs i).getD (mem i) := by
  induction bs generalizing mem with
  | nil => rfl
  | cons b bs ih =>
      rw [List.foldl_cons, ih, topCell_cons]
      cases topCell bs i with
      | none => rfl
      | some x => rfl

/-- A block covers the addresses from its start on, one for each cell. -/
theorem Block.cell_eq_none_iff (b : Block α) (i : Nat) :
    b.cell i = none ↔ ¬ (b.start ≤ i ∧ i < b.start + b.cells.length) := by
  rw [cell]
  split
  · rw [List.getElem?_eq_none_iff]
    omega
  · next h => exact iff_of_true rfl fun hcovers => h hcovers.1

/-- An address that no block covers. -/
theorem topCell_eq_none {bs : List (Block α)} {i : Nat} (h : ∀ b ∈ bs, b.cell i = none) :
    topCell bs i = none := by
  induction bs with
  | nil => exact topCell_nil i
  | cons b bs ih =>
      rw [topCell_cons, ih fun b' hb' => h b' (List.mem_cons_of_mem b hb'),
        h b List.mem_cons_self]
      rfl

end Overlay
