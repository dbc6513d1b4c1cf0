import M5Z80.KeyUses
import M5Z80.Lib.BitRows
import Mathlib.Data.Set.Disjoint
import Mathlib.Order.BooleanAlgebra.Set

/-!
# M5Z80.Pressed

The keys that are down: the positions of the matrix, row and bit, whose bit
in `keyports` is clear.  `mz_keydown_sub` adds the position of a code and
`mz_keyup_sub` takes it away, whatever the code.
-/

namespace M5Z80

/-- A position of the matrix: its row and its bit. -/
abbrev Position := Fin 10 × Fin 8

/-- The position that a code stands for, if it has one. -/
def positions (code : UInt8) : Set Position := {p | code.toNat = 16 * p.1.val + p.2.val}

/-- The position of a code is its row and its bit. -/
theorem mem_positions {code : UInt8} {p : Position} :
    p ∈ positions code ↔ code.toNat = 16 * p.1.val + p.2.val := Iff.rfl

/-- A position is the one of a single code. -/
theorem code_eq_of_mem_positions {code code' : UInt8} {p : Position} (h : p ∈ positions code)
    (h' : p ∈ positions code') : code = code' := by
  rw [mem_positions] at h h'
  exact UInt8.toNat_inj.mp (h.trans h'.symm)

/-! ## bits of a row -/

theorem toNat_shiftRight_four (code : UInt8) : (code >>> 4).toNat = code.toNat / 16 := by
  rw [UInt8.toNat_shiftRight]
  exact Nat.shiftRight_eq_div_pow code.toNat 4

/-- `1 << b` has the bit `b` alone. -/
theorem getElem_keyBit (code : UInt8) (b : Fin 8) :
    (keyBit code).toBitVec[b] = decide (code.toNat % 16 = b) := by
  have hand : ∀ n : Nat, n &&& 15 = n % 16 := fun n => Nat.and_two_pow_sub_one_eq_mod n 4
  have hlt : code.toNat % 16 < 16 := Nat.mod_lt _ (by decide)
  simp [keyBit, hand]
  grind

/-- The bit of a code in the row of the code is its position. -/
theorem marked_keyBit (code : UInt8) (h : (code >>> 4).toNat < 10) :
    BitRows.marked ⟨_, h⟩ (keyBit code).toBitVec = positions code := by
  ext ⟨row, b⟩
  have hrow := toNat_shiftRight_four code
  have hb : b.val < 8 := b.isLt
  rw [BitRows.mem_marked, mem_positions, getElem_keyBit, decide_eq_true_eq, Fin.ext_iff]
  dsimp only
  omega

namespace KeyMatrix

/-- The rows of the matrix. -/
def rows (k : KeyMatrix) : Fin 10 → BitVec 8 := UInt8.toBitVec ∘ k.machine.keyports

/-- The keys that are down. -/
def pressed (k : KeyMatrix) : Set Position := BitRows.low k.rows

/-- A key in a row that exists changes this row. -/
theorem rows_setKeyport {code : UInt8} (h : (code >>> 4).toNat < 10) (f : UInt8 → UInt8)
    (k : KeyMatrix) :
    (k.setKeyport code f).rows =
      Function.update k.rows ⟨_, h⟩ (f (k.machine.keyports ⟨_, h⟩)).toBitVec := by
  rw [setKeyport]
  dsimp only
  rw [dif_pos h]
  exact Function.comp_update UInt8.toBitVec _ _ _

/-- A key in no row changes none. -/
theorem rows_setKeyport_of_row {code : UInt8} (h : ¬ (code >>> 4).toNat < 10)
    (f : UInt8 → UInt8) (k : KeyMatrix) : (k.setKeyport code f).rows = k.rows := by
  rw [setKeyport]
  dsimp only
  rw [dif_neg h]
  rfl

/-- A code whose row is not in the matrix has no position. -/
theorem positions_of_row {code : UInt8} (h : ¬ (code >>> 4).toNat < 10) : positions code = ∅ := by
  rw [Set.eq_empty_iff_forall_notMem]
  intro p hp
  rw [mem_positions] at hp
  have hrow := toNat_shiftRight_four code
  omega

/-- A key goes down. -/
@[simp] theorem pressed_mzKeydownSub (code : UInt8) (k : KeyMatrix) :
    (k.mzKeydownSub code).pressed = k.pressed ∪ positions code := by
  rw [mzKeydownSub, pressed, pressed]
  by_cases h : (code >>> 4).toNat < 10
  · rw [rows_setKeyport h, ← marked_keyBit code h, ← BitRows.low_update_and_not]
    simp [rows]
  · rw [rows_setKeyport_of_row h, positions_of_row h, Set.union_empty]

/-- A key goes up. -/
@[simp] theorem pressed_mzKeyupSub (code : UInt8) (k : KeyMatrix) :
    (k.mzKeyupSub code).pressed = k.pressed \ positions code := by
  rw [mzKeyupSub, pressed, pressed]
  by_cases h : (code >>> 4).toNat < 10
  · rw [rows_setKeyport h, ← marked_keyBit code h, ← BitRows.low_update_or]
    simp [rows]
  · rw [rows_setKeyport_of_row h, positions_of_row h, Set.sdiff_empty]

end KeyMatrix

namespace KeyInput

/-- A key that goes down is among those pressed. -/
@[simp] theorem pressed_keydown (code : UInt8) (s : KeyInput) :
    (s.keydown code).pressed = s.pressed ∪ positions code :=
  KeyMatrix.pressed_mzKeydownSub code s.toKeyMatrix

/-- A key that goes up is not. -/
@[simp] theorem pressed_keyup (code : UInt8) (s : KeyInput) :
    (s.keyup code).pressed = s.pressed \ positions code :=
  KeyMatrix.pressed_mzKeyupSub code s.toKeyMatrix

end KeyInput

end M5Z80
