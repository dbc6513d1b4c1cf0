import Mathlib.Algebra.Ring.Int.Defs
import Mathlib.Algebra.Ring.Nat

/-!
# M5Z80.Lib.Carry

Carries, borrows and overflow, as bits of a sum or a difference and of its
terms show them, and as the values of the terms decide them.
-/

namespace Carry

/-! ## carries -/

/-- A sum overflows exactly if it is less than one of its parts. -/
theorem le_add_iff {r s n : Nat} (hr : r < n) (hs : s < n) : n ≤ r + s ↔ (r + s) % n < s := by
  by_cases hsum : r + s < n
  · rw [Nat.mod_eq_of_lt hsum]
    omega
  · rw [Nat.mod_eq_sub_mod (Nat.le_of_not_lt hsum), Nat.mod_eq_of_lt (by omega)]
    omega

/-- The exclusive or of a sum and its terms shows the carry into each bit,
and the low bits of the sum have then passed those of a term. -/
theorem getLsbD_xor_add {w : Nat} (x y : BitVec w) {i : Nat} (hi : i < w) :
    (x ^^^ (x + y) ^^^ y).getLsbD i = decide ((x + y).toNat % 2 ^ i < y.toNat % 2 ^ i) := by
  have hcarry : (x ^^^ (x + y) ^^^ y).getLsbD i = BitVec.carry i x y false := by
    rw [BitVec.getLsbD_xor, BitVec.getLsbD_xor, BitVec.getLsbD_add hi]
    cases x.getLsbD i <;> cases y.getLsbD i <;> simp
  have hdvd : 2 ^ i ∣ 2 ^ w := Nat.pow_dvd_pow 2 (Nat.le_of_lt hi)
  have hpos : 0 < 2 ^ i := Nat.two_pow_pos i
  rw [hcarry, BitVec.carry, BitVec.toNat_add, Nat.mod_mod_of_dvd _ hdvd, Nat.add_mod,
    Bool.toNat_false, Nat.add_zero]
  exact decide_eq_decide.mpr (le_add_iff (Nat.mod_lt _ hpos) (Nat.mod_lt _ hpos))

/-- The exclusive or of a difference and its terms shows the borrows. -/
theorem getLsbD_xor_sub {w : Nat} (x y : BitVec w) {i : Nat} (hi : i < w) :
    (x ^^^ (x - y) ^^^ y).getLsbD i = decide (x.toNat % 2 ^ i < y.toNat % 2 ^ i) := by
  have h := getLsbD_xor_add (x - y) y hi
  rw [BitVec.sub_add_cancel, BitVec.xor_comm (x - y)] at h
  exact h

/-! ## overflow -/

/-- The value of `x` as a two's complement number below `h` and from `-h` on. -/
def signed (h x : Nat) : Int := if x < h then x else x - 2 * h

/-- Such numbers leave out `z`. -/
def Overflows (h : Nat) (z : Int) : Prop := z < -h ∨ h ≤ z

instance (h : Nat) (z : Int) : Decidable (Overflows h z) := inferInstanceAs (Decidable (_ ∨ _))

section

variable {h a b c q : Nat}

/-- A sum overflows when its terms have the same sign and it has the other
one. -/
theorem overflows_add_iff (ha : a < 2 * h) (hb : b < 2 * h) (hc : c ≤ 1) (hq : q < 2 * h)
    (hsum : q = a + b + c ∨ q + 2 * h = a + b + c) :
    Overflows h (signed h a + signed h b + c) ↔ (b < h ↔ a < h) ∧ ¬ (b < h ↔ q < h) := by
  simp only [Overflows, signed]
  split <;> split <;> omega

/-- A difference overflows when its terms have different signs and it has
that of the second one. -/
theorem overflows_sub_iff (ha : a < 2 * h) (hb : b < 2 * h) (hc : c ≤ 1) (hq : q < 2 * h)
    (hsum : q + b + c = a ∨ q + b + c = a + 2 * h) :
    Overflows h (signed h a - signed h b - c) ↔ ¬ (b < h ↔ a < h) ∧ (b < h ↔ q < h) := by
  simp only [Overflows, signed]
  split <;> split <;> omega

end

end Carry
