import Mathlib.Algebra.Ring.Int.Defs
import Mathlib.Algebra.Ring.Nat

/-!
# M5Z80.Lib.Counter

Counters that count up, and are looked at only by how far one of them is
ahead of another.  A 32-bit counter that wraps is as good as an unbounded
one as long as the distances stay below `2^31`.
-/

/-- A type of counters. -/
class Counter (κ : Type) where
  /-- The counter, `n` steps on. -/
  advance : κ → Nat → κ
  /-- Is the first counter `n` steps or more ahead of the second? -/
  elapsed : Nat → κ → κ → Bool

namespace Counter

/-- Counters that wrap. -/
instance : Counter Int32 where
  advance x n := x + Int32.ofNat n
  elapsed n x y := Int32.ofNat n ≤ x - y

/-- Counters that do not. -/
instance : Counter Int where
  advance x n := x + n
  elapsed n x y := n ≤ x - y

/-- Wrapping commutes with counting. -/
theorem ofInt_advance (z : Int) (n : Nat) :
    Int32.ofInt (advance z n) = advance (Int32.ofInt z) n := by
  change Int32.ofInt (z + n) = Int32.ofInt z + Int32.ofNat n
  rw [Int32.ofInt_add, Int32.ofInt_eq_ofNat]

/-- A distance below `2^31` survives the wrap. -/
theorem elapsed_ofInt {x y : Int} {n : Nat} (hn : n < 2 ^ 31) (h : 0 ≤ x - y)
    (hlt : x - y < 2 ^ 31) : elapsed n (Int32.ofInt x) (Int32.ofInt y) = elapsed n x y := by
  refine decide_eq_decide.mpr ?_
  rw [← Int32.ofInt_sub, Int32.le_iff_toInt_le, Int32.toInt_ofNat_of_lt hn,
    Int32.toInt_ofInt_of_le (by omega) hlt]

end Counter
