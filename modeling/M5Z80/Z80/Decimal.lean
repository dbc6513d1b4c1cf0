import Mathlib.Tactic.SplitIfs
import M5Z80.Bus
import M5Z80.Lib.Columns
import M5Z80.Z80.Arithmetic

/-!
# M5Z80.Z80.Decimal

`DAA` and decimal arithmetic.  The table of `Z80DAA.h` holds what the manual
says of `DAA`, and after an addition or a subtraction of packed decimals the
accumulator is the decimal digits of the result, with the carry that the next
column takes in.
-/

namespace M5Z80

/-! ## the table -/

/-- What `DAA` adds, or after a subtraction takes away. -/
def daaAdjust (b : Flags) (a : Nat) : Nat :=
  (if b.h ∨ 9 < a % 16 then 0x06 else 0) + (if b.c ∨ 0x99 < a then 0x60 else 0)

/-- The accumulator after `DAA`. -/
def daaResult (b : Flags) (a : Nat) : Nat :=
  (if b.n then a + 0x100 - daaAdjust b a else a + daaAdjust b a) % 0x100

/-- The flags after it. -/
def daaFlags (b : Flags) (a : Nat) : Flags where
  s := 0x80 ≤ daaResult b a
  z := daaResult b a = 0
  h := if b.n then b.h ∧ a % 16 < 6 else 9 < a % 16
  v := (List.range 8).countP (daaResult b a).testBit % 2 = 0
  n := b.n
  c := b.c ∨ 0x99 < a

/-- The entry of the table for an accumulator and flags. -/
def daaIndex (b : Flags) (a : Nat) : Nat :=
  a + (if b.c then 256 else 0) + (if b.h then 512 else 0) + (if b.n then 1024 else 0)

/-- The table is what the manual says, entry by entry. -/
theorem daaTable_spec (b : Flags) {a : Nat} (ha : a < 256) :
    (daaTable (daaIndex b a) >>> 8).toUInt8.toNat = daaResult b a ∧
      documented (daaTable (daaIndex b a)).toUInt8 = daaFlags b a := by
  have hall : ∀ n c h : Bool, (List.range 256).all (fun a =>
      let b : Flags := ⟨false, false, h, false, n, c⟩
      decide ((daaTable (daaIndex b a) >>> 8).toUInt8.toNat = daaResult b a ∧
        documented (daaTable (daaIndex b a)).toUInt8 = daaFlags b a)) = true := by
    decide +kernel
  exact of_decide_eq_true (List.all_eq_true.mp (hall b.n b.c b.h) a (List.mem_range.mpr ha))

/-- `DAA` is as documented, for every accumulator and all flags. -/
theorem mDaa_spec (R : RegFile) :
    (mDaa R).a.toNat = daaResult (documented R.f) R.a.toNat ∧
      documented (mDaa R).f = daaFlags (documented R.f) R.a.toNat := by
  have hentry := daaTable_spec (documented R.f) R.a.toNat_lt
  have hindex : R.a.toNat + (if R.f &&& cFlag ≠ 0 then 256 else 0) +
      (if R.f &&& hFlag ≠ 0 then 512 else 0) + (if R.f &&& nFlag ≠ 0 then 1024 else 0) =
        daaIndex (documented R.f) R.a.toNat := by
    simp only [daaIndex, documented, decide_eq_true_eq]
  rw [← hindex] at hentry
  exact hentry

/-! ## packed decimals -/

/-- Two decimal digits in a byte. -/
structure IsBcd (v : UInt8) : Prop where
  tens : v.toNat / 16 ≤ 9
  units : v.toNat % 16 ≤ 9

/-- The number they stand for. -/
def bcd (v : UInt8) : Nat := v.toNat / 16 * 10 + v.toNat % 16

/-- The carry flag as a number. -/
def RegFile.carry (R : RegFile) : Nat := (R.f &&& cFlag).toNat

/-- The carry of the flags as a number. -/
theorem RegFile.carry_eq (R : RegFile) : R.carry = if (documented R.f).c then 1 else 0 := by
  have hle := carry_le R.f
  simp only [documented, decide_eq_true_eq, carry, ne_eq, ← UInt8.toNat_inj, UInt8.toNat_ofNat]
  split <;> omega

/-- Decimal addition and subtraction, with the carry. -/
inductive DecimalOp
  | add
  | sub

namespace DecimalOp

/-- The instruction before `DAA`. -/
def byteOp : DecimalOp → ByteOp
  | add => .adc
  | sub => .sbc

/-- What the carry does. -/
def sign : DecimalOp → ℤ
  | add => 1
  | sub => -1

/-- `LD A,x`, `ADC A,y` or `SBC A,y`, and `DAA`. -/
def column (op : DecimalOp) (p : UInt8 × UInt8) (R : RegFile) : RegFile :=
  mDaa (op.byteOp.macroOf p.2 (R.setA p.1))

/-- The sum of two digit pairs and a carry, after `DAA`. -/
theorem daa_sum {x y c a r : Nat} {b : Flags} (hc : c ≤ 1) (hx : x / 16 ≤ 9 ∧ x % 16 ≤ 9)
    (hy : y / 16 ≤ 9 ∧ y % 16 ≤ 9) (hb : b = sumFlags 8 x y c)
    (ha : (a : Int) = ((x : Int) + y + c) % 256) (hr : r = daaResult b a) :
    (r / 16 ≤ 9 ∧ r % 16 ≤ 9) ∧ r / 16 * 10 + r % 16 +
      100 * (if (daaFlags b a).c then 1 else 0) =
        x / 16 * 10 + x % 16 + (y / 16 * 10 + y % 16 + c) := by
  subst hb
  simp only [daaResult, daaAdjust, sumFlags, daaFlags, Nat.reduceSub, Nat.reducePow,
    decide_eq_true_eq, Bool.false_eq_true, if_false] at hr ⊢
  split_ifs at hr ⊢ <;> omega

/-- The difference of two digit pairs and a borrow, after `DAA`. -/
theorem daa_difference {x y c a r : Nat} {b : Flags} (hc : c ≤ 1) (hx : x / 16 ≤ 9 ∧ x % 16 ≤ 9)
    (hy : y / 16 ≤ 9 ∧ y % 16 ≤ 9) (hb : b = differenceFlags 8 x y c)
    (ha : (a : Int) = ((x : Int) - y - c) % 256) (hr : r = daaResult b a) :
    (r / 16 ≤ 9 ∧ r % 16 ≤ 9) ∧ r / 16 * 10 + r % 16 + (y / 16 * 10 + y % 16 + c) =
      x / 16 * 10 + x % 16 + 100 * (if (daaFlags b a).c then 1 else 0) := by
  subst hb
  simp only [daaResult, daaAdjust, differenceFlags, daaFlags, Nat.reduceSub, Nat.reducePow,
    decide_eq_true_eq, if_true] at hr ⊢
  split_ifs at hr ⊢ <;> omega

/-- A column of packed decimals. -/
theorem column_spec (op : DecimalOp) (p : UInt8 × UInt8) (hp : IsBcd p.1 ∧ IsBcd p.2)
    (R : RegFile) : IsBcd (op.column p R).a ∧
      (bcd (op.column p R).a : ℤ) + op.sign * (100 * (op.column p R).carry) =
        bcd p.1 + op.sign * (bcd p.2 + R.carry) := by
  obtain ⟨⟨hx, hx'⟩, ⟨hy, hy'⟩⟩ := hp
  have hc : R.carry ≤ 1 := carry_le R.f
  -- the low digit of a packed decimal leaves room for the carry
  have hmatches : op.byteOp.Matches p.2 (R.setA p.1) :=
    (ByteOp.matches_iff ..).mpr fun h => absurd h.2 (by omega)
  obtain ⟨hr, hf⟩ := mDaa_spec (op.byteOp.macroOf p.2 (R.setA p.1))
  obtain ⟨hresult, hflags⟩ := hmatches
  rw [RegFile.a_setA, RegFile.f_setA] at hresult hflags
  rw [(op.column p R).carry_eq, column, hf]
  cases op with
  | add =>
      obtain ⟨hbcd, hvalue⟩ := daa_sum hc ⟨hx, hx'⟩ ⟨hy, hy'⟩ hflags hresult hr
      refine ⟨⟨hbcd.1, hbcd.2⟩, ?_⟩
      zify at hvalue
      simp only [bcd, sign]
      push_cast
      linear_combination hvalue
  | sub =>
      obtain ⟨hbcd, hvalue⟩ := daa_difference hc ⟨hx, hx'⟩ ⟨hy, hy'⟩ hflags hresult hr
      refine ⟨⟨hbcd.1, hbcd.2⟩, ?_⟩
      zify at hvalue
      simp only [bcd, sign]
      push_cast
      linear_combination hvalue

/-- The digits that a number of columns gives, and the registers after the last. -/
def columns (op : DecimalOp) (ps : List (UInt8 × UInt8)) (R : RegFile) : List UInt8 × RegFile :=
  Columns.run op.column RegFile.a ps R

/-- Decimal arithmetic on numbers of any length: every byte of the result is a packed
decimal, and with the carry it is the sum or the difference. -/
theorem columns_spec (op : DecimalOp) {ps : List (UInt8 × UInt8)}
    (hps : ∀ p ∈ ps, IsBcd p.1 ∧ IsBcd p.2) (R : RegFile) :
    (∀ v ∈ (op.columns ps R).1, IsBcd v) ∧
      Nat.ofDigits (100 : ℤ) ((op.columns ps R).1.map bcd) +
          op.sign * (100 ^ ps.length * (op.columns ps R).2.carry) =
        Nat.ofDigits (100 : ℤ) (ps.map fun p => bcd p.1) +
          op.sign * (Nat.ofDigits (100 : ℤ) (ps.map fun p => bcd p.2) + R.carry) :=
  ⟨Columns.forall_run (fun p hp R => (op.column_spec p hp R).1) hps R,
    Columns.run_value (fun p hp R => (op.column_spec p hp R).2) hps R⟩

/-- 1995 and 2998. -/
theorem columns_spec_twoBytes :
    (∀ v ∈ (add.columns [(0x95, 0x98), (0x19, 0x29)] Z80Regs.zero.toRegFile).1, IsBcd v) ∧
      Nat.ofDigits (100 : ℤ)
          ((add.columns [(0x95, 0x98), (0x19, 0x29)] Z80Regs.zero.toRegFile).1.map bcd) +
          add.sign * (100 ^ 2 *
            (add.columns [(0x95, 0x98), (0x19, 0x29)] Z80Regs.zero.toRegFile).2.carry) =
        Nat.ofDigits (100 : ℤ) [95, 19] +
          add.sign * (Nat.ofDigits (100 : ℤ) [98, 29] + Z80Regs.zero.toRegFile.carry) := by
  have hps : ∀ p ∈ [((0x95 : UInt8), (0x98 : UInt8)), (0x19, 0x29)], IsBcd p.1 ∧ IsBcd p.2 := by
    simp only [List.forall_mem_cons, List.not_mem_nil]
    exact ⟨⟨⟨by decide, by decide⟩, ⟨by decide, by decide⟩⟩,
      ⟨⟨by decide, by decide⟩, ⟨by decide, by decide⟩⟩, fun _ h => h.elim⟩
  exact columns_spec add hps _

end DecimalOp

end M5Z80
