import Mathlib.Data.Nat.Bitwise
import M5Z80.Lib.Carry
import M5Z80.Z80.Alu

/-!
# M5Z80.Z80.Arithmetic

The additions and subtractions against those of the Z80, with the flags that
its manual documents.  `ADC` and `SBC` add the carry to the operand before
they look at the bits of the terms, and so lose the half-carry, and at the
sign boundary the overflow, where that sum leaves the low digits.
-/

namespace M5Z80

/-! ## accumulator and flags -/

namespace Pair

@[simp] theorem bl_setBl (p : Pair) (v : UInt8) : (p.setBl v).bl = v := by
  refine UInt8.toBitVec_inj.mp (BitVec.eq_of_getLsbD_eq fun i hi => ?_)
  simp [bl, setBl]

@[simp] theorem bh_setBl (p : Pair) (v : UInt8) : (p.setBl v).bh = p.bh := by
  have hmask : ∀ i < 8, (0xFF00#16).getLsbD (8 + i) = true := by decide
  refine UInt8.toBitVec_inj.mp (BitVec.eq_of_getLsbD_eq fun i hi => ?_)
  simp [bh, setBl, hmask i hi]

@[simp] theorem bh_setBh (p : Pair) (v : UInt8) : (p.setBh v).bh = v := by
  have hmask : ∀ i, ∀ hi : i < 8, (0x00FF#16)[8 + i] = false := by decide
  refine UInt8.toBitVec_inj.mp (BitVec.eq_of_getLsbD_eq fun i hi => ?_)
  have hin : i < 16 ∧ 8 + i < 16 ∧ ¬ 8 + i < 8 := by omega
  simp [bh, setBh, hmask i hi, hin, hi]

@[simp] theorem bl_setBh (p : Pair) (v : UInt8) : (p.setBh v).bl = p.bl := by
  have hmask : ∀ i, ∀ hi : i < 8, (0xFF#8)[i] = true := by decide
  refine UInt8.toBitVec_inj.mp (BitVec.eq_of_getLsbD_eq fun i hi => ?_)
  simp [bl, setBh, hmask i hi, hi]

end Pair
namespace RegFile

@[simp] theorem a_setA (v : UInt8) (R : RegFile) : (R.setA v).a = v := Pair.bh_setBh R.af v

@[simp] theorem f_setA (v : UInt8) (R : RegFile) : (R.setA v).f = R.f := Pair.bl_setBh R.af v

@[simp] theorem a_setF (v : UInt8) (R : RegFile) : (R.setF v).a = R.a := Pair.bh_setBl R.af v

@[simp] theorem f_setF (v : UInt8) (R : RegFile) : (R.setF v).f = v := Pair.bl_setBl R.af v

end RegFile

/-! ## what the Z80 does -/

/-- The documented flags. -/
structure Flags where
  s : Bool
  z : Bool
  h : Bool
  v : Bool
  n : Bool
  c : Bool
deriving DecidableEq

/-- The documented flags of the flag register. -/
def documented (f : UInt8) : Flags where
  s := f &&& sFlag ≠ 0
  z := f &&& zFlag ≠ 0
  h := f &&& hFlag ≠ 0
  v := f &&& vFlag ≠ 0
  n := f &&& nFlag ≠ 0
  c := f &&& cFlag ≠ 0

/-- The flags of `a + b + c` in `w` bits; the half-carry goes into the top
four of them. -/
def sumFlags (w a b c : Nat) : Flags where
  s := 2 ^ (w - 1) ≤ (a + b + c) % 2 ^ w
  z := (a + b + c) % 2 ^ w = 0
  h := 2 ^ (w - 4) ≤ a % 2 ^ (w - 4) + b % 2 ^ (w - 4) + c
  v := Carry.Overflows (2 ^ (w - 1))
    (Carry.signed (2 ^ (w - 1)) a + Carry.signed (2 ^ (w - 1)) b + c)
  n := false
  c := 2 ^ w ≤ a + b + c

/-- The flags of `a - b - c` in `w` bits. -/
def differenceFlags (w a b c : Nat) : Flags where
  s := 2 ^ (w - 1) ≤ ((a : Int) - b - c) % 2 ^ w
  z := ((a : Int) - b - c) % 2 ^ w = 0
  h := a % 2 ^ (w - 4) < b % 2 ^ (w - 4) + c
  v := Carry.Overflows (2 ^ (w - 1))
    (Carry.signed (2 ^ (w - 1)) a - Carry.signed (2 ^ (w - 1)) b - c)
  n := true
  c := a < b + c

/-- A flag register with these flags. -/
def flagByte (b : Flags) : UInt8 :=
  (if b.z then zFlag else 0) ||| (if b.s then sFlag else 0) ||| (if b.c then cFlag else 0) |||
    (if b.n then nFlag else 0) ||| (if b.h then hFlag else 0) ||| (if b.v then vFlag else 0)

/-- The documented flags are written into their bits. -/
theorem documented_flagByte (b : Flags) : documented (flagByte b) = b := by
  obtain ⟨s, z, h, v, n, c⟩ := b
  cases s <;> cases z <;> cases h <;> cases v <;> cases n <;> cases c <;> rfl

/-- Flags of two bytes or of one: the documented ones are those of either. -/
theorem documented_or (x y : UInt8) : documented (x ||| y) =
    { s := (documented x).s || (documented y).s
      z := (documented x).z || (documented y).z
      h := (documented x).h || (documented y).h
      v := (documented x).v || (documented y).v
      n := (documented x).n || (documented y).n
      c := (documented x).c || (documented y).c } := by
  have hor (m : UInt8) : decide ((x ||| y) &&& m ≠ 0) =
      (decide (x &&& m ≠ 0) || decide (y &&& m ≠ 0)) := by
    have hand : (x ||| y) &&& m = (x &&& m) ||| (y &&& m) := by
      rw [← UInt8.toNat_inj]
      exact Nat.and_or_distrib_right x.toNat y.toNat m.toNat
    rw [hand, ← Bool.decide_or]
    exact decide_eq_decide.mpr (by rw [ne_eq, UInt8.or_eq_zero_iff, not_and_or])
  simp only [documented, hor]

/-- The flags that `M_ADDW` keeps. -/
theorem documented_kept (f : UInt8) : documented (f &&& (sFlag ||| zFlag ||| vFlag)) =
    { s := (documented f).s, z := (documented f).z, h := false, v := (documented f).v,
      n := false, c := false } := by
  have hs : (sFlag ||| zFlag ||| vFlag) &&& sFlag = sFlag := rfl
  have hz : (sFlag ||| zFlag ||| vFlag) &&& zFlag = zFlag := rfl
  have hh : (sFlag ||| zFlag ||| vFlag) &&& hFlag = 0 := rfl
  have hv : (sFlag ||| zFlag ||| vFlag) &&& vFlag = vFlag := rfl
  have hn : (sFlag ||| zFlag ||| vFlag) &&& nFlag = 0 := rfl
  have hc : (sFlag ||| zFlag ||| vFlag) &&& cFlag = 0 := rfl
  simp only [documented, UInt8.and_assoc, hs, hz, hh, hv, hn, hc, UInt8.and_zero, ne_eq,
    not_true_eq_false, decide_false]

/-! ## bits of an `int` -/

/-- A bit of an `int`. -/
def bitOf (x : UInt32) (k : Nat) : Bool := x.toBitVec.getLsbD k

/-- A bit as arithmetic. -/
theorem bitOf_eq (x : UInt32) (k : Nat) : bitOf x k = decide (x.toNat / 2 ^ k % 2 = 1) :=
  Nat.testBit_eq_decide_div_mod_eq

theorem bitOf_and (x y : UInt32) (k : Nat) : bitOf (x &&& y) k = (bitOf x k && bitOf y k) :=
  BitVec.getLsbD_and

theorem bitOf_xor (x y : UInt32) (k : Nat) : bitOf (x ^^^ y) k = (bitOf x k ^^ bitOf y k) :=
  BitVec.getLsbD_xor

/-- The carries of a sum. -/
theorem bitOf_add (x y : UInt32) {k : Nat} (hk : k < 32) :
    bitOf (x ^^^ (x + y) ^^^ y) k = decide ((x + y).toNat % 2 ^ k < y.toNat % 2 ^ k) :=
  Carry.getLsbD_xor_add x.toBitVec y.toBitVec hk

/-- The borrows of a difference. -/
theorem bitOf_sub (x y : UInt32) {k : Nat} (hk : k < 32) :
    bitOf (x ^^^ (x - y) ^^^ y) k = decide (x.toNat % 2 ^ k < y.toNat % 2 ^ k) :=
  Carry.getLsbD_xor_sub x.toBitVec y.toBitVec hk

/-- The overflow of a sum, as the macros put it. -/
theorem bitOf_overflow_add (a r q : UInt32) {sign : UInt32} {k : Nat} (hsign : bitOf sign k = true) :
    bitOf ((r ^^^ a ^^^ sign) &&& (r ^^^ q)) k =
      ((bitOf r k == bitOf a k) && (bitOf r k != bitOf q k)) := by
  simp only [bitOf_and, bitOf_xor, hsign]
  cases bitOf r k <;> cases bitOf a k <;> rfl

/-- The overflow of a difference. -/
theorem bitOf_overflow_sub (a r q : UInt32) {sign : UInt32} {k : Nat} (hsign : bitOf sign k = true) :
    bitOf ((r ^^^ a) &&& (r ^^^ q ^^^ sign)) k =
      ((bitOf r k != bitOf a k) && (bitOf r k == bitOf q k)) := by
  simp only [bitOf_and, bitOf_xor, hsign]
  cases bitOf r k <;> cases bitOf q k <;> rfl

/-- A mask of one bit leaves the bit or nothing. -/
theorem and_mask_eq (x : UInt32) {mask : UInt32} {k : Nat} (hmask : mask.toNat = 2 ^ k) :
    x &&& mask = if bitOf x k then mask else 0 := by
  have hbit : x.toNat.testBit k = bitOf x k := rfl
  rw [← UInt32.toNat_inj, UInt32.toNat_and, hmask, Nat.and_two_pow, hbit]
  cases bitOf x k with
  | true => rw [Bool.toNat_true, Nat.one_mul, if_pos rfl, hmask]
  | false => rw [Bool.toNat_false, Nat.zero_mul, if_neg Bool.false_ne_true, UInt32.toNat_zero]

/-- A bit that is masked, moved down and stored in a byte. -/
theorem masked_eq (x : UInt32) {mask : UInt32} (shift : UInt32) {k : Nat}
    (hmask : mask.toNat = 2 ^ k) :
    ((x &&& mask) >>> shift).toUInt8 = if bitOf x k then (mask >>> shift).toUInt8 else 0 := by
  rw [and_mask_eq x hmask]
  split
  · rfl
  · rw [UInt32.zero_shiftRight]
    rfl

/-- The table of zero and sign, as arithmetic. -/
theorem zsTable_eq (q : UInt32) : zsTable q.toUInt8 =
    (if q.toNat % 2 ^ 8 = 0 then zFlag else 0) ||| (if bitOf q 7 then sFlag else 0) := by
  have hzero : q.toUInt8 = 0 ↔ q.toNat % 2 ^ 8 = 0 := by
    rw [← UInt8.toNat_inj, UInt32.toNat_toUInt8, UInt8.toNat_zero]
  have hand : (q.toUInt8 &&& 0x80).toNat = (bitOf q 7).toNat * 2 ^ 7 := by
    have hmask : (0x80 : UInt8).toNat = 2 ^ 7 := rfl
    have hbit : (q.toNat % 2 ^ 8).testBit 7 = bitOf q 7 := by
      rw [Nat.testBit_mod_two_pow]
      rfl
    rw [UInt8.toNat_and, UInt32.toNat_toUInt8, hmask, Nat.and_two_pow, hbit]
  have hsign : q.toUInt8 &&& 0x80 ≠ 0 ↔ bitOf q 7 := by
    rw [ne_eq, ← UInt8.toNat_inj, hand, UInt8.toNat_zero]
    cases bitOf q 7 <;> simp
  rw [zsTable, if_congr hzero rfl rfl, if_congr hsign rfl rfl]

/-! ## the flags of the macros -/

/-- The documented flags that the macros for additions take from the bits of
the terms and of the sum. -/
def sumBits (w : Nat) (a r q : UInt32) : Flags where
  s := bitOf q (w - 1)
  z := q.toNat % 2 ^ w = 0
  h := bitOf (a ^^^ q ^^^ r) (w - 4)
  v := (bitOf r (w - 1) == bitOf a (w - 1)) && (bitOf r (w - 1) != bitOf q (w - 1))
  n := false
  c := bitOf q w

/-- The same for subtractions. -/
def differenceBits (w : Nat) (a r q : UInt32) : Flags where
  s := bitOf q (w - 1)
  z := q.toNat % 2 ^ w = 0
  h := bitOf (a ^^^ q ^^^ r) (w - 4)
  v := (bitOf r (w - 1) != bitOf a (w - 1)) && (bitOf r (w - 1) == bitOf q (w - 1))
  n := true
  c := bitOf q w

/-- The flags of `M_ADD` and `M_ADC`. -/
theorem addFlags_eq (a r q : UInt32) : addFlags a r q = flagByte (sumBits 8 a r q) := by
  have hmask : hFlag.toUInt32.toNat = 2 ^ 4 := rfl
  have hmask7 : (0x80 : UInt32).toNat = 2 ^ 7 := rfl
  have hmask8 : (256 : UInt32).toNat = 2 ^ 8 := rfl
  rw [addFlags, zsTable_eq, masked_eq q 8 hmask8, masked_eq _ 5 hmask7, and_mask_eq _ hmask,
    bitOf_overflow_add a r q rfl, apply_ite UInt32.toUInt8]
  simp only [flagByte, sumBits, decide_eq_true_eq, Bool.false_eq_true, if_false, UInt8.or_zero]
  rfl

/-- The flags of `M_SUB`, `M_SBC` and `M_CP`. -/
theorem subFlags_eq (a r q : UInt32) : subFlags a r q = flagByte (differenceBits 8 a r q) := by
  have hmask : hFlag.toUInt32.toNat = 2 ^ 4 := rfl
  have hmask7 : (0x80 : UInt32).toNat = 2 ^ 7 := rfl
  have hmask8 : (256 : UInt32).toNat = 2 ^ 8 := rfl
  rw [subFlags, zsTable_eq, masked_eq q 8 hmask8, masked_eq _ 5 hmask7, and_mask_eq _ hmask,
    bitOf_overflow_sub a r q rfl, apply_ite UInt32.toUInt8]
  simp only [flagByte, differenceBits, decide_eq_true_eq, if_true]
  rfl

/-- A bit at the end of an `int` that is moved down. -/
theorem shifted_one_eq (q : UInt32) :
    ((q >>> 16) &&& 1).toUInt8 = if bitOf q 16 then cFlag else 0 := by
  have hmask : (1 : UInt32).toNat = 2 ^ 0 := rfl
  have hbit : bitOf (q >>> 16) 0 = bitOf q 16 := by
    have hshift : (q >>> 16).toNat = q.toNat / 2 ^ 16 := by
      rw [UInt32.toNat_shiftRight, Nat.shiftRight_eq_div_pow]
      rfl
    rw [bitOf_eq, bitOf_eq, hshift, Nat.pow_zero, Nat.div_one]
  rw [and_mask_eq _ hmask, hbit, apply_ite UInt32.toUInt8]
  rfl

/-- The zero flag of a word, as arithmetic. -/
theorem zeroWord_eq (q : UInt32) : (if q &&& 65535 ≠ 0 then 0 else zFlag) =
    if q.toNat % 2 ^ 16 = 0 then zFlag else 0 := by
  have hmask : (65535 : UInt32).toNat = 2 ^ 16 - 1 := rfl
  have hzero : q &&& 65535 = 0 ↔ q.toNat % 2 ^ 16 = 0 := by
    rw [← UInt32.toNat_inj, UInt32.toNat_and, hmask, Nat.and_two_pow_sub_one_eq_mod,
      UInt32.toNat_zero]
  rw [ite_not]
  exact if_congr hzero rfl rfl

/-- The masks of the pair macros, moved down. -/
theorem pairMasks : ((0x1000 : UInt32) >>> 8).toUInt8 = hFlag ∧
    ((0x8000 : UInt32) >>> 8).toUInt8 = sFlag ∧ ((0x8000 : UInt32) >>> 13).toUInt8 = vFlag :=
  ⟨rfl, rfl, rfl⟩

/-- `M_ADCW`. -/
theorem mAdcw_eq (hl d af : UInt32) {r q : UInt32} (hr : r = d + (af &&& cFlag.toUInt32))
    (hq : q = hl + r) : mAdcw hl d af = (q.toUInt16, flagByte (sumBits 16 hl r q)) := by
  have hmask12 : (0x1000 : UInt32).toNat = 2 ^ 12 := rfl
  have hmask15 : (0x8000 : UInt32).toNat = 2 ^ 15 := rfl
  rw [mAdcw, ← hr, ← hq, shifted_one_eq, zeroWord_eq, masked_eq _ 8 hmask12,
    masked_eq q 8 hmask15, masked_eq _ 13 hmask15, bitOf_overflow_add hl r q rfl, pairMasks.1,
    pairMasks.2.1, pairMasks.2.2]
  simp only [flagByte, sumBits, Nat.reduceSub, decide_eq_true_eq, Bool.false_eq_true, if_false,
    UInt8.or_zero]
  exact congrArg (Prod.mk q.toUInt16) (by ac_rfl)

/-- `M_SBCW`. -/
theorem mSbcw_eq (hl d af : UInt32) {r q : UInt32} (hr : r = d + (af &&& cFlag.toUInt32))
    (hq : q = hl - r) : mSbcw hl d af = (q.toUInt16, flagByte (differenceBits 16 hl r q)) := by
  have hmask12 : (0x1000 : UInt32).toNat = 2 ^ 12 := rfl
  have hmask15 : (0x8000 : UInt32).toNat = 2 ^ 15 := rfl
  rw [mSbcw, ← hr, ← hq, shifted_one_eq, zeroWord_eq, masked_eq _ 8 hmask12,
    masked_eq q 8 hmask15, masked_eq _ 13 hmask15, bitOf_overflow_sub hl r q rfl, pairMasks.1,
    pairMasks.2.1, pairMasks.2.2]
  simp only [flagByte, differenceBits, Nat.reduceSub, decide_eq_true_eq, if_true]
  exact congrArg (Prod.mk q.toUInt16) (by ac_rfl)

/-! ## bits and values -/

section

variable {w : Nat}

/-- The widths of the accumulator and of a pair. -/
def IsWidth (w : Nat) : Prop := w = 8 ∨ w = 16

/-- The sign is the upper half of the numbers. -/
theorem bitOf_sign (hw : IsWidth w) (x : UInt32) :
    bitOf x (w - 1) = decide (2 ^ (w - 1) ≤ x.toNat % 2 ^ w) := by
  rw [bitOf_eq, decide_eq_decide]
  rcases hw with rfl | rfl
  · omega
  · omega

/-- The sign bit of an operand with the carry in it. -/
theorem bitOf_operand (hw : IsWidth w) {b c : Nat} {r : UInt32} (hb : b < 2 ^ w) (hc : c ≤ 1)
    (hr : r.toNat = b + c) (h : ¬ (c = 1 ∧ b % 2 ^ (w - 4) = 2 ^ (w - 4) - 1)) :
    bitOf r (w - 1) = decide (2 ^ (w - 1) ≤ b) := by
  rw [bitOf_sign hw, hr, decide_eq_decide]
  rcases hw with rfl | rfl
  · omega
  · omega

variable {a b c : Nat} {x r : UInt32}

/-- The bits of a sum show the flags of the Z80 unless the operand and the
carry make a carry of their own into the top four bits. -/
theorem sumBits_eq_iff (hw : IsWidth w) (hx : x.toNat = a) (hr : r.toNat = b + c)
    (ha : a < 2 ^ w) (hb : b < 2 ^ w) (hc : c ≤ 1) :
    sumBits w x r (x + r) = sumFlags w a b c ↔ ¬ (c = 1 ∧ b % 2 ^ (w - 4) = 2 ^ (w - 4) - 1) := by
  have hq : (x + r).toNat = a + b + c := by
    rw [UInt32.toNat_add, hx, hr]
    rcases hw with rfl | rfl <;> omega
  have hlow : w - 4 < 32 := by
    rcases hw with rfl | rfl <;> decide
  have hcarry : bitOf (x + r) w = decide (2 ^ w ≤ a + b + c) := by
    rw [bitOf_eq, hq, decide_eq_decide]
    rcases hw with rfl | rfl <;> omega
  have hhalf : bitOf (x ^^^ (x + r) ^^^ r) (w - 4) =
      decide ((a + b + c) % 2 ^ (w - 4) < (b + c) % 2 ^ (w - 4)) := by
    rw [bitOf_add x r hlow, hq, hr]
  have hsign : bitOf x (w - 1) = decide (2 ^ (w - 1) ≤ a) := by
    rw [bitOf_sign hw, hx, Nat.mod_eq_of_lt ha]
  rw [sumBits, sumFlags, Flags.mk.injEq, bitOf_sign hw, hq, hcarry, hhalf, hsign]
  constructor
  · rintro ⟨-, -, hsame, -, -, -⟩ hcross
    rw [decide_eq_decide] at hsame
    rcases hw with rfl | rfl <;> omega
  · intro h
    refine ⟨rfl, rfl, ?_, ?_, rfl, rfl⟩
    · rw [decide_eq_decide]
      rcases hw with rfl | rfl <;> omega
    · have hover : Carry.Overflows (2 ^ (w - 1))
          (Carry.signed (2 ^ (w - 1)) a + Carry.signed (2 ^ (w - 1)) b + c) ↔
            (b < 2 ^ (w - 1) ↔ a < 2 ^ (w - 1)) ∧
              ¬ (b < 2 ^ (w - 1) ↔ (a + b + c) % 2 ^ w < 2 ^ (w - 1)) := by
        refine Carry.overflows_add_iff ?_ ?_ hc ?_ ?_
        all_goals rcases hw with rfl | rfl <;> omega
      rw [bitOf_operand hw hb hc hr h, Bool.eq_iff_iff, decide_eq_true_iff, hover]
      simp only [Bool.and_eq_true, beq_iff_eq, bne_iff_ne, ne_eq, decide_eq_decide, ← Nat.not_lt,
        not_iff_not]

/-- The bits of a difference show the flags of the Z80 under the same
condition. -/
theorem differenceBits_eq_iff (hw : IsWidth w) (hx : x.toNat = a) (hr : r.toNat = b + c)
    (ha : a < 2 ^ w) (hb : b < 2 ^ w) (hc : c ≤ 1) :
    differenceBits w x r (x - r) = differenceFlags w a b c ↔
      ¬ (c = 1 ∧ b % 2 ^ (w - 4) = 2 ^ (w - 4) - 1) := by
  obtain ⟨q, hq, hqw⟩ : ∃ q : Nat, ((a : Int) - b - c) % 2 ^ w = q ∧ (x - r).toNat % 2 ^ w = q := by
    refine ⟨(x - r).toNat % 2 ^ w, ?_, rfl⟩
    rw [UInt32.toNat_sub, hx, hr]
    rcases hw with rfl | rfl <;> omega
  have hlow : w - 4 < 32 := by
    rcases hw with rfl | rfl <;> decide
  have hborrow : bitOf (x - r) w = decide (a < b + c) := by
    rw [bitOf_eq, UInt32.toNat_sub, hx, hr, decide_eq_decide]
    rcases hw with rfl | rfl <;> omega
  have hhalf : bitOf (x ^^^ (x - r) ^^^ r) (w - 4) =
      decide (a % 2 ^ (w - 4) < (b + c) % 2 ^ (w - 4)) := by
    rw [bitOf_sub x r hlow, hx, hr]
  have hsign : bitOf x (w - 1) = decide (2 ^ (w - 1) ≤ a) := by
    rw [bitOf_sign hw, hx, Nat.mod_eq_of_lt ha]
  rw [differenceBits, differenceFlags, Flags.mk.injEq, bitOf_sign hw, hqw, hq, hborrow, hhalf, hsign]
  constructor
  · rintro ⟨-, -, hsame, -, -, -⟩ hcross
    rw [decide_eq_decide] at hsame
    rcases hw with rfl | rfl <;> omega
  · intro h
    refine ⟨?_, ?_, ?_, ?_, rfl, rfl⟩
    · rw [decide_eq_decide]
      rcases hw with rfl | rfl <;> omega
    · rw [decide_eq_decide, Int.natCast_eq_zero]
    · rw [decide_eq_decide]
      rcases hw with rfl | rfl <;> omega
    · have hover : Carry.Overflows (2 ^ (w - 1))
          (Carry.signed (2 ^ (w - 1)) a - Carry.signed (2 ^ (w - 1)) b - c) ↔
            ¬ (b < 2 ^ (w - 1) ↔ a < 2 ^ (w - 1)) ∧ (b < 2 ^ (w - 1) ↔ q < 2 ^ (w - 1)) := by
        refine Carry.overflows_sub_iff ?_ ?_ hc ?_ ?_
        all_goals rcases hw with rfl | rfl <;> omega
      rw [bitOf_operand hw hb hc hr h, Bool.eq_iff_iff, decide_eq_true_iff, hover]
      simp only [Bool.and_eq_true, beq_iff_eq, bne_iff_ne, ne_eq, decide_eq_decide, ← Nat.not_lt,
        not_iff_not]

end

/-! ## the instructions -/

/-- The arithmetic on the accumulator. -/
inductive ByteOp
  | add
  | adc
  | sub
  | sbc
  | cp

namespace ByteOp

/-- The macro. -/
def macroOf : ByteOp → UInt8 → RegFile → RegFile
  | add => mAdd
  | adc => mAdc
  | sub => mSub
  | sbc => mSbc
  | cp => mCp

/-- The carry that the instruction takes in, when the flag is `c`. -/
def carryIn (c : Nat) : ByteOp → Nat
  | adc => c
  | sbc => c
  | _ => 0

/-- The accumulator after the instruction on `a` and `b` with the carry `c`
taken in. -/
def result (a b c : Nat) : ByteOp → Int
  | add => (a + b + c) % 2 ^ 8
  | adc => (a + b + c) % 2 ^ 8
  | sub => ((a : Int) - b - c) % 2 ^ 8
  | sbc => ((a : Int) - b - c) % 2 ^ 8
  | cp => a

/-- The flags after it. -/
def flags (a b c : Nat) : ByteOp → Flags
  | add => sumFlags 8 a b c
  | adc => sumFlags 8 a b c
  | sub => differenceFlags 8 a b c
  | sbc => differenceFlags 8 a b c
  | cp => differenceFlags 8 a b c

/-- The macro does what the instruction does. -/
def Matches (op : ByteOp) (reg : UInt8) (R : RegFile) : Prop :=
  ((op.macroOf reg R).a.toNat : Int) =
      op.result R.a.toNat reg.toNat (op.carryIn (R.f &&& cFlag).toNat) ∧
    documented (op.macroOf reg R).f =
      op.flags R.a.toNat reg.toNat (op.carryIn (R.f &&& cFlag).toNat)

end ByteOp

/-- The arithmetic on `HL` and a pair. -/
inductive PairOp
  | add
  | adc
  | sbc

namespace PairOp

/-- The macro, on the values of the pairs and of `AF`. -/
def macroOf : PairOp → UInt16 → UInt16 → UInt32 → UInt16 × UInt8
  | add, hl, d, af => mAddw hl.toUInt32 d.toUInt32 af.toUInt8
  | adc, hl, d, af => mAdcw hl.toUInt32 d.toUInt32 af
  | sbc, hl, d, af => mSbcw hl.toUInt32 d.toUInt32 af

/-- The carry that the instruction takes in, when the flag is `c`. -/
def carryIn (c : Nat) : PairOp → Nat
  | add => 0
  | adc => c
  | sbc => c

/-- `HL` after the instruction. -/
def result (a b c : Nat) : PairOp → Int
  | add => (a + b + c) % 2 ^ 16
  | adc => (a + b + c) % 2 ^ 16
  | sbc => ((a : Int) - b - c) % 2 ^ 16

/-- The flags after it; `ADD` keeps three of them. -/
def flags (a b c : Nat) (old : Flags) : PairOp → Flags
  | add => { sumFlags 16 a b c with s := old.s, z := old.z, v := old.v }
  | adc => sumFlags 16 a b c
  | sbc => differenceFlags 16 a b c

/-- The macro does what the instruction does. -/
def Matches (op : PairOp) (hl d : UInt16) (af : UInt32) : Prop :=
  ((op.macroOf hl d af).1.toNat : Int) =
      op.result hl.toNat d.toNat (op.carryIn (af.toUInt8 &&& cFlag).toNat) ∧
    documented (op.macroOf hl d af).2 =
      op.flags hl.toNat d.toNat (op.carryIn (af.toUInt8 &&& cFlag).toNat) (documented af.toUInt8)

end PairOp

/-! ## the macros against the instructions -/

/-- The carry is one at most. -/
theorem carry_le (f : UInt8) : (f &&& cFlag).toNat ≤ 1 := by
  rw [UInt8.toNat_and]
  exact Nat.and_le_right

/-- The operand as `M_ADC` and `M_SBC` form it. -/
theorem toNat_operand (reg f : UInt8) :
    (reg.toUInt32 + (f &&& cFlag).toUInt32).toNat = reg.toNat + (f &&& cFlag).toNat := by
  have hb := reg.toNat_lt
  have hc := carry_le f
  rw [UInt32.toNat_add, UInt8.toNat_toUInt32, UInt8.toNat_toUInt32]
  omega

section

variable (a reg : UInt8) {r : UInt32} {c : Nat}

/-- An addition to the accumulator. -/
theorem byteSum_spec (hc : c ≤ 1) (hr : r.toNat = reg.toNat + c) :
    ((a.toUInt32 + r).toUInt8.toNat : Int) = (a.toNat + reg.toNat + c) % 2 ^ 8 ∧
      (documented (addFlags a.toUInt32 r (a.toUInt32 + r)) = sumFlags 8 a.toNat reg.toNat c ↔
        ¬ (c = 1 ∧ reg.toNat % 2 ^ 4 = 2 ^ 4 - 1)) := by
  have ha := a.toNat_lt
  have hb := reg.toNat_lt
  refine ⟨?_, ?_⟩
  · rw [UInt32.toNat_toUInt8, UInt32.toNat_add, UInt8.toNat_toUInt32, hr]
    omega
  · rw [addFlags_eq, documented_flagByte]
    exact sumBits_eq_iff (.inl rfl) (UInt8.toNat_toUInt32 a) hr ha hb hc

/-- A subtraction from it. -/
theorem byteDifference_spec (hc : c ≤ 1) (hr : r.toNat = reg.toNat + c) :
    ((a.toUInt32 - r).toUInt8.toNat : Int) = ((a.toNat : Int) - reg.toNat - c) % 2 ^ 8 ∧
      (documented (subFlags a.toUInt32 r (a.toUInt32 - r)) =
          differenceFlags 8 a.toNat reg.toNat c ↔
        ¬ (c = 1 ∧ reg.toNat % 2 ^ 4 = 2 ^ 4 - 1)) := by
  have ha := a.toNat_lt
  have hb := reg.toNat_lt
  refine ⟨?_, ?_⟩
  · rw [UInt32.toNat_toUInt8, UInt32.toNat_sub, UInt8.toNat_toUInt32, hr]
    omega
  · rw [subFlags_eq, documented_flagByte]
    exact differenceBits_eq_iff (.inl rfl) (UInt8.toNat_toUInt32 a) hr ha hb hc

end

/-- The macros on the accumulator do what the Z80 does, except `M_ADC` and
`M_SBC` for an operand whose low digit the carry takes to the next one. -/
theorem ByteOp.matches_iff (op : ByteOp) (reg : UInt8) (R : RegFile) :
    op.Matches reg R ↔
      ¬ (op.carryIn (R.f &&& cFlag).toNat = 1 ∧ reg.toNat % 2 ^ 4 = 2 ^ 4 - 1) := by
  have hplain : reg.toUInt32.toNat = reg.toNat + 0 := UInt8.toNat_toUInt32 reg
  have hcarry := toNat_operand reg R.f
  have hc := carry_le R.f
  cases op with
  | add =>
      obtain ⟨hresult, hflags⟩ := byteSum_spec R.a reg (Nat.zero_le 1) hplain
      simp only [Matches, macroOf, mAdd, result, flags, carryIn, RegFile.a_setA, RegFile.f_setA,
        RegFile.f_setF, hresult, hflags, true_and]
  | adc =>
      obtain ⟨hresult, hflags⟩ := byteSum_spec R.a reg hc hcarry
      simp only [Matches, macroOf, mAdc, result, flags, carryIn, RegFile.a_setA, RegFile.f_setA,
        RegFile.f_setF, hresult, hflags, true_and]
  | sub =>
      obtain ⟨hresult, hflags⟩ := byteDifference_spec R.a reg (Nat.zero_le 1) hplain
      simp only [Matches, macroOf, mSub, result, flags, carryIn, RegFile.a_setA, RegFile.f_setA,
        RegFile.f_setF, hresult, hflags, true_and]
  | sbc =>
      obtain ⟨hresult, hflags⟩ := byteDifference_spec R.a reg hc hcarry
      simp only [Matches, macroOf, mSbc, result, flags, carryIn, RegFile.a_setA, RegFile.f_setA,
        RegFile.f_setF, hresult, hflags, true_and]
  | cp =>
      obtain ⟨-, hflags⟩ := byteDifference_spec R.a reg (Nat.zero_le 1) hplain
      simp only [Matches, macroOf, mCp, result, flags, carryIn, RegFile.a_setF, RegFile.f_setF,
        hflags, true_and]

section

variable (hl d : UInt16) {r : UInt32} {c : Nat}

/-- An addition to `HL`. -/
theorem pairSum_spec (hc : c ≤ 1) (hr : r.toNat = d.toNat + c) :
    ((hl.toUInt32 + r).toUInt16.toNat : Int) = (hl.toNat + d.toNat + c) % 2 ^ 16 ∧
      (sumBits 16 hl.toUInt32 r (hl.toUInt32 + r) = sumFlags 16 hl.toNat d.toNat c ↔
        ¬ (c = 1 ∧ d.toNat % 2 ^ 12 = 2 ^ 12 - 1)) := by
  have ha := hl.toNat_lt
  have hb := d.toNat_lt
  refine ⟨?_, sumBits_eq_iff (.inr rfl) (UInt16.toNat_toUInt32 hl) hr ha hb hc⟩
  rw [UInt32.toNat_toUInt16, UInt32.toNat_add, UInt16.toNat_toUInt32, hr]
  omega

/-- A subtraction from it. -/
theorem pairDifference_spec (hc : c ≤ 1) (hr : r.toNat = d.toNat + c) :
    ((hl.toUInt32 - r).toUInt16.toNat : Int) = ((hl.toNat : Int) - d.toNat - c) % 2 ^ 16 ∧
      (differenceBits 16 hl.toUInt32 r (hl.toUInt32 - r) =
          differenceFlags 16 hl.toNat d.toNat c ↔
        ¬ (c = 1 ∧ d.toNat % 2 ^ 12 = 2 ^ 12 - 1)) := by
  have ha := hl.toNat_lt
  have hb := d.toNat_lt
  refine ⟨?_, differenceBits_eq_iff (.inr rfl) (UInt16.toNat_toUInt32 hl) hr ha hb hc⟩
  rw [UInt32.toNat_toUInt16, UInt32.toNat_sub, UInt16.toNat_toUInt32, hr]
  omega

/-- `M_ADDW` keeps three flags and sets the others. -/
theorem documented_mAddw (f : UInt8) : documented (mAddw hl.toUInt32 d.toUInt32 f).2 =
    { sumFlags 16 hl.toNat d.toNat 0 with
      s := (documented f).s, z := (documented f).z, v := (documented f).v } := by
  have hmask12 : (0x1000 : UInt32).toNat = 2 ^ 12 := rfl
  have hsum := (pairSum_spec hl d (Nat.zero_le 1) (UInt16.toNat_toUInt32 d)).2.mpr
    fun hcross => absurd hcross.1 (by decide)
  have hh := congrArg Flags.h hsum
  have hc := congrArg Flags.c hsum
  change bitOf (hl.toUInt32 ^^^ (hl.toUInt32 + d.toUInt32) ^^^ d.toUInt32) 12 = _ at hh
  change bitOf (hl.toUInt32 + d.toUInt32) 16 = _ at hc
  have hhalf (b : Bool) :
      documented (if b then hFlag else 0) = ⟨false, false, b, false, false, false⟩ := by
    cases b <;> rfl
  have hcarry (b : Bool) :
      documented (if b then cFlag else 0) = ⟨false, false, false, false, false, b⟩ := by
    cases b <;> rfl
  rw [mAddw, masked_eq _ 8 hmask12, pairMasks.1, shifted_one_eq, hh, hc, documented_or,
    documented_or, documented_kept, hhalf, hcarry]
  simp only [Bool.or_false, Bool.false_or]
  rfl

end

/-- The macros on pairs do what the Z80 does, except `M_ADCW` and `M_SBCW` for
an operand whose low digits the carry takes to the first one. -/
theorem PairOp.matches_iff (op : PairOp) (hl d : UInt16) (af : UInt32) :
    op.Matches hl d af ↔
      ¬ (op.carryIn (af.toUInt8 &&& cFlag).toNat = 1 ∧ d.toNat % 2 ^ 12 = 2 ^ 12 - 1) := by
  have hplain : d.toUInt32.toNat = d.toNat + 0 := UInt16.toNat_toUInt32 d
  have hc := carry_le af.toUInt8
  have hcarry : (d.toUInt32 + (af &&& cFlag.toUInt32)).toNat =
      d.toNat + (af.toUInt8 &&& cFlag).toNat := by
    have hd := d.toNat_lt
    have hbit : (af &&& cFlag.toUInt32).toNat = (af.toUInt8 &&& cFlag).toNat := by
      have hone : cFlag.toNat = 2 ^ 1 - 1 := rfl
      rw [UInt32.toNat_and, UInt8.toNat_and, UInt8.toNat_toUInt32, UInt32.toNat_toUInt8, hone,
        Nat.and_two_pow_sub_one_eq_mod, Nat.and_two_pow_sub_one_eq_mod]
      omega
    rw [UInt32.toNat_add, UInt16.toNat_toUInt32, hbit]
    omega
  cases op with
  | add =>
      obtain ⟨hresult, -⟩ := pairSum_spec hl d (Nat.zero_le 1) hplain
      have hvalue : (mAddw hl.toUInt32 d.toUInt32 af.toUInt8).1 =
          (hl.toUInt32 + d.toUInt32).toUInt16 := rfl
      simp only [Matches, macroOf, result, flags, carryIn, hvalue, hresult, documented_mAddw,
        true_and]
      simp
  | adc =>
      obtain ⟨hresult, hflags⟩ := pairSum_spec hl d hc hcarry
      simp only [Matches, macroOf, mAdcw_eq _ _ _ rfl rfl, result, flags, carryIn,
        documented_flagByte, hresult, hflags, true_and]
  | sbc =>
      obtain ⟨hresult, hflags⟩ := pairDifference_spec hl d hc hcarry
      simp only [Matches, macroOf, mSbcw_eq _ _ _ rfl rfl, result, flags, carryIn,
        documented_flagByte, hresult, hflags, true_and]

/-- Every macro gives the result and the documented flags of its Z80
instruction, for all operands and both carries, exactly when it does not
take in a carry at an operand whose digits below the first one are all `F`. -/
theorem carryArithmetic_iff (bop : ByteOp) (reg : UInt8) (R : RegFile) (pop : PairOp)
    (hl d : UInt16) (af : UInt32) :
    (bop.Matches reg R ↔
      ¬ (bop.carryIn (R.f &&& cFlag).toNat = 1 ∧ reg.toNat % 2 ^ 4 = 2 ^ 4 - 1)) ∧
    (pop.Matches hl d af ↔
      ¬ (pop.carryIn (af.toUInt8 &&& cFlag).toNat = 1 ∧ d.toNat % 2 ^ 12 = 2 ^ 12 - 1)) :=
  ⟨bop.matches_iff reg R, pop.matches_iff hl d af⟩

/-- Pairs that are zero but for the carry. -/
def carryPairs : RegFile :=
  let z : Pair := ⟨0, 0⟩
  ⟨⟨0x0001, 0⟩, z, z, z, z, z, z, z, z, z, z, z⟩

/-- `ADC A,0F` with `A` zero and the carry set: there is a half-carry, and
`M_ADC` finds none. -/
theorem not_carryArithmetic : ¬ ((∀ (op : ByteOp) (reg : UInt8) (R : RegFile), op.Matches reg R) ∧
    ∀ (op : PairOp) (hl d : UInt16) (af : UInt32), op.Matches hl d af) := by
  intro h
  have hflags := (h.1 .adc 0x0F carryPairs).2
  exact absurd (congrArg Flags.h hflags) (by decide)

end M5Z80
