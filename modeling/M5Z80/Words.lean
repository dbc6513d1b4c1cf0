import M5Z80.Machine

/-!
# M5Z80.Words

Words of 16 bits in the 32-bit pairs of the CPU core: two bytes make one,
and a pair that holds one addresses a page that exists.
-/

namespace M5Z80

/-- A pair that the next access can go through: its upper half is zero, and
its page is one of the 32. -/
structure Pair.Addressable (p : Pair) : Prop where
  wh : p.wh = 0
  page : p.d >>> 11 < 32

/-- A pair without an upper half is its word. -/
theorem Pair.d_of_wh {p : Pair} (h : p.wh = 0) : p.d = p.wl.toUInt32 := by
  have hzero : (0 : UInt16).toUInt32 <<< 16 = 0 := by decide
  rw [Pair.d, h, hzero, UInt32.or_zero]

/-- It addresses the 64K. -/
theorem Pair.d_lt {p : Pair} (h : p.wh = 0) : p.d < 0x10000 := by
  rw [Pair.d_of_wh h, UInt32.lt_iff_toNat_lt, UInt16.toNat_toUInt32]
  exact p.wl.toNat_lt

/-- A 16-bit address is in one of the 32 pages. -/
theorem page_lt {x : UInt32} (h : x < 0x10000) : (x >>> 11).toNat < 32 := by
  rw [UInt32.lt_iff_toNat_lt] at h
  simp only [UInt32.toNat_shiftRight, UInt32.reduceToNat, Nat.reduceMod,
    Nat.shiftRight_eq_div_pow] at h ⊢
  omega

/-- A number below 64K makes a pair without an upper half. -/
theorem Pair.addressable_ofD {x : UInt32} (h : x < 0x10000) : (Pair.ofD x).Addressable := by
  simp only [UInt32.lt_iff_toNat_lt, UInt32.reduceToNat] at h
  have hwh : (Pair.ofD x).wh = 0 := by
    rw [← UInt16.toNat_inj]
    simp only [Pair.ofD, UInt32.toNat_toUInt16, UInt32.toNat_shiftRight, UInt32.reduceToNat,
      Nat.reduceMod, Nat.shiftRight_eq_div_pow, UInt16.reduceToNat]
    omega
  exact ⟨hwh, UInt32.lt_iff_toNat_lt.mpr (page_lt (Pair.d_lt hwh))⟩

/-- Two bytes make a 16-bit word. -/
theorem word_lt {lo hi : UInt32} (hlo : lo ≤ 255) (hhi : hi ≤ 255) : lo + (hi <<< 8) < 0x10000 := by
  simp only [UInt32.le_iff_toNat_le, UInt32.reduceToNat] at hlo hhi
  simp only [UInt32.lt_iff_toNat_lt, UInt32.toNat_add, UInt32.toNat_shiftLeft, UInt32.reduceToNat,
    Nat.reduceMod, Nat.shiftLeft_eq]
  omega

/-- What is masked is below 64K. -/
theorem and_65535_lt (x : UInt32) : x &&& 0xFFFF < 0x10000 := by
  simp only [UInt32.lt_iff_toNat_lt, UInt32.toNat_and, UInt32.reduceToNat]
  exact Nat.lt_succ_of_le Nat.and_le_right

end M5Z80
