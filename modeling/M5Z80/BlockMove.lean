import M5Z80.Guest
import M5Z80.Lib.BlockCopy
import M5Z80.Z80.Arithmetic

/-!
# M5Z80.BlockMove

`LDIR` and `LDDR` as guest code: the opcode function moves one byte and sets
the program counter back, so that each byte is a pass of the loop of its own.
A whole run of them, with interrupts disabled, is a block copy on the address
space, and where the blocks overlap it repeats the first bytes.
-/

namespace M5Z80

/-- `LDIR` and `LDDR`. -/
inductive MoveDirection
  | up | down
deriving DecidableEq

namespace MoveDirection

/-- What is added to `HL` and `DE`. -/
def step : MoveDirection → UInt16
  | .up => 1
  | .down => -1

/-- The code behind the `ED` prefix. -/
def opcode : MoveDirection → UInt8
  | .up => 0xB0
  | .down => 0xB8

/-- The address `k` bytes on. -/
def addr (dir : MoveDirection) (a : UInt16) (k : Nat) : UInt16 := a + dir.step * .ofNat k

variable {dir : MoveDirection} {a b : UInt16} {j k : Nat}

theorem addr_zero : dir.addr a 0 = a := by
  rw [addr, show UInt16.ofNat 0 = 0 from rfl, UInt16.mul_zero, UInt16.add_zero]

theorem addr_succ : dir.addr a (k + 1) = dir.addr a k + dir.step := by
  rw [addr, addr, UInt16.ofNat_add, UInt16.mul_add, ← UInt16.add_assoc]
  exact congrArg _ (UInt16.mul_one _)

/-- Addresses of a block that begins inside another one. -/
theorem addr_add : dir.addr (dir.addr a j) k = dir.addr a (j + k) := by
  rw [addr, addr, addr, UInt16.ofNat_add, UInt16.mul_add, ← UInt16.add_assoc]

/-- Both directions are their own inverse. -/
theorem step_mul_step (x : UInt16) : dir.step * (dir.step * x) = x := by
  rw [← UInt16.mul_assoc, show dir.step * dir.step = 1 by cases dir <;> rfl, UInt16.one_mul]

/-- The address that is `step * (b - a)` bytes on. -/
theorem addr_toNat (dir : MoveDirection) (a b : UInt16) :
    dir.addr a (dir.step * (b - a)).toNat = b := by
  rw [addr, UInt16.ofNat_toNat, step_mul_step, UInt16.add_comm, UInt16.sub_add_cancel]

/-- The addresses of a block repeat after 64K. -/
theorem addr_inj (h : dir.addr a j = dir.addr a k) : j % 0x10000 = k % 0x10000 := by
  have hstep := congrArg (dir.step * ·) ((UInt16.add_right_inj a).mp h)
  simp only [step_mul_step] at hstep
  have hnat := congrArg UInt16.toNat hstep
  rw [UInt16.toNat_ofNat', UInt16.toNat_ofNat'] at hnat
  exact hnat

end MoveDirection

/-- Only the last of two writes to the low byte is seen. -/
theorem Pair.setBl_setBl (p : Pair) (v w : UInt8) : (p.setBl v).setBl w = p.setBl w := by
  have hmask : ∀ i < 8, (0xFF00#16).getLsbD i = false := by decide
  rw [Pair.setBl, Pair.setBl, Pair.setBl, Pair.mk.injEq]
  refine ⟨UInt16.toBitVec_inj.mp (BitVec.eq_of_getLsbD_eq fun i hi => ?_), rfl⟩
  by_cases h8 : i < 8
  · simp [hmask i h8]
  · have hv : v.toBitVec.getLsbD i = false := BitVec.getLsbD_of_ge _ _ (Nat.le_of_not_lt h8)
    simp [hv]

/-- Without an upper half, a pair is zero exactly when its word is. -/
theorem Pair.d_ne_zero {p : Pair} (h : p.wh = 0) : p.d ≠ 0 ↔ p.wl ≠ 0 := by
  rw [Pair.d_of_wh h]
  exact not_congr (UInt16.toUInt32_inj (b := 0))

/-! ## one byte -/

/-- The flags that a move keeps. -/
def movedFlags : UInt8 := 0xE9

/-- The registers after one byte, apart from the program counter. -/
def RegFile.moveOne (dir : MoveDirection) (R : RegFile) : RegFile :=
  let R :=
    { R with de.wl := R.de.wl + dir.step, hl.wl := R.hl.wl + dir.step, bc.wl := R.bc.wl - 1 }
  R.setF ((R.f &&& movedFlags) ||| (if R.bc.d ≠ 0 then vFlag else 0))

/-- `ldi` and `ldd`, with the read, the write and the two updates of the registers one
inside the other. -/
theorem Op.ldBlock_apply (d : UInt16) (m : Machine) :
    Op.ldBlock d m =
      Cpu.pairs (fun R => R.setF ((R.f &&& movedFlags) ||| (if R.bc.d ≠ 0 then vFlag else 0)))
        (Cpu.pairs (fun R =>
            { R with de.wl := R.de.wl + d, hl.wl := R.hl.wl + d, bc.wl := R.bc.wl - 1 })
          (Cpu.wrmem (Cpu.rdmem m.r.hl.d m).2.r.de.d (Cpu.rdmem m.r.hl.d m).1
            (Cpu.rdmem m.r.hl.d m).2).2).2 := rfl

/-- The upper halves of the pairs that address memory and count are zero. -/
structure RegFile.Words (R : RegFile) : Prop where
  pc : R.pc.wh = 0
  bc : R.bc.wh = 0
  de : R.de.wh = 0
  hl : R.hl.wh = 0

namespace Shows

variable {m : Machine} {g : BankConfig} {s : Cell → UInt8} {R : RegFile} {dir : MoveDirection}
  {c : Cell}

/-- A pair of the machine without an upper half, read as an address. -/
theorem reg (h : Shows m g s R) {p : Pair} {f : RegFile → Pair} (hf : f R = p) (hp : p.wh = 0) :
    (f m.r.toRegFile).d = p.wl.toUInt32 := by
  rw [h.regs, hf, Pair.d_of_wh hp]

/-- `LDI` and `LDD`. -/
theorem ldBlock (dir : MoveDirection) (h : Shows m g s R) (hR : R.Words)
    (hc : g.decode R.hl.wl = some c) :
    Shows (Op.ldBlock dir.step m).2 g (BlockCopy.move c (mz700.target g R.de.wl) s)
      (R.moveOne dir) := by
  have hhl : m.r.hl.d = R.hl.wl.toUInt32 := h.reg (f := RegFile.hl) rfl hR.hl
  have hread := h.rdmem R.hl.wl.toUInt32
  have hde : (Cpu.rdmem R.hl.wl.toUInt32 m).2.r.de.d = R.de.wl.toUInt32 :=
    hread.reg (f := RegFile.de) rfl hR.de
  have hwrite : Shows
      (Cpu.wrmem R.de.wl.toUInt32 (s c).toUInt32 (Cpu.rdmem R.hl.wl.toUInt32 m).2).2 g
      (BlockCopy.move c (mz700.target g R.de.wl) s) R := by
    have hwrite := hread.wrmem R.de.wl (s c).toUInt32
    rw [UInt8.toUInt8_toUInt32] at hwrite
    exact hwrite
  rw [Op.ldBlock_apply, hhl, hde, h.fst_rdmem hc]
  exact (hwrite.pairs _).pairs _

end Shows

/-! ## the registers of a run -/

namespace RegFile

variable {R : RegFile} {dir : MoveDirection}

/-- A move does not touch the upper halves. -/
theorem Words.moveOne (h : R.Words) : (R.moveOne dir).Words := ⟨h.pc, h.bc, h.de, h.hl⟩

/-- The registers after `k` bytes, of which the first has been moved. -/
def moved (dir : MoveDirection) (k : Nat) (R : RegFile) : RegFile :=
  { R.setF ((R.f &&& movedFlags) ||| (if R.bc.wl ≠ .ofNat k then vFlag else 0)) with
    de.wl := dir.addr R.de.wl k, hl.wl := dir.addr R.hl.wl k, bc.wl := R.bc.wl - .ofNat k }

/-- The flags are those of the first byte, but for the one that counts. -/
theorem and_movedFlags (f : UInt8) (p : Prop) [Decidable p] :
    ((f &&& movedFlags) ||| (if p then vFlag else 0)) &&& movedFlags = f &&& movedFlags := by
  have hflag : (if p then vFlag else 0) &&& movedFlags = 0 := by split <;> rfl
  have hand (x y m : UInt8) : (x ||| y) &&& m = (x &&& m) ||| (y &&& m) := by
    rw [← UInt8.toNat_inj]
    exact Nat.and_or_distrib_right x.toNat y.toNat m.toNat
  rw [hand, hflag, UInt8.and_assoc, UInt8.and_self, UInt8.or_zero]

/-- Does `BC` still count? -/
theorem count_ne (hbc : R.bc.wh = 0) {x y : UInt16} (h : x + 1 = y) :
    (Pair.mk (R.bc.wl - x - 1) R.bc.wh).d ≠ 0 ↔ R.bc.wl ≠ y := by
  rw [Pair.d_ne_zero (p := ⟨R.bc.wl - x - 1, R.bc.wh⟩) hbc, Ne, UInt16.sub_eq_iff_eq_add,
    UInt16.zero_add, UInt16.sub_eq_iff_eq_add, UInt16.add_comm, h]

/-- The closed form of the registers goes on by one byte. -/
theorem moveOne_moved (hbc : R.bc.wh = 0) {k : Nat} :
    (R.moved dir k).moveOne dir = R.moved dir (k + 1) := by
  have hcount := count_ne (x := .ofNat k) hbc (UInt16.ofNat_add k 1).symm
  have hsub : R.bc.wl - .ofNat k - 1 = R.bc.wl - .ofNat (k + 1) := by
    rw [UInt16.sub_eq_iff_eq_add, UInt16.sub_eq_iff_eq_add, UInt16.add_assoc, UInt16.add_comm 1,
      UInt16.ofNat_add]
    exact (UInt16.sub_add_cancel _ _).symm
  rw [hsub] at hcount
  simp only [moved, moveOne, hsub]
  simp only [setF, f, Pair.bl_setBl, Pair.setBl_setBl, and_movedFlags, MoveDirection.addr_succ,
    hcount]

/-- The closed form of the registers after the first byte. -/
theorem moveOne_eq (hbc : R.bc.wh = 0) : R.moveOne dir = R.moved dir 1 := by
  have hcount := count_ne (x := 0) hbc (UInt16.zero_add 1)
  rw [UInt16.sub_zero] at hcount
  simp only [moved, moveOne, MoveDirection.addr_succ, MoveDirection.addr_zero, hcount]
  rfl

/-- Every byte moves the registers on. -/
theorem iterate_moveOne (hbc : R.bc.wh = 0) (k : Nat) :
    (moveOne dir)^[k + 1] R = R.moved dir (k + 1) := by
  induction k with
  | zero => exact moveOne_eq hbc
  | succ k ih => rw [Function.iterate_succ_apply', ih, moveOne_moved hbc]

/-- The instruction itself moves no program counter; that is done around it. -/
@[simp] theorem iterate_pc (k : Nat) : ((moveOne dir)^[k] R).pc = R.pc := by
  induction k with
  | zero => rfl
  | succ k ih => rw [Function.iterate_succ_apply', ← ih]; rfl

/-- The source address after `k` bytes. -/
theorem iterate_hl (k : Nat) : ((moveOne dir)^[k] R).hl.wl = dir.addr R.hl.wl k := by
  induction k with
  | zero => exact MoveDirection.addr_zero.symm
  | succ k ih => rw [Function.iterate_succ_apply', MoveDirection.addr_succ, ← ih]; rfl

/-- The target address after `k` bytes. -/
theorem iterate_de (k : Nat) : ((moveOne dir)^[k] R).de.wl = dir.addr R.de.wl k := by
  induction k with
  | zero => exact MoveDirection.addr_zero.symm
  | succ k ih => rw [Function.iterate_succ_apply', MoveDirection.addr_succ, ← ih]; rfl

theorem Words.iterate (h : R.Words) (k : Nat) : ((RegFile.moveOne dir)^[k] R).Words := by
  induction k with
  | zero => exact h
  | succ k ih => rw [Function.iterate_succ_apply']; exact ih.moveOne

end RegFile

/-! ## a pass of the loop -/

namespace Shows

variable {m : Machine} {g : BankConfig} {s : Cell → UInt8} {R : RegFile} {dir : MoveDirection}
  {c c₀ c₁ : Cell}

/-- The registers after one pass: `BC` says whether the instruction stays. -/
def repeated (dir : MoveDirection) (R : RegFile) : RegFile :=
  if (R.moveOne dir).bc.d ≠ 0 then R.moveOne dir
  else { R.moveOne dir with pc.wl := R.pc.wl + 2 }

/-- `LDIR` and `LDDR`, behind both their bytes. -/
theorem ldRepeat (h : Shows m g s { R with pc.wl := R.pc.wl + 1 + 1 }) (hR : R.Words)
    (hc : g.decode R.hl.wl = some c) :
    Shows (Op.ldRepeat (Op.ldBlock dir.step) m).2 g (BlockCopy.move c (mz700.target g R.de.wl) s)
      (repeated dir R) := by
  have hmoved := ldBlock dir h ⟨hR.pc, hR.bc, hR.de, hR.hl⟩ hc
  have hcount : (Op.ldBlock dir.step m).2.r.bc.d = (R.moveOne dir).bc.d :=
    (congrArg (fun R : RegFile => R.bc.d) hmoved.regs).trans rfl
  simp only [Op.ldRepeat, Cpu.bind_apply, Cpu.reg_apply, hcount]
  rw [repeated]
  split
  · have hback : R.pc.wl + 1 + 1 - 2 = R.pc.wl := by
      rw [UInt16.add_assoc]
      exact UInt16.add_sub_cancel _ 2
    have hagain := (hmoved.cstate 5).pairs fun R => { R with pc.wl := R.pc.wl - 2 }
    have hregs : ({ R.moveOne dir with pc.wl := R.pc.wl + 1 + 1 - 2 } : RegFile) =
        R.moveOne dir := by rw [hback]; rfl
    rw [← hregs]
    exact hagain
  · have hnext : R.pc.wl + 1 + 1 = R.pc.wl + 2 := UInt16.add_assoc ..
    rw [← hnext]
    exact hmoved

/-- One byte is a pass of the loop. -/
theorem movePass (dir : MoveDirection) (h : Shows m g s R) (hR : R.Words)
    (hc : g.decode R.hl.wl = some c) (hc₀ : g.decode R.pc.wl = some c₀) (hed₀ : s c₀ = 0xED)
    (hc₁ : g.decode (R.pc.wl + 1) = some c₁) (hcode : s c₁ = dir.opcode) :
    Shows (M5Z80.pass m) g (BlockCopy.move c (mz700.target g R.de.wl) s) (repeated dir R) := by
  have hed : (Op.opcodeMain Cpu.ei).getD (s c₀).toNat Op.nop =
      Op.prefixed cyclesEd Op.opcodeEd := by
    rw [hed₀]
    rfl
  have hld : Op.opcodeEd.getD (s c₁).toNat Op.nop = Op.ldRepeat (Op.ldBlock dir.step) := by
    rw [hcode]
    cases dir <;> rfl
  refine h.pass hR.pc hc₀ hed fun h => h.prefixed hR.pc hc₁ hld fun h => ?_
  exact ldRepeat h hR hc

end Shows

/-! ## a whole run -/

/-- The program counter is at an `LDIR` or `LDDR` that has `n` bytes to move, out of
cells of the stores, and that is not overwritten before its last byte. -/
structure BlockMove (dir : MoveDirection) (g : BankConfig) (s : Cell → UInt8) (R : RegFile)
    (n : Nat) (src : Nat → Cell) : Prop where
  words : R.Words
  pos : 0 < n
  bound : n ≤ 0x10000
  count : R.bc.wl = .ofNat n
  source : ∀ k < n, g.decode (dir.addr R.hl.wl k) = some (src k)
  first : ∃ c, g.decode R.pc.wl = some c ∧ s c = 0xED ∧
    ∀ k, k + 1 < n → mz700.target g (dir.addr R.de.wl k) ≠ some c
  second : ∃ c, g.decode (R.pc.wl + 1) = some c ∧ s c = dir.opcode ∧
    ∀ k, k + 1 < n → mz700.target g (dir.addr R.de.wl k) ≠ some c

namespace BlockMove

variable {m : Machine} {g : BankConfig} {s : Cell → UInt8} {R : RegFile} {dir : MoveDirection}
  {n : Nat} {src : Nat → Cell}

/-- Where the bytes go. -/
def dst (dir : MoveDirection) (g : BankConfig) (R : RegFile) (k : Nat) : Option Cell :=
  mz700.target g (dir.addr R.de.wl k)

/-- The stores after `k` bytes. -/
abbrev bytes (dir : MoveDirection) (g : BankConfig) (R : RegFile) (src : Nat → Cell) (k : Nat)
    (s : Cell → UInt8) : Cell → UInt8 :=
  BlockCopy.copy src (dst dir g R) k s

/-- A pass moves the next byte. -/
theorem pass (hmove : BlockMove dir g s R n src) {k : Nat} (hk : k < n)
    (h : Shows m g (bytes dir g R src k s) ((RegFile.moveOne dir)^[k] R)) :
    Shows (M5Z80.pass m) g (bytes dir g R src (k + 1) s)
      (Shows.repeated dir ((RegFile.moveOne dir)^[k] R)) := by
  obtain ⟨c₀, hc₀, hed₀, hapart₀⟩ := hmove.first
  obtain ⟨c₁, hc₁, hcode, hapart₁⟩ := hmove.second
  have hkept {c : Cell} (hapart : ∀ k, k + 1 < n → mz700.target g (dir.addr R.de.wl k) ≠ some c) :
      bytes dir g R src k s c = s c :=
    BlockCopy.copy_of_ne fun j hj => hapart j (by omega)
  have hsource : g.decode ((RegFile.moveOne dir)^[k] R).hl.wl = some (src k) := by
    rw [RegFile.iterate_hl]
    exact hmove.source k hk
  have hpass := Shows.movePass dir h (hmove.words.iterate k) hsource
    (by rw [RegFile.iterate_pc]; exact hc₀) ((hkept hapart₀).trans hed₀)
    (by rw [RegFile.iterate_pc]; exact hc₁) ((hkept hapart₁).trans hcode)
  rw [RegFile.iterate_de] at hpass
  exact hpass

/-- `BC` after `k` bytes. -/
theorem iterate_bc (hmove : BlockMove dir g s R n src) {k : Nat} (hk : k < n) :
    ((RegFile.moveOne dir)^[k + 1] R).bc.d ≠ 0 ↔ k + 1 < n := by
  have hbound := hmove.bound
  rw [RegFile.iterate_moveOne hmove.words.bc]
  have hcount : (R.moved dir (k + 1)).bc.d ≠ 0 ↔ R.bc.wl ≠ .ofNat (k + 1) := by
    refine (Pair.d_ne_zero (p := (R.moved dir (k + 1)).bc) hmove.words.bc).trans ?_
    exact not_congr (UInt16.sub_eq_iff_eq_add.trans (by rw [UInt16.zero_add]))
  rw [hcount, hmove.count, Ne, ← UInt16.toNat_inj, UInt16.toNat_ofNat', UInt16.toNat_ofNat']
  omega

/-- Before its last byte the instruction stays where it is. -/
theorem run (hmove : BlockMove dir g s R n src) (h : Shows m g s R) {k : Nat} (hk : k < n) :
    Shows (M5Z80.pass^[k] m) g (bytes dir g R src k s) ((RegFile.moveOne dir)^[k] R) := by
  induction k with
  | zero => exact h
  | succ k ih =>
      have hpass := hmove.pass (by omega) (ih (by omega))
      have hstay := (hmove.iterate_bc (k := k) (by omega)).mpr hk
      rw [Function.iterate_succ_apply'] at hstay
      rw [Shows.repeated, if_pos hstay] at hpass
      rw [Function.iterate_succ_apply', Function.iterate_succ_apply']
      exact hpass

/-- The registers at the end. -/
def final (dir : MoveDirection) (n : Nat) (R : RegFile) : RegFile :=
  { R.setF (R.f &&& movedFlags) with
    pc.wl := R.pc.wl + 2, de.wl := dir.addr R.de.wl n, hl.wl := dir.addr R.hl.wl n, bc.wl := 0 }

/-- After the last byte the closed form is the final one: `BC` is zero and its flag is
clear. -/
theorem final_eq (hmove : BlockMove dir g s R n src) :
    { (RegFile.moveOne dir)^[n] R with pc.wl := R.pc.wl + 2 } = final dir n R := by
  obtain ⟨k, rfl⟩ : ∃ k, n = k + 1 := ⟨n - 1, by have := hmove.pos; omega⟩
  rw [RegFile.iterate_moveOne hmove.words.bc]
  simp only [RegFile.moved, final, hmove.count, ne_eq, not_true_eq_false, if_false, UInt8.or_zero,
    UInt16.sub_self]

/-- The last byte leads to the next instruction. -/
theorem run_last (hmove : BlockMove dir g s R n src) (h : Shows m g s R) :
    Shows (M5Z80.pass^[n] m) g (bytes dir g R src n s) (final dir n R) := by
  obtain ⟨k, hk⟩ : ∃ k, n = k + 1 := ⟨n - 1, by have := hmove.pos; omega⟩
  have hpass := hmove.pass (k := k) (by omega) (hmove.run h (by omega))
  have hdone := (not_congr (hmove.iterate_bc (k := k) (by omega))).mpr (by omega)
  rw [Function.iterate_succ_apply'] at hdone
  rw [Shows.repeated, if_neg hdone, RegFile.iterate_pc] at hpass
  rw [← hmove.final_eq, hk, Function.iterate_succ_apply', Function.iterate_succ_apply']
  exact hpass

end BlockMove

/-! ## blocks that overlap -/

/-- The address that can show a cell. -/
def Cell.address : Cell → Nat
  | .rom i => i
  | .vram i => 0xD000 + i
  | .ram a => a.toNat

/-- A cell can be seen at one address only. -/
theorem BankConfig.address_decode {g : BankConfig} {a : UInt16} {c : Cell}
    (h : g.decode a = some c) : a.toNat = c.address := by
  simp only [BankConfig.decode, UInt16.lt_iff_toNat_lt, UInt16.reduceToNat] at h
  split at h
  · next hlow =>
      split at h
      · cases h
        rfl
      · cases h
        exact (Nat.mod_eq_of_lt hlow).symm
  split at h
  · cases h
    rfl
  split at h
  · cases h
    rfl
  split at h
  · next hram _ hvram =>
      cases h
      have hsub : (a - 0xD000).toNat = a.toNat - 0xD000 := by
        refine UInt16.toNat_sub_of_le _ _ ?_
        rw [UInt16.le_iff_toNat_le]
        exact Nat.le_of_not_lt hram
      simp only [Cell.address, hsub, Fin.ofNat]
      omega
  · cases h

/-- No two addresses show one cell. -/
theorem BankConfig.decode_inj {g : BankConfig} {a b : UInt16} {c : Cell}
    (ha : g.decode a = some c) (hb : g.decode b = some c) : a = b :=
  UInt16.toNat_inj.mp ((address_decode ha).trans (address_decode hb).symm)

namespace BlockMove

variable {m : Machine} {g : BankConfig} {s : Cell → UInt8} {R : RegFile} {dir : MoveDirection}
  {n : Nat} {src : Nat → Cell}

/-- How far the target is ahead of the source; all of 64K when they are the same. -/
def distance (dir : MoveDirection) (R : RegFile) : Nat :=
  if R.de.wl = R.hl.wl then 0x10000 else (dir.step * (R.de.wl - R.hl.wl)).toNat

theorem distance_pos : 0 < distance dir R := by
  rw [distance]
  split
  · decide
  · next hne =>
      refine Nat.pos_of_ne_zero fun h0 => hne ?_
      rw [← dir.addr_toNat R.hl.wl R.de.wl, h0]
      exact MoveDirection.addr_zero

theorem distance_le : distance dir R ≤ 0x10000 := by
  rw [distance]
  split
  · exact Nat.le_refl _
  · exact Nat.le_of_lt (UInt16.toNat_lt _)

/-- The target is the source, the distance on. -/
theorem addr_distance (k : Nat) :
    dir.addr R.de.wl k = dir.addr R.hl.wl (k + distance dir R) := by
  have hde : dir.addr R.hl.wl (distance dir R) = R.de.wl := by
    rw [distance]
    split
    · next heq =>
        have hround : UInt16.ofNat 0x10000 = 0 := by decide
        rw [heq, MoveDirection.addr, hround, UInt16.mul_zero, UInt16.add_zero]
    · exact dir.addr_toNat _ _
  rw [Nat.add_comm, ← MoveDirection.addr_add, hde]

/-- Within 64K no two bytes of the target go to one cell. -/
theorem dst_inj {j k : Nat} {c : Cell} (hj : j < 0x10000) (hk : k < 0x10000)
    (hcj : dst dir g R j = some c) (hck : dst dir g R k = some c) : j = k := by
  have hadr := BankConfig.decode_inj (Option.eq_some_of_filter_eq_some hcj)
    (Option.eq_some_of_filter_eq_some hck)
  have hmod := MoveDirection.addr_inj hadr
  omega

/-- What a whole run leaves in the stores. -/
structure Copied (dir : MoveDirection) (g : BankConfig) (R : RegFile) (n : Nat) (src : Nat → Cell)
    (s s' : Cell → UInt8) : Prop where
  /-- Nothing is written outside the target. -/
  outside : ∀ c, (∀ k < n, dst dir g R k ≠ some c) → s' c = s c
  /-- Every byte of the target that takes writes gets one of the source, whatever
  the rest of the target is. -/
  writable : ∀ k < n, ∀ c, dst dir g R k = some c →
    s' c = s (src (BlockCopy.origin (distance dir R) (dst dir g R) k))
  /-- A target that takes writes gets the source; where it runs into the source,
  it gets what is before it again and again. -/
  target : (∀ k < n, dst dir g R k ≠ none) → ∀ k < n, ∀ c, dst dir g R k = some c →
    s' c = s (src (k % distance dir R))

/-- A byte of the target, followed back to the byte of the source it comes from. -/
theorem copied_writable (hmove : BlockMove dir g s R n src) {k : Nat} (hk : k < n) {c : Cell}
    (hc : dst dir g R k = some c) : bytes dir g R src n s c =
      s (src (BlockCopy.origin (distance dir R) (dst dir g R) k)) := by
  have hbound := hmove.bound
  have hdecode {j : Nat} {c : Cell} (hcj : dst dir g R j = some c) :
      g.decode (dir.addr R.hl.wl (j + distance dir R)) = some c := by
    rw [← addr_distance]
    exact Option.eq_some_of_filter_eq_some hcj
  refine BlockCopy.copy_overlap distance_pos (fun j hj c hcj => ?_) (fun i j c hi hj => ?_)
    (fun i j hij hj hci => ?_) hk hc
  · exact Option.some_inj.mp ((hdecode hcj).symm.trans (hmove.source _ hj))
  · exact dst_inj (by omega) (by omega)
  · -- the target can reach a byte of the source ahead of it only once around
    have hmod := MoveDirection.addr_inj (BankConfig.decode_inj (hdecode hci) (hmove.source j hj))
    have hle : distance dir R ≤ 0x10000 := distance_le
    have hpos : 0 < distance dir R := distance_pos
    omega

/-- The bytes that the passes have moved are the copy that was promised. -/
theorem copied (hmove : BlockMove dir g s R n src) :
    Copied dir g R n src s (bytes dir g R src n s) where
  outside _ hc := BlockCopy.copy_of_ne hc
  writable _ hk _ hc := hmove.copied_writable hk hc
  target hwritable k hk c hc := by
    have hsome (j : Nat) (hj : j < k) : (dst dir g R j).isSome :=
      Option.isSome_iff_ne_none.mpr (hwritable j (by omega))
    rw [hmove.copied_writable hk hc, BlockCopy.origin_eq_mod distance_pos hsome]

/-- A block move in a guest that runs with interrupts disabled: each byte is a
pass of the loop, with the program counter on the instruction until the last. -/
theorem moved_run (hmove : BlockMove dir g s R n src) (h : Shows m g s R) :
    (∀ k < n, (M5Z80.pass^[k] m).r.pc = m.r.pc) ∧
      ∃ s', Shows (M5Z80.pass^[n] m) g s' (final dir n R) ∧ Copied dir g R n src s s' := by
  refine ⟨fun k hk => ?_, _, hmove.run_last h, hmove.copied⟩
  have hk := congrArg RegFile.pc (hmove.run h hk).regs
  rw [RegFile.iterate_pc, ← h.regs] at hk
  exact hk

/-- A machine whose next instruction is an `LDIR` that fills three bytes from `2001`. -/
def fillMachine : Machine :=
  { mzReset 0 Machine.cold with
    mem := fun i => if i = ramStart + 0x1200 then 0xED else if i = ramStart + 0x1201 then 0xB0
      else if i = ramStart + 0x2000 then 0x55 else 0
    r := { Z80Regs.zero with
      pc := ⟨0x1200, 0⟩, hl := ⟨0x2000, 0⟩, de := ⟨0x2001, 0⟩, bc := ⟨3, 0⟩ } }

/-- The cells that the `LDIR` reads. -/
def fillSource (k : Nat) : Cell := .ram (0x2000 + .ofNat k)

/-- The byte at 2000 is repeated in the two behind it, and the address of the loop stays
until the third pass. -/
theorem moved_run_fill :
    (∀ k < 3, (M5Z80.pass^[k] fillMachine).r.pc = fillMachine.r.pc) ∧
      ∃ s', Shows (M5Z80.pass^[3] fillMachine) ⟨false, false⟩ s'
          (final .up 3 fillMachine.r.toRegFile) ∧
        Copied .up ⟨false, false⟩ fillMachine.r.toRegFile 3 fillSource
          (fun c => fillMachine.mem c.place) s' := by
  have hapart : ∀ c ∈ [Cell.ram 0x1200, Cell.ram 0x1201], ∀ k < 2,
      mz700.target ⟨false, false⟩ (MoveDirection.addr .up 0x2001 k) ≠ some c := by decide
  have hmove : BlockMove .up ⟨false, false⟩ (fun c => fillMachine.mem c.place)
      fillMachine.r.toRegFile 3 fillSource :=
    { words := ⟨rfl, rfl, rfl, rfl⟩
      pos := by decide
      bound := by decide
      count := rfl
      source := by decide
      first := ⟨.ram 0x1200, rfl, rfl, fun k hk => hapart _ (by decide) k (by omega)⟩
      second := ⟨.ram 0x1201, rfl, rfl, fun k hk => hapart _ (by decide) k (by omega)⟩ }
  exact moved_run hmove (Shows.of_hasBanks (hasBanks_mzReset 0 Machine.cold) _ rfl)

end BlockMove

end M5Z80
