import M5Z80.Z80.Cpu

/-!
# M5Z80.Z80.Ops

The opcode functions of `z80.c`.  Functions that differ in an operand only
are one definition with that operand as its parameter: `adc_a_b` is
`adcA .b` and `rlc_xix` is `rlc .xix`.  A function that does something the
others of its name do not keeps a definition of its own.
-/

namespace M5Z80

/-! ## operands -/

/-- The byte registers. -/
inductive Reg8
  | a | b | c | d | e | h | l | ixh | ixl | iyh | iyl
deriving DecidableEq

namespace Reg8

/-- The register's value. -/
def get : Reg8 → RegFile → UInt8
  | .a, R => R.af.bh
  | .b, R => R.bc.bh
  | .c, R => R.bc.bl
  | .d, R => R.de.bh
  | .e, R => R.de.bl
  | .h, R => R.hl.bh
  | .l, R => R.hl.bl
  | .ixh, R => R.ix.bh
  | .ixl, R => R.ix.bl
  | .iyh, R => R.iy.bh
  | .iyl, R => R.iy.bl

/-- Assignment to the register. -/
def set : Reg8 → UInt8 → RegFile → RegFile
  | .a, v, R => { R with af := R.af.setBh v }
  | .b, v, R => { R with bc := R.bc.setBh v }
  | .c, v, R => { R with bc := R.bc.setBl v }
  | .d, v, R => { R with de := R.de.setBh v }
  | .e, v, R => { R with de := R.de.setBl v }
  | .h, v, R => { R with hl := R.hl.setBh v }
  | .l, v, R => { R with hl := R.hl.setBl v }
  | .ixh, v, R => { R with ix := R.ix.setBh v }
  | .ixl, v, R => { R with ix := R.ix.setBl v }
  | .iyh, v, R => { R with iy := R.iy.setBh v }
  | .iyl, v, R => { R with iy := R.iy.setBl v }

end Reg8

/-- The register pairs. -/
inductive Reg16
  | af | bc | de | hl | ix | iy | sp
deriving DecidableEq

namespace Reg16

/-- The pair's value. -/
def get : Reg16 → RegFile → Pair
  | .af, R => R.af
  | .bc, R => R.bc
  | .de, R => R.de
  | .hl, R => R.hl
  | .ix, R => R.ix
  | .iy, R => R.iy
  | .sp, R => R.sp

/-- Assignment to the pair. -/
def set : Reg16 → Pair → RegFile → RegFile
  | .af, v, R => { R with af := v }
  | .bc, v, R => { R with bc := v }
  | .de, v, R => { R with de := v }
  | .hl, v, R => { R with hl := v }
  | .ix, v, R => { R with ix := v }
  | .iy, v, R => { R with iy := v }
  | .sp, v, R => { R with sp := v }

end Reg16

/-- The memory operands: `(HL)`, `(IX+d)` and `(IY+d)`. -/
inductive Loc
  | xhl | xix | xiy
deriving DecidableEq

/-- The address of a memory operand. -/
def Loc.addr : Loc → Cpu UInt32
  | .xhl => Cpu.reg (·.hl.d)
  | .xix => Cpu.indexed (·.ix)
  | .xiy => Cpu.indexed (·.iy)

/-- A byte operand in a register or in memory. -/
inductive Opnd
  | reg (r : Reg8)
  | mem (x : Loc)
deriving DecidableEq

namespace Opnd

/-- `A` as an operand. -/
abbrev a : Opnd := .reg .a
/-- `B` as an operand. -/
abbrev b : Opnd := .reg .b
/-- `C` as an operand. -/
abbrev c : Opnd := .reg .c
/-- `D` as an operand. -/
abbrev d : Opnd := .reg .d
/-- `E` as an operand. -/
abbrev e : Opnd := .reg .e
/-- `H` as an operand. -/
abbrev h : Opnd := .reg .h
/-- `L` as an operand. -/
abbrev l : Opnd := .reg .l
/-- `(HL)` as an operand. -/
abbrev xhl : Opnd := .mem .xhl

/-- `byte i = ..`: the operand's value. -/
def read : Opnd → Cpu UInt8
  | .reg r => Cpu.reg (r.get ·.toRegFile)
  | .mem x => do return (← Cpu.rdmem (← x.addr)).toUInt8

/-- Rewrite the operand in place: `f` maps its value and the flags to the
new value and the new flags. -/
def modify (f : UInt8 → UInt8 → UInt8 × UInt8) : Opnd → Cpu Unit
  | .reg r => Cpu.pairs fun R => (r.set (f (r.get R) R.f).1 R).setF (f (r.get R) R.f).2
  | .mem x => do
      let j ← x.addr
      let i := (← Cpu.rdmem j).toUInt8
      let q := f i (← Cpu.reg (·.toRegFile.f))
      Cpu.pairs (·.setF q.2)
      Cpu.wrmem j q.1.toUInt32

end Opnd

/-- The conditions `M_C` to `M_PO`. -/
inductive Cond
  | c | nc | z | nz | m | p | pe | po
deriving DecidableEq

/-- A condition on the flags. -/
def Cond.holds : Cond → UInt8 → Bool
  | .c, f => f &&& cFlag ≠ 0
  | .nc, f => f &&& cFlag = 0
  | .z, f => f &&& zFlag ≠ 0
  | .nz, f => f &&& zFlag = 0
  | .m, f => f &&& sFlag ≠ 0
  | .p, f => f &&& sFlag = 0
  | .pe, f => f &&& vFlag ≠ 0
  | .po, f => f &&& vFlag = 0

namespace Op

open Cpu

/-! ## arithmetic on the accumulator -/

/-- The byte that follows in the program. -/
def nextByte : Cpu UInt8 := do return (← rdmemOpcode).toUInt8

/-- An operation on the accumulator, with a register or memory operand. -/
def alu (f : UInt8 → RegFile → RegFile) (s : Opnd) : Cpu Unit := do
  let i ← s.read
  pairs (f i)

/-- An operation on the accumulator, with an immediate operand. -/
def aluByte (f : UInt8 → RegFile → RegFile) : Cpu Unit := do
  let i ← nextByte
  pairs (f i)

def adcA := alu mAdc
def adcAByte := aluByte mAdc
def addA := alu mAdd
def addAByte := aluByte mAdd
def and := alu mAnd
def andByte := aluByte mAnd
def cp := alu mCp
def cpByte := aluByte mCp
def or := alu mOr
def orByte := aluByte mOr
def sbcA := alu mSbc
def sbcAByte := aluByte mSbc
def sub := alu mSub
def subByte := aluByte mSub
def xor := alu mXor
def xorByte := aluByte mXor

/-- `and_a` only sets the flags. -/
def andA : Cpu Unit := pairs fun R => R.setF (zspTable R.a ||| hFlag)

/-- `or_a` only sets the flags. -/
def orA : Cpu Unit := pairs fun R => R.setF (zspTable R.a)

/-- `sub_a` assigns to the 32 bits of `AF`. -/
def subA : Cpu Unit := pairs fun R => { R with af := Pair.ofD (zFlag ||| nFlag).toUInt32 }

/-- `xor_a` assigns to the 32 bits of `AF`. -/
def xorA : Cpu Unit := pairs fun R => { R with af := Pair.ofD (zFlag ||| vFlag).toUInt32 }

def bit (n : UInt8) := alu (mBit n)

def ccf : Cpu Unit := pairs fun R =>
  R.setF (((R.f &&& (0xED : UInt8)) ||| ((R.f &&& (1 : UInt8)) <<< 4)) ^^^ 1)

def cpl : Cpu Unit := pairs fun R => (R.setA (R.a ^^^ 0xFF)).setF (R.f ||| (hFlag ||| nFlag))

def daa : Cpu Unit := pairs mDaa

def neg : Cpu Unit := pairs fun R => mSub R.a (R.setA 0)

def scf : Cpu Unit := pairs fun R => R.setF ((R.f &&& (0xEC : UInt8)) ||| cFlag)

def rla : Cpu Unit := pairs mRla
def rlca : Cpu Unit := pairs mRlca
def rra : Cpu Unit := pairs mRra
def rrca : Cpu Unit := pairs mRrca

/-! ## bytes in place -/

def dec := Opnd.modify mDec
def inc := Opnd.modify mInc
def res (n : UInt8) := Opnd.modify (mRes n)
def rl := Opnd.modify mRl
def rlc := Opnd.modify mRlc
def rr := Opnd.modify mRr
def rrc := Opnd.modify mRrc
def set (n : UInt8) := Opnd.modify (mSet n)
def sla := Opnd.modify mSla
def sll := Opnd.modify mSll
def sra := Opnd.modify mSra
def srl := Opnd.modify mSrl

/-- `rld`.  The value it writes still has the nibble it shifted out. -/
def rld : Cpu Unit := do
  let hl ← reg (·.hl.d)
  let i := (← rdmem hl).toUInt8
  wrmem hl ((i.toUInt32 <<< 4) ||| ((← reg (·.a)).toUInt32 &&& 0x0F))
  pairs fun R => R.setA ((R.a &&& (0xF0 : UInt8)) ||| (i >>> 4))
  pairs fun R => R.setF ((R.f &&& cFlag) ||| zspTable R.a)

/-- `rrd`. -/
def rrd : Cpu Unit := do
  let hl ← reg (·.hl.d)
  let i := (← rdmem hl).toUInt8
  wrmem hl ((i.toUInt32 >>> 4) ||| ((← reg (·.a)).toUInt32 <<< 4))
  pairs fun R => R.setA ((R.a &&& (0xF0 : UInt8)) ||| (i &&& (0x0F : UInt8)))
  pairs fun R => R.setF ((R.f &&& cFlag) ||| zspTable R.a)

/-! ## 16-bit arithmetic -/

/-- `M_ADDW`: `add_hl_bc` and its kind. -/
def addPair (d s : Reg16) : Cpu Unit := pairs fun R =>
  let q := mAddw (d.get R).d (s.get R).d R.f
  let R := R.setF q.2
  d.set { d.get R with wl := q.1 } R

/-- `M_ADCW`. -/
def adcHl (s : Reg16) : Cpu Unit := pairs fun R =>
  let q := mAdcw R.hl.d (s.get R).d R.af.d
  let R := R.setF q.2
  { R with hl.wl := q.1 }

/-- `M_SBCW`. -/
def sbcHl (s : Reg16) : Cpu Unit := pairs fun R =>
  let q := mSbcw R.hl.d (s.get R).d R.af.d
  let R := R.setF q.2
  { R with hl.wl := q.1 }

/-- `dec_bc` and its kind. -/
def decPair (r : Reg16) : Cpu Unit := pairs fun R =>
  r.set { r.get R with wl := (r.get R).wl - 1 } R

/-- `inc_bc` and its kind. -/
def incPair (r : Reg16) : Cpu Unit := pairs fun R =>
  r.set { r.get R with wl := (r.get R).wl + 1 } R

/-! ## loads -/

/-- `ld_b_c` and its kind, and the loads of a register from memory. -/
def ld (r : Reg8) (s : Opnd) : Cpu Unit := do
  let v ← s.read
  pairs (r.set v)

/-- `ld_b_byte` and its kind. -/
def ldByte (r : Reg8) : Cpu Unit := do
  let v ← nextByte
  pairs (r.set v)

/-- `ld_xhl_b`, `M_WR_XIX` and their kind. -/
def ldLoc (x : Loc) (r : Reg8) : Cpu Unit := do
  let v ← reg (r.get ·.toRegFile)
  let i ← x.addr
  wrmem i v.toUInt32

/-- `ld_xhl_byte`. -/
def ldXhlByte : Cpu Unit := do
  let i ← nextByte
  wrmem (← reg (·.hl.d)) i.toUInt32

/-- `ld_xix_byte` and `ld_xiy_byte`: the displacement comes before the
byte, which is an `int` here. -/
def ldIndexedByte (x : Loc) : Cpu Unit := do
  let i ← x.addr
  let j ← rdmemOpcode
  wrmem i j

/-- `ld_xbc_a` and `ld_xde_a`. -/
def ldXpairA (r : Reg16) : Cpu Unit := do
  wrmem (← reg (r.get ·.toRegFile)).d (← reg (·.a)).toUInt32

/-- `ld_a_xbc` and `ld_a_xde`. -/
def ldAXpair (r : Reg16) : Cpu Unit := do
  let v ← rdmem (← reg (r.get ·.toRegFile)).d
  pairs (·.setA v.toUInt8)

def ldXbyteA : Cpu Unit := do
  let i ← rdmemOpcodeWord
  wrmem i (← reg (·.a)).toUInt32

def ldAXbyte : Cpu Unit := do
  let i ← rdmemOpcodeWord
  let v ← rdmem i
  pairs (·.setA v.toUInt8)

/-- `ld_xword_bc` and its kind. -/
def ldXword (r : Reg16) : Cpu Unit := do
  let i ← rdmemOpcodeWord
  wrmemWord i (← reg (r.get ·.toRegFile)).d

/-- `ld_bc_xword` and its kind. -/
def ldPairXword (r : Reg16) : Cpu Unit := do
  let i ← rdmemOpcodeWord
  let v ← rdmemWord i
  pairs (r.set (Pair.ofD v))

/-- `ld_bc_word` and its kind. -/
def ldWord (r : Reg16) : Cpu Unit := do
  let v ← rdmemOpcodeWord
  pairs (r.set (Pair.ofD v))

/-- `ld_sp_hl`, `ld_sp_ix` and `ld_sp_iy`. -/
def ldSp (r : Reg16) : Cpu Unit := pairs fun R => { R with sp := r.get R }

def ldAI : Cpu Unit := do
  let i ← reg (·.i)
  let iff2 ← reg (·.iff2)
  pairs fun R =>
    (R.setA i.toUInt8).setF ((R.f &&& cFlag) ||| zsTableAt i ||| (iff2 <<< 2).toUInt8)

def ldIA : Cpu Unit := control fun R => { R with i := R.a.toUInt32 }

def ldAR : Cpu Unit := do
  let r ← reg (·.r)
  let r2 ← reg (·.r2)
  let iff2 ← reg (·.iff2)
  pairs fun R => R.setA ((r &&& (127 : UInt32)) ||| (r2 &&& (128 : UInt32))).toUInt8
  pairs fun R => R.setF ((R.f &&& cFlag) ||| zsTable R.a ||| (iff2 <<< 2).toUInt8)

def ldRA : Cpu Unit := control fun R => { R with r := R.a.toUInt32, r2 := R.a.toUInt32 }

/-! ## exchanges -/

/-- `ex_xsp_hl`, `ex_xsp_ix` and `ex_xsp_iy`. -/
def exXsp (r : Reg16) : Cpu Unit := do
  let i ← rdmemWord (← reg (·.sp.d))
  wrmemWord (← reg (·.sp.d)) (← reg (r.get ·.toRegFile)).d
  pairs (r.set (Pair.ofD i))

def exAfAf : Cpu Unit := pairs fun R => { R with af := R.af2, af2 := R.af }

def exDeHl : Cpu Unit := pairs fun R => { R with de := R.hl, hl := R.de }

def exx : Cpu Unit := pairs fun R =>
  { R with bc := R.bc2, bc2 := R.bc, de := R.de2, de2 := R.de, hl := R.hl2, hl2 := R.hl }

/-! ## jumps, calls and the stack -/

/-- A condition on the current flags. -/
def holds (cc : Cond) : Cpu Bool := reg fun R => cc.holds R.f

/-- `jp_c` and its kind. -/
def jpCc (cc : Cond) : Cpu Unit := do
  if ← holds cc then jp else skip 2

/-- `jp_hl`, `jp_ix` and `jp_iy`. -/
def jpPair (r : Reg16) : Cpu Unit := pairs fun R => { R with pc := r.get R }

/-- `jr_c` and its kind. -/
def jrCc (cc : Cond) : Cpu Unit := do
  if ← holds cc then jr else skip 1

def djnz : Cpu Unit := do
  pairs fun R => { R with bc := R.bc.setBh (R.bc.bh - 1) }
  if (← reg (·.bc.bh)) ≠ 0 then jr else skip 1

/-- `call_c` and its kind. -/
def callCc (cc : Cond) : Cpu Unit := do
  if ← holds cc then call else skip 2

/-- `ret_c` and its kind. -/
def retCc (cc : Cond) : Cpu Unit := do
  if ← holds cc then ret

/-- `reti`; `Z80_Reti` does nothing. -/
def reti : Cpu Unit := ret

/-- `retn`; `Z80_Retn` does nothing. -/
def retn : Cpu Unit := do
  control fun R => { R with iff1 := R.iff2 }
  ret

/-- `pop_bc` and its kind. -/
def pop (r : Reg16) : Cpu Unit := popTo r.set

/-- `push_bc` and its kind. -/
def push (r : Reg16) : Cpu Unit := Cpu.push (r.get ·.toRegFile)

/-! ## blocks -/

/-- The end of a repeating block instruction: charge, and back to its
first byte. -/
def again : Cpu Unit := do
  cstate 5
  pairs fun R => { R with pc.wl := R.pc.wl - 2 }

/-- `ldi`, with `d = 1`, and `ldd`, with `d = -1`. -/
def ldBlock (d : UInt16) : Cpu Unit := do
  let v ← rdmem (← reg (·.hl.d))
  wrmem (← reg (·.de.d)) v
  pairs fun R => { R with de.wl := R.de.wl + d, hl.wl := R.hl.wl + d, bc.wl := R.bc.wl - 1 }
  pairs fun R => R.setF ((R.f &&& (0xE9 : UInt8)) ||| (if R.bc.d ≠ 0 then vFlag else 0))

def ldi := ldBlock 1
def ldd := ldBlock (-1)

/-- Repeat while `BC` is not zero. -/
def ldRepeat (step : Cpu Unit) : Cpu Unit := do
  step
  if (← reg (·.bc.d)) ≠ 0 then again

def ldir := ldRepeat ldi
def lddr := ldRepeat ldd

/-- `cpi`, with `d = 1`, and `cpd`, with `d = -1`. -/
def cpBlock (d : UInt16) : Cpu Unit := do
  let i := (← rdmem (← reg (·.hl.d))).toUInt8
  let j := (← reg (·.a)) - i
  pairs fun R => { R with hl.wl := R.hl.wl + d, bc.wl := R.bc.wl - 1 }
  pairs fun R => R.setF ((R.f &&& cFlag) ||| zsTable j ||| ((R.a ^^^ i ^^^ j) &&& hFlag) |||
    (if R.bc.d ≠ 0 then vFlag else 0) ||| nFlag)

def cpi := cpBlock 1
def cpd := cpBlock (-1)

/-- Repeat while `BC` is not zero and nothing was found. -/
def cpRepeat (step : Cpu Unit) : Cpu Unit := do
  step
  if (← reg (·.bc.d)) ≠ 0 ∧ (← reg (·.f)) &&& zFlag = 0 then again

def cpir := cpRepeat cpi
def cpdr := cpRepeat cpd

/-- The flags of a block input or output instruction. -/
def ioFlags : Cpu Unit := pairs fun R =>
  R.setF (if R.bc.bh ≠ 0 then nFlag else nFlag ||| zFlag)

/-- `ini`, with `d = 1`, and `ind`, with `d = -1`. -/
def inBlock (d : UInt16) : Cpu Unit := do
  pairs fun R => { R with bc := R.bc.setBh (R.bc.bh - 1) }
  let v := doIn (← reg (·.bc.bl)) (← reg (·.bc.bh))
  wrmem (← reg (·.hl.d)) v.toUInt32
  pairs fun R => { R with hl.wl := R.hl.wl + d }
  ioFlags

def ini := inBlock 1
def ind := inBlock (-1)

/-- `outi`, with `d = 1`, and `outd`, with `d = -1`. -/
def outBlock (d : UInt16) : Cpu Unit := do
  pairs fun R => { R with bc := R.bc.setBh (R.bc.bh - 1) }
  let v ← rdmem (← reg (·.hl.d))
  doOut (← reg (·.bc.bl)) (← reg (·.bc.bh)) v.toUInt16
  pairs fun R => { R with hl.wl := R.hl.wl + d }
  ioFlags

def outi := outBlock 1
def outd := outBlock (-1)

/-- Repeat while `B` is not zero. -/
def ioRepeat (step : Cpu Unit) : Cpu Unit := do
  step
  if (← reg (·.bc.bh)) ≠ 0 then again

def inir := ioRepeat ini
def indr := ioRepeat ind
def otir := ioRepeat outi
def otdr := ioRepeat outd

/-! ## input and output -/

/-- `M_IN` without its assignment: the byte read, and the flags set. -/
def portIn : Cpu UInt8 := do
  let v := doIn (← reg (·.bc.bl)) (← reg (·.bc.bh))
  return v

/-- `in_b_c` and its kind. -/
def inC (r : Reg8) : Cpu Unit := do
  let v ← portIn
  pairs (r.set v)
  pairs fun R => R.setF ((R.f &&& cFlag) ||| zspTable v)

def in0C : Cpu Unit := do
  let v ← portIn
  pairs fun R => R.setF ((R.f &&& cFlag) ||| zspTable v)

def inAByte : Cpu Unit := do
  let i ← nextByte
  pairs fun R => R.setA (doIn i R.a)

/-- `out_c_b` and its kind. -/
def outC (r : Reg8) : Cpu Unit := do
  doOut (← reg (·.bc.bl)) (← reg (·.bc.bh)) (← reg (r.get ·.toRegFile)).toUInt16

def outC0 : Cpu Unit := do
  doOut (← reg (·.bc.bl)) (← reg (·.bc.bh)) 0

def outByteA : Cpu Unit := do
  let i ← nextByte
  doOut i (← reg (·.a)) (← reg (·.a)).toUInt16

/-! ## the CPU itself -/

def nop : Cpu Unit := pure ()

def di : Cpu Unit := control fun R => { R with iff1 := 0, iff2 := 0 }

/-- `im_0`, `im_1` and `im_2`. -/
def im (n : UInt32) : Cpu Unit := control fun R => { R with im := n }

/-- `halt`: step back onto the instruction, and give up the rest of the
budget. -/
def halt : Cpu Unit := fun m =>
  ((), { m with
    r.pc.wl := m.r.pc.wl - 1
    r.halt := 1
    z80ICount := if 0 < m.z80ICount then 0 else m.z80ICount })

/-- `no_op`: step back, so that the byte after a prefix runs on its own. -/
def noOp : Cpu Unit := pairs fun R => { R with pc.wl := R.pc.wl - 1 }

/-- `no_op_xx`. -/
def noOpXx : Cpu Unit := skip 1

end Op

end M5Z80
