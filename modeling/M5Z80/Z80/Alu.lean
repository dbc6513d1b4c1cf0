import M5Z80.Z80.Daa

/-!
# M5Z80.Z80.Alu

The arithmetic of `Z80Codes.h`: flag tables and the macros that compute on
the accumulator, on a byte or on a pair.  An `int` of a macro is the
`UInt32` with the same bits.  Macros that rewrite a byte in place are
functions from the byte and the flags to both.
-/

namespace M5Z80

/-- `S_FLAG`. -/
def sFlag : UInt8 := 0x80

/-- `Z_FLAG`. -/
def zFlag : UInt8 := 0x40

/-- `H_FLAG`. -/
def hFlag : UInt8 := 0x10

/-- `V_FLAG`. -/
def vFlag : UInt8 := 0x04

/-- `N_FLAG`. -/
def nFlag : UInt8 := 0x02

/-- `C_FLAG`. -/
def cFlag : UInt8 := 0x01

/-! ## flag tables -/

/-- `PTable[v]`: even parity sets the flag. -/
def pTable (v : UInt8) : UInt8 :=
  let p := (List.range 8).countP fun k => (v >>> k.toUInt8) &&& 1 ≠ 0
  if p % 2 = 1 then 0 else vFlag

/-- `ZSTable[v]` for a byte. -/
def zsTable (v : UInt8) : UInt8 :=
  (if v = 0 then zFlag else 0) ||| (if v &&& 0x80 ≠ 0 then sFlag else 0)

/-- `ZSPTable[v]` for a byte. -/
def zspTable (v : UInt8) : UInt8 := zsTable v ||| pTable v

/-- `ZSTable[i]` for an `unsigned` index: the upper half repeats the lower
one with the carry set. -/
def zsTableAt (i : UInt32) : UInt8 :=
  if i < 256 then zsTable i.toUInt8
  else if i < 512 then zsTable i.toUInt8 ||| cFlag
  else 0

namespace RegFile

/-- The accumulator. -/
def a (R : RegFile) : UInt8 := R.af.bh

/-- The flags. -/
def f (R : RegFile) : UInt8 := R.af.bl

/-- Assignment to the accumulator. -/
def setA (v : UInt8) (R : RegFile) : RegFile := { R with af := R.af.setBh v }

/-- Assignment to the flags. -/
def setF (v : UInt8) (R : RegFile) : RegFile := { R with af := R.af.setBl v }

end RegFile

/-! ## accumulator and byte -/

/-- `M_AND`. -/
def mAnd (reg : UInt8) (R : RegFile) : RegFile :=
  let R := R.setA (R.a &&& reg)
  R.setF (zspTable R.a ||| hFlag)

/-- `M_OR`. -/
def mOr (reg : UInt8) (R : RegFile) : RegFile :=
  let R := R.setA (R.a ||| reg)
  R.setF (zspTable R.a)

/-- `M_XOR`. -/
def mXor (reg : UInt8) (R : RegFile) : RegFile :=
  let R := R.setA (R.a ^^^ reg)
  R.setF (zspTable R.a)

/-- The flags `M_ADD` and `M_ADC` build from the accumulator, the operand
(with the carry folded in) and the sum. -/
def addFlags (a r q : UInt32) : UInt8 :=
  zsTable q.toUInt8 ||| ((q &&& 256) >>> 8).toUInt8 |||
    ((a ^^^ q ^^^ r) &&& hFlag.toUInt32).toUInt8 |||
    (((r ^^^ a ^^^ 0x80) &&& (r ^^^ q) &&& (0x80 : UInt32)) >>> 5).toUInt8

/-- The flags `M_SUB`, `M_SBC` and `M_CP` build from the accumulator, the
operand and the difference. -/
def subFlags (a r q : UInt32) : UInt8 :=
  zsTable q.toUInt8 ||| ((q &&& 256) >>> 8).toUInt8 ||| nFlag |||
    ((a ^^^ q ^^^ r) &&& hFlag.toUInt32).toUInt8 |||
    (((r ^^^ a) &&& (r ^^^ q ^^^ 0x80) &&& (0x80 : UInt32)) >>> 5).toUInt8

/-- `M_ADD`. -/
def mAdd (reg : UInt8) (R : RegFile) : RegFile :=
  let q := R.a.toUInt32 + reg.toUInt32
  (R.setF (addFlags R.a.toUInt32 reg.toUInt32 q)).setA q.toUInt8

/-- `M_ADC`. -/
def mAdc (reg : UInt8) (R : RegFile) : RegFile :=
  let r := reg.toUInt32 + (R.f &&& cFlag).toUInt32
  let q := R.a.toUInt32 + r
  (R.setF (addFlags R.a.toUInt32 r q)).setA q.toUInt8

/-- `M_SUB`. -/
def mSub (reg : UInt8) (R : RegFile) : RegFile :=
  let q := R.a.toUInt32 - reg.toUInt32
  (R.setF (subFlags R.a.toUInt32 reg.toUInt32 q)).setA q.toUInt8

/-- `M_SBC`. -/
def mSbc (reg : UInt8) (R : RegFile) : RegFile :=
  let r := reg.toUInt32 + (R.f &&& cFlag).toUInt32
  let q := R.a.toUInt32 - r
  (R.setF (subFlags R.a.toUInt32 r q)).setA q.toUInt8

/-- `M_CP`. -/
def mCp (reg : UInt8) (R : RegFile) : RegFile :=
  let q := R.a.toUInt32 - reg.toUInt32
  R.setF (subFlags R.a.toUInt32 reg.toUInt32 q)

/-- `M_BIT`. -/
def mBit (bit : UInt8) (reg : UInt8) (R : RegFile) : RegFile :=
  R.setF ((R.f &&& cFlag) ||| hFlag |||
    (if reg &&& (1 <<< bit) ≠ 0 then (if bit = 7 then sFlag else 0) else zFlag))

/-! ## a byte in place -/

/-- `M_INC`. -/
def mInc (reg f : UInt8) : UInt8 × UInt8 :=
  let reg := reg + 1
  (reg, (f &&& cFlag) ||| zsTable reg ||| (if reg = 0x80 then vFlag else 0) |||
    (if reg &&& 0x0F ≠ 0 then 0 else hFlag))

/-- `M_DEC`. -/
def mDec (reg f : UInt8) : UInt8 × UInt8 :=
  let reg := reg - 1
  (reg, (f &&& cFlag) ||| nFlag ||| (if reg = 0x80 then vFlag else 0) |||
    (if reg &&& 0x0F ≠ 0 then 0 else hFlag) ||| zsTable reg)

/-- The common end of the shift and rotate macros: `q` is the bit that
falls out. -/
def shifted (reg q : UInt8) : UInt8 × UInt8 := (reg, zspTable reg ||| q)

/-- `M_RLC`. -/
def mRlc (reg _f : UInt8) : UInt8 × UInt8 := shifted ((reg <<< 1) ||| (reg >>> 7)) (reg >>> 7)

/-- `M_RRC`. -/
def mRrc (reg _f : UInt8) : UInt8 × UInt8 :=
  shifted ((reg >>> 1) ||| ((reg &&& (1 : UInt8)) <<< 7)) (reg &&& 1)

/-- `M_RL`. -/
def mRl (reg f : UInt8) : UInt8 × UInt8 :=
  shifted ((reg <<< 1) ||| (f &&& (1 : UInt8))) (reg >>> 7)

/-- `M_RR`. -/
def mRr (reg f : UInt8) : UInt8 × UInt8 := shifted ((reg >>> 1) ||| (f <<< 7)) (reg &&& 1)

/-- `M_SLL`. -/
def mSll (reg _f : UInt8) : UInt8 × UInt8 := shifted ((reg <<< 1) ||| (1 : UInt8)) (reg >>> 7)

/-- `M_SLA`. -/
def mSla (reg _f : UInt8) : UInt8 × UInt8 := shifted (reg <<< 1) (reg >>> 7)

/-- `M_SRL`. -/
def mSrl (reg _f : UInt8) : UInt8 × UInt8 := shifted (reg >>> 1) (reg &&& 1)

/-- `M_SRA`. -/
def mSra (reg _f : UInt8) : UInt8 × UInt8 :=
  shifted ((reg >>> 1) ||| (reg &&& (0x80 : UInt8))) (reg &&& 1)

/-- `M_SET`. -/
def mSet (bit reg f : UInt8) : UInt8 × UInt8 := (reg ||| (1 <<< bit), f)

/-- `M_RES`. -/
def mRes (bit reg f : UInt8) : UInt8 × UInt8 := (reg &&& ~~~(1 <<< bit), f)

/-! ## the accumulator alone -/

/-- `M_RLCA`. -/
def mRlca (R : RegFile) : RegFile :=
  let R := R.setA ((R.a <<< 1) ||| ((R.a &&& (0x80 : UInt8)) >>> 7))
  R.setF ((R.f &&& (0xEC : UInt8)) ||| (R.a &&& cFlag))

/-- `M_RRCA`. -/
def mRrca (R : RegFile) : RegFile :=
  let R := R.setF ((R.f &&& (0xEC : UInt8)) ||| (R.a &&& (0x01 : UInt8)))
  R.setA ((R.a >>> 1) ||| (R.a <<< 7))

/-- `M_RLA`. -/
def mRla (R : RegFile) : RegFile :=
  let i := R.f &&& cFlag
  let R := R.setF ((R.f &&& (0xEC : UInt8)) ||| ((R.a &&& (0x80 : UInt8)) >>> 7))
  R.setA ((R.a <<< 1) ||| i)

/-- `M_RRA`. -/
def mRra (R : RegFile) : RegFile :=
  let i := R.f &&& cFlag
  let R := R.setF ((R.f &&& (0xEC : UInt8)) ||| (R.a &&& (0x01 : UInt8)))
  R.setA ((R.a >>> 1) ||| (i <<< 7))

/-- `daa`. -/
def mDaa (R : RegFile) : RegFile :=
  let i := R.a.toNat + (if R.f &&& cFlag ≠ 0 then 256 else 0) +
    (if R.f &&& hFlag ≠ 0 then 512 else 0) + (if R.f &&& nFlag ≠ 0 then 1024 else 0)
  { R with af := { R.af with wl := daaTable i } }

/-! ## pairs -/

/-- `M_ADDW`, on the values of the two pairs: the low word of the result
and the flags. -/
def mAddw (d1 d2 : UInt32) (f : UInt8) : UInt16 × UInt8 :=
  let q := d1 + d2
  (q.toUInt16, (f &&& (sFlag ||| zFlag ||| vFlag)) |||
    (((d1 ^^^ q ^^^ d2) &&& (0x1000 : UInt32)) >>> 8).toUInt8 ||| ((q >>> 16) &&& 1).toUInt8)

/-- `M_ADCW`. -/
def mAdcw (hl d af : UInt32) : UInt16 × UInt8 :=
  let r := d + (af &&& cFlag.toUInt32)
  let q := hl + r
  (q.toUInt16, (((hl ^^^ q ^^^ r) &&& (0x1000 : UInt32)) >>> 8).toUInt8 |||
    ((q >>> 16) &&& 1).toUInt8 ||| ((q &&& (0x8000 : UInt32)) >>> 8).toUInt8 |||
    (if q &&& 65535 ≠ 0 then 0 else zFlag) |||
    (((r ^^^ hl ^^^ 0x8000) &&& (r ^^^ q) &&& (0x8000 : UInt32)) >>> 13).toUInt8)

/-- `M_SBCW`. -/
def mSbcw (hl d af : UInt32) : UInt16 × UInt8 :=
  let r := d + (af &&& cFlag.toUInt32)
  let q := hl - r
  (q.toUInt16, (((hl ^^^ q ^^^ r) &&& (0x1000 : UInt32)) >>> 8).toUInt8 |||
    ((q >>> 16) &&& 1).toUInt8 ||| ((q &&& (0x8000 : UInt32)) >>> 8).toUInt8 |||
    (if q &&& 65535 ≠ 0 then 0 else zFlag) |||
    (((r ^^^ hl) &&& (r ^^^ q ^^^ 0x8000) &&& (0x8000 : UInt32)) >>> 13).toUInt8 ||| nFlag)

end M5Z80
