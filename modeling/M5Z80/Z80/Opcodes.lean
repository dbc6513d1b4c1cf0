import M5Z80.Z80.Ops

/-!
# M5Z80.Z80.Opcodes

The opcode tables of `z80.c`, the cycle tables that go with them, and the
prefixes that dispatch through them.  The tables are written out row by row
as in the source, the `CB` tables by their pattern.  The tables for `DD` and
`FD` differ in the index register only.
-/

namespace M5Z80

/-! ## cycle tables -/

/-- `cycles_main`. -/
def cyclesMain : List Nat :=
  [
    4, 10, 7, 6, 4, 4, 7, 4, 4, 11, 7, 6, 4, 4, 7, 4,
    8, 10, 7, 6, 4, 4, 7, 4, 7, 11, 7, 6, 4, 4, 7, 4,
    7, 10, 16, 6, 4, 4, 7, 4, 7, 11, 16, 6, 4, 4, 7, 4,
    7, 10, 13, 6, 11, 11, 10, 4, 7, 11, 13, 6, 4, 4, 7, 4,
    4, 4, 4, 4, 4, 4, 7, 4, 4, 4, 4, 4, 4, 4, 7, 4,
    4, 4, 4, 4, 4, 4, 7, 4, 4, 4, 4, 4, 4, 4, 7, 4,
    4, 4, 4, 4, 4, 4, 7, 4, 4, 4, 4, 4, 4, 4, 7, 4,
    7, 7, 7, 7, 7, 7, 4, 7, 4, 4, 4, 4, 4, 4, 7, 4,
    4, 4, 4, 4, 4, 4, 7, 4, 4, 4, 4, 4, 4, 4, 7, 4,
    4, 4, 4, 4, 4, 4, 7, 4, 4, 4, 4, 4, 4, 4, 7, 4,
    4, 4, 4, 4, 4, 4, 7, 4, 4, 4, 4, 4, 4, 4, 7, 4,
    4, 4, 4, 4, 4, 4, 7, 4, 4, 4, 4, 4, 4, 4, 7, 4,
    5, 10, 10, 10, 10, 11, 7, 11, 5, 4, 10, 0, 10, 10, 7, 11,
    5, 10, 10, 11, 10, 11, 7, 11, 5, 4, 10, 11, 10, 0, 7, 11,
    5, 10, 10, 19, 10, 11, 7, 11, 5, 4, 10, 4, 10, 0, 7, 11,
    5, 10, 10, 4, 10, 11, 7, 11, 5, 6, 10, 4, 10, 0, 7, 11
  ]

/-- `cycles_cb`. -/
def cyclesCb : List Nat :=
  [
    8, 8, 8, 8, 8, 8, 15, 8, 8, 8, 8, 8, 8, 8, 15, 8,
    8, 8, 8, 8, 8, 8, 15, 8, 8, 8, 8, 8, 8, 8, 15, 8,
    8, 8, 8, 8, 8, 8, 15, 8, 8, 8, 8, 8, 8, 8, 15, 8,
    8, 8, 8, 8, 8, 8, 15, 8, 8, 8, 8, 8, 8, 8, 15, 8,
    8, 8, 8, 8, 8, 8, 12, 8, 8, 8, 8, 8, 8, 8, 12, 8,
    8, 8, 8, 8, 8, 8, 12, 8, 8, 8, 8, 8, 8, 8, 12, 8,
    8, 8, 8, 8, 8, 8, 12, 8, 8, 8, 8, 8, 8, 8, 12, 8,
    8, 8, 8, 8, 8, 8, 12, 8, 8, 8, 8, 8, 8, 8, 12, 8,
    8, 8, 8, 8, 8, 8, 15, 8, 8, 8, 8, 8, 8, 8, 15, 8,
    8, 8, 8, 8, 8, 8, 15, 8, 8, 8, 8, 8, 8, 8, 15, 8,
    8, 8, 8, 8, 8, 8, 15, 8, 8, 8, 8, 8, 8, 8, 15, 8,
    8, 8, 8, 8, 8, 8, 15, 8, 8, 8, 8, 8, 8, 8, 15, 8,
    8, 8, 8, 8, 8, 8, 15, 8, 8, 8, 8, 8, 8, 8, 15, 8,
    8, 8, 8, 8, 8, 8, 15, 8, 8, 8, 8, 8, 8, 8, 15, 8,
    8, 8, 8, 8, 8, 8, 15, 8, 8, 8, 8, 8, 8, 8, 15, 8,
    8, 8, 8, 8, 8, 8, 15, 8, 8, 8, 8, 8, 8, 8, 15, 8
  ]

/-- `cycles_xx_cb`. -/
def cyclesXxCb : List Nat :=
  [
    0, 0, 0, 0, 0, 0, 23, 0, 0, 0, 0, 0, 0, 0, 23, 0,
    0, 0, 0, 0, 0, 0, 23, 0, 0, 0, 0, 0, 0, 0, 23, 0,
    0, 0, 0, 0, 0, 0, 23, 0, 0, 0, 0, 0, 0, 0, 23, 0,
    0, 0, 0, 0, 0, 0, 23, 0, 0, 0, 0, 0, 0, 0, 23, 0,
    20, 20, 20, 20, 20, 20, 20, 20, 20, 20, 20, 20, 20, 20, 20, 20,
    20, 20, 20, 20, 20, 20, 20, 20, 20, 20, 20, 20, 20, 20, 20, 20,
    20, 20, 20, 20, 20, 20, 20, 20, 20, 20, 20, 20, 20, 20, 20, 20,
    20, 20, 20, 20, 20, 20, 20, 20, 20, 20, 20, 20, 20, 20, 20, 20,
    0, 0, 0, 0, 0, 0, 23, 0, 0, 0, 0, 0, 0, 0, 23, 0,
    0, 0, 0, 0, 0, 0, 23, 0, 0, 0, 0, 0, 0, 0, 23, 0,
    0, 0, 0, 0, 0, 0, 23, 0, 0, 0, 0, 0, 0, 0, 23, 0,
    0, 0, 0, 0, 0, 0, 23, 0, 0, 0, 0, 0, 0, 0, 23, 0,
    0, 0, 0, 0, 0, 0, 23, 0, 0, 0, 0, 0, 0, 0, 23, 0,
    0, 0, 0, 0, 0, 0, 23, 0, 0, 0, 0, 0, 0, 0, 23, 0,
    0, 0, 0, 0, 0, 0, 23, 0, 0, 0, 0, 0, 0, 0, 23, 0,
    0, 0, 0, 0, 0, 0, 23, 0, 0, 0, 0, 0, 0, 0, 23, 0
  ]

/-- `cycles_xx`. -/
def cyclesXx : List Nat :=
  [
    0, 0, 0, 0, 0, 0, 0, 0, 0, 15, 0, 0, 0, 0, 0, 0,
    0, 0, 0, 0, 0, 0, 0, 0, 0, 15, 0, 0, 0, 0, 0, 0,
    0, 14, 20, 10, 9, 9, 9, 0, 0, 15, 20, 10, 9, 9, 9, 0,
    0, 0, 0, 0, 23, 23, 19, 0, 0, 15, 0, 0, 0, 0, 0, 0,
    0, 0, 0, 0, 9, 9, 19, 0, 0, 0, 0, 0, 9, 9, 19, 0,
    0, 0, 0, 0, 9, 9, 19, 0, 0, 0, 0, 0, 9, 9, 19, 0,
    9, 9, 9, 9, 9, 9, 9, 9, 9, 9, 9, 9, 9, 9, 9, 9,
    19, 19, 19, 19, 19, 19, 19, 19, 0, 0, 0, 0, 9, 9, 19, 0,
    0, 0, 0, 0, 9, 9, 19, 0, 0, 0, 0, 0, 9, 9, 19, 0,
    0, 0, 0, 0, 9, 9, 19, 0, 0, 0, 0, 0, 9, 9, 19, 0,
    0, 0, 0, 0, 9, 9, 19, 0, 0, 0, 0, 0, 9, 9, 19, 0,
    0, 0, 0, 0, 9, 9, 19, 0, 0, 0, 0, 0, 9, 9, 19, 0,
    0, 0, 0, 0, 0, 0, 0, 0, 0, 0, 0, 0, 0, 0, 0, 0,
    0, 0, 0, 0, 0, 0, 0, 0, 0, 0, 0, 0, 0, 0, 0, 0,
    0, 14, 0, 23, 0, 15, 0, 0, 0, 8, 0, 0, 0, 0, 0, 0,
    0, 0, 0, 0, 0, 0, 0, 0, 0, 10, 0, 0, 0, 0, 0, 0
  ]

/-- `cycles_ed`. -/
def cyclesEd : List Nat :=
  [
    0, 0, 0, 0, 0, 0, 0, 0, 0, 0, 0, 0, 0, 0, 0, 0,
    0, 0, 0, 0, 0, 0, 0, 0, 0, 0, 0, 0, 0, 0, 0, 0,
    0, 0, 0, 0, 0, 0, 0, 0, 0, 0, 0, 0, 0, 0, 0, 0,
    0, 0, 0, 0, 0, 0, 0, 0, 0, 0, 0, 0, 0, 0, 0, 0,
    12, 12, 15, 20, 8, 8, 8, 9, 12, 12, 15, 20, 8, 8, 8, 9,
    12, 12, 15, 20, 8, 8, 8, 9, 12, 12, 15, 20, 8, 8, 8, 9,
    12, 12, 15, 20, 8, 8, 8, 18, 12, 12, 15, 20, 8, 8, 8, 18,
    12, 12, 15, 20, 8, 8, 8, 0, 12, 12, 15, 20, 8, 8, 8, 0,
    0, 0, 0, 0, 0, 0, 0, 0, 0, 0, 0, 0, 0, 0, 0, 0,
    0, 0, 0, 0, 0, 0, 0, 0, 0, 0, 0, 0, 0, 0, 0, 0,
    16, 16, 16, 16, 0, 0, 0, 0, 16, 16, 16, 16, 0, 0, 0, 0,
    0, 0, 0, 0, 0, 0, 0, 0, 0, 0, 0, 0, 0, 0, 0, 0,
    0, 0, 0, 0, 0, 0, 0, 0, 0, 0, 0, 0, 0, 0, 0, 0,
    0, 0, 0, 0, 0, 0, 0, 0, 0, 0, 0, 0, 0, 0, 0, 0,
    0, 0, 0, 0, 0, 0, 0, 0, 0, 0, 0, 0, 0, 0, 0, 0,
    0, 0, 0, 0, 0, 0, 0, 0, 0, 0, 0, 0, 0, 0, 0, 0
  ]

/-! ## dispatch -/

/-- An index register: its pair, its halves and its memory operand. -/
structure Index where
  pair : Reg16
  hi : Reg8
  lo : Reg8
  loc : Loc

namespace Index

/-- The index register of the `DD` prefix. -/
def ix : Index := ⟨.ix, .ixh, .ixl, .xix⟩

/-- The index register of the `FD` prefix. -/
def iy : Index := ⟨.iy, .iyh, .iyl, .xiy⟩

/-- The high half as an operand. -/
abbrev xh (i : Index) : Opnd := .reg i.hi

/-- The low half as an operand. -/
abbrev xl (i : Index) : Opnd := .reg i.lo

/-- The memory operand as an operand. -/
abbrev xm (i : Index) : Opnd := .mem i.loc

end Index

namespace Op

open Cpu

/-- `M_CSTATE(cycles[opcode]); (*(table[opcode]))();` -/
def dispatch (cycles : List Nat) (table : List (Cpu Unit)) (opcode : UInt32) : Cpu Unit :=
  if opcode < 256 then do
    cstate (cycles.getD opcode.toNat 0)
    table.getD opcode.toNat nop
  else wild opcode

/-- An entry of an opcode table, and the T-states it is charged. -/
theorem dispatch_apply {cycles : List Nat} {table : List (Cpu Unit)} {opcode : UInt32} {c : Nat}
    {f : Cpu Unit} (h : opcode < 256) (hc : cycles.getD opcode.toNat 0 = c)
    (hf : table.getD opcode.toNat nop = f) (m : Machine) :
    dispatch cycles table opcode m = f (mCstate c m) := by
  rw [dispatch, if_pos h, hc, hf]
  rfl

/-- `++R.R`. -/
def incR : Cpu Unit := control fun R => { R with r := R.r + 1 }

/-- A prefix: the next byte selects the function. -/
def prefixed (cycles : List Nat) (table : List (Cpu Unit)) : Cpu Unit := do
  incR
  let opcode ← rdmemOpcode
  dispatch cycles table opcode

/-! ## the `CB` tables -/

/-- A row of `opcode_cb`: one function on its eight operands. -/
def cbRow (f : Opnd → Cpu Unit) : List (Cpu Unit) :=
  [f .b, f .c, f .d, f .e, f .h, f .l, f .xhl, f .a]

/-- `opcode_cb`. -/
def opcodeCb : List (Cpu Unit) :=
  ([rlc, rrc, rl, rr, sla, sra, sll, srl,
    bit 0, bit 1, bit 2, bit 3, bit 4, bit 5, bit 6, bit 7,
    res 0, res 1, res 2, res 3, res 4, res 5, res 6, res 7,
    set 0, set 1, set 2, set 3, set 4, set 5, set 6, set 7].map cbRow).flatten

/-- `cb`. -/
def cb : Cpu Unit := prefixed cyclesCb opcodeCb

/-- A row of `opcode_dd_cb` with one function among undefined codes. -/
def xxCbRow (f : Cpu Unit) : List (Cpu Unit) :=
  [noOpXx, noOpXx, noOpXx, noOpXx, noOpXx, noOpXx, f, noOpXx]

/-- `opcode_dd_cb` and `opcode_fd_cb`. -/
def opcodeXxCb (i : Index) : List (Cpu Unit) :=
  ([rlc, rrc, rl, rr, sla, sra, sll, srl].map fun f => xxCbRow (f i.xm)).flatten ++
    ([0, 1, 2, 3, 4, 5, 6, 7].map fun n => List.replicate 8 (bit n i.xm)).flatten ++
    ([0, 1, 2, 3, 4, 5, 6, 7].map fun n => xxCbRow (res n i.xm)).flatten ++
    ([0, 1, 2, 3, 4, 5, 6, 7].map fun n => xxCbRow (set n i.xm)).flatten

/-- `dd_cb` and `fd_cb`: the opcode stands behind the displacement. -/
def xxCb (i : Index) : Cpu Unit := do
  let opcode ← rdmem (((← reg (·.pc.d)) + 1) &&& 0xFFFF)
  dispatch cyclesXxCb (opcodeXxCb i) opcode
  skip 1

/-! ## the other prefixes -/

/-- `opcode_dd` and `opcode_fd`. -/
def opcodeXx (i : Index) : List (Cpu Unit) :=
  [
    noOp, noOp, noOp, noOp, noOp, noOp, noOp, noOp,
    noOp, addPair i.pair .bc, noOp, noOp, noOp, noOp, noOp, noOp,
    noOp, noOp, noOp, noOp, noOp, noOp, noOp, noOp,
    noOp, addPair i.pair .de, noOp, noOp, noOp, noOp, noOp, noOp,
    noOp, ldWord i.pair, ldXword i.pair, incPair i.pair, inc i.xh, dec i.xh, ldByte i.hi, noOp,
    noOp, addPair i.pair i.pair, ldPairXword i.pair, decPair i.pair, inc i.xl, dec i.xl,
      ldByte i.lo, noOp,
    noOp, noOp, noOp, noOp, inc i.xm, dec i.xm, ldIndexedByte i.loc, noOp,
    noOp, addPair i.pair .sp, noOp, noOp, noOp, noOp, noOp, noOp,
    noOp, noOp, noOp, noOp, ld .b i.xh, ld .b i.xl, ld .b i.xm, noOp,
    noOp, noOp, noOp, noOp, ld .c i.xh, ld .c i.xl, ld .c i.xm, noOp,
    noOp, noOp, noOp, noOp, ld .d i.xh, ld .d i.xl, ld .d i.xm, noOp,
    noOp, noOp, noOp, noOp, ld .e i.xh, ld .e i.xl, ld .e i.xm, noOp,
    ld i.hi .b, ld i.hi .c, ld i.hi .d, ld i.hi .e, ld i.hi i.xh, ld i.hi i.xl, ld .h i.xm,
      ld i.hi .a,
    ld i.lo .b, ld i.lo .c, ld i.lo .d, ld i.lo .e, ld i.lo i.xh, ld i.lo i.xl, ld .l i.xm,
      ld i.lo .a,
    ldLoc i.loc .b, ldLoc i.loc .c, ldLoc i.loc .d, ldLoc i.loc .e, ldLoc i.loc .h,
      ldLoc i.loc .l, noOp, ldLoc i.loc .a,
    noOp, noOp, noOp, noOp, ld .a i.xh, ld .a i.xl, ld .a i.xm, noOp,
    noOp, noOp, noOp, noOp, addA i.xh, addA i.xl, addA i.xm, noOp,
    noOp, noOp, noOp, noOp, adcA i.xh, adcA i.xl, adcA i.xm, noOp,
    noOp, noOp, noOp, noOp, sub i.xh, sub i.xl, sub i.xm, noOp,
    noOp, noOp, noOp, noOp, sbcA i.xh, sbcA i.xl, sbcA i.xm, noOp,
    noOp, noOp, noOp, noOp, and i.xh, and i.xl, and i.xm, noOp,
    noOp, noOp, noOp, noOp, xor i.xh, xor i.xl, xor i.xm, noOp,
    noOp, noOp, noOp, noOp, or i.xh, or i.xl, or i.xm, noOp,
    noOp, noOp, noOp, noOp, cp i.xh, cp i.xl, cp i.xm, noOp,
    noOp, noOp, noOp, noOp, noOp, noOp, noOp, noOp,
    noOp, noOp, noOp, xxCb i, noOp, noOp, noOp, noOp,
    noOp, noOp, noOp, noOp, noOp, noOp, noOp, noOp,
    noOp, noOp, noOp, noOp, noOp, noOp, noOp, noOp,
    noOp, pop i.pair, noOp, exXsp i.pair, noOp, push i.pair, noOp, noOp,
    noOp, jpPair i.pair, noOp, noOp, noOp, noOp, noOp, noOp,
    noOp, noOp, noOp, noOp, noOp, noOp, noOp, noOp,
    noOp, ldSp i.pair, noOp, noOp, noOp, noOp, noOp, noOp
  ]

/-- `opcode_ed`. -/
def opcodeEd : List (Cpu Unit) :=
  [
    nop, nop, nop, nop, nop, nop, nop, nop,
    nop, nop, nop, nop, nop, nop, nop, nop,
    nop, nop, nop, nop, nop, nop, nop, nop,
    nop, nop, nop, nop, nop, nop, nop, nop,
    nop, nop, nop, nop, nop, nop, nop, nop,
    nop, nop, nop, nop, nop, nop, nop, nop,
    nop, nop, nop, nop, nop, nop, nop, nop,
    nop, nop, nop, nop, nop, nop, nop, nop,
    inC .b, outC .b, sbcHl .bc, ldXword .bc, neg, retn, im 0, ldIA,
    inC .c, outC .c, adcHl .bc, ldPairXword .bc, neg, reti, im 0, ldRA,
    inC .d, outC .d, sbcHl .de, ldXword .de, neg, retn, im 1, ldAI,
    inC .e, outC .e, adcHl .de, ldPairXword .de, neg, reti, im 2, ldAR,
    inC .h, outC .h, sbcHl .hl, ldXword .hl, neg, retn, im 0, rrd,
    inC .l, outC .l, adcHl .hl, ldPairXword .hl, neg, reti, im 0, rld,
    in0C, outC0, sbcHl .sp, ldXword .sp, neg, retn, im 1, nop,
    inC .a, outC .a, adcHl .sp, ldPairXword .sp, neg, reti, im 2, nop,
    nop, nop, nop, nop, nop, nop, nop, nop,
    nop, nop, nop, nop, nop, nop, nop, nop,
    nop, nop, nop, nop, nop, nop, nop, nop,
    nop, nop, nop, nop, nop, nop, nop, nop,
    ldi, cpi, ini, outi, nop, nop, nop, nop,
    ldd, cpd, ind, outd, nop, nop, nop, nop,
    ldir, cpir, inir, otir, nop, nop, nop, nop,
    lddr, cpdr, indr, otdr, nop, nop, nop, nop,
    nop, nop, nop, nop, nop, nop, nop, nop,
    nop, nop, nop, nop, nop, nop, nop, nop,
    nop, nop, nop, nop, nop, nop, nop, nop,
    nop, nop, nop, nop, nop, nop, nop, nop,
    nop, nop, nop, nop, nop, nop, nop, nop,
    nop, nop, nop, nop, nop, nop, nop, nop,
    nop, nop, nop, nop, nop, nop, nop, nop,
    nop, nop, nop, nop, nop, nop, nop, nop
  ]

/-- `dd`. -/
def dd : Cpu Unit := prefixed cyclesXx (opcodeXx .ix)

/-- `ed`. -/
def ed : Cpu Unit := prefixed cyclesEd opcodeEd

/-- `fd`. -/
def fd : Cpu Unit := prefixed cyclesXx (opcodeXx .iy)

/-! ## the main table -/

/-- `opcode_main`, with what stands in the entry of `ei`. -/
def opcodeMain (ei : Cpu Unit) : List (Cpu Unit) :=
  [
    nop, ldWord .bc, ldXpairA .bc, incPair .bc, inc .b, dec .b, ldByte .b, rlca,
    exAfAf, addPair .hl .bc, ldAXpair .bc, decPair .bc, inc .c, dec .c, ldByte .c, rrca,
    djnz, ldWord .de, ldXpairA .de, incPair .de, inc .d, dec .d, ldByte .d, rla,
    jr, addPair .hl .de, ldAXpair .de, decPair .de, inc .e, dec .e, ldByte .e, rra,
    jrCc .nz, ldWord .hl, ldXword .hl, incPair .hl, inc .h, dec .h, ldByte .h, daa,
    jrCc .z, addPair .hl .hl, ldPairXword .hl, decPair .hl, inc .l, dec .l, ldByte .l, cpl,
    jrCc .nc, ldWord .sp, ldXbyteA, incPair .sp, inc .xhl, dec .xhl, ldXhlByte, scf,
    jrCc .c, addPair .hl .sp, ldAXbyte, decPair .sp, inc .a, dec .a, ldByte .a, ccf,
    ld .b .b, ld .b .c, ld .b .d, ld .b .e, ld .b .h, ld .b .l, ld .b .xhl, ld .b .a,
    ld .c .b, ld .c .c, ld .c .d, ld .c .e, ld .c .h, ld .c .l, ld .c .xhl, ld .c .a,
    ld .d .b, ld .d .c, ld .d .d, ld .d .e, ld .d .h, ld .d .l, ld .d .xhl, ld .d .a,
    ld .e .b, ld .e .c, ld .e .d, ld .e .e, ld .e .h, ld .e .l, ld .e .xhl, ld .e .a,
    ld .h .b, ld .h .c, ld .h .d, ld .h .e, ld .h .h, ld .h .l, ld .h .xhl, ld .h .a,
    ld .l .b, ld .l .c, ld .l .d, ld .l .e, ld .l .h, ld .l .l, ld .l .xhl, ld .l .a,
    ldLoc .xhl .b, ldLoc .xhl .c, ldLoc .xhl .d, ldLoc .xhl .e, ldLoc .xhl .h, ldLoc .xhl .l,
      halt, ldLoc .xhl .a,
    ld .a .b, ld .a .c, ld .a .d, ld .a .e, ld .a .h, ld .a .l, ld .a .xhl, ld .a .a,
    addA .b, addA .c, addA .d, addA .e, addA .h, addA .l, addA .xhl, addA .a,
    adcA .b, adcA .c, adcA .d, adcA .e, adcA .h, adcA .l, adcA .xhl, adcA .a,
    sub .b, sub .c, sub .d, sub .e, sub .h, sub .l, sub .xhl, subA,
    sbcA .b, sbcA .c, sbcA .d, sbcA .e, sbcA .h, sbcA .l, sbcA .xhl, sbcA .a,
    and .b, and .c, and .d, and .e, and .h, and .l, and .xhl, andA,
    xor .b, xor .c, xor .d, xor .e, xor .h, xor .l, xor .xhl, xorA,
    or .b, or .c, or .d, or .e, or .h, or .l, or .xhl, orA,
    cp .b, cp .c, cp .d, cp .e, cp .h, cp .l, cp .xhl, cp .a,
    retCc .nz, pop .bc, jpCc .nz, jp, callCc .nz, push .bc, addAByte, rst 0x00,
    retCc .z, ret, jpCc .z, cb, callCc .z, call, adcAByte, rst 0x08,
    retCc .nc, pop .de, jpCc .nc, outByteA, callCc .nc, push .de, subByte, rst 0x10,
    retCc .c, exx, jpCc .c, inAByte, callCc .c, dd, sbcAByte, rst 0x18,
    retCc .po, pop .hl, jpCc .po, exXsp .hl, callCc .po, push .hl, andByte, rst 0x20,
    retCc .pe, jpPair .hl, jpCc .pe, exDeHl, callCc .pe, ed, xorByte, rst 0x28,
    retCc .p, pop .af, jpCc .p, di, callCc .p, push .af, orByte, rst 0x30,
    retCc .m, ldSp .hl, jpCc .m, ei, callCc .m, fd, cpByte, rst 0x38
  ]

set_option maxRecDepth 2000 in
/-- Only entry `FB` of the table is `ei`. -/
theorem opcodeMain_eq_set (ei : Cpu Unit) :
    opcodeMain ei = (opcodeMain nop).set 0xFB ei := rfl

/-- Only `EI` looks at what it is to do behind itself. -/
theorem dispatch_of_ne {opcode : UInt32} (h : opcode ≠ 0xFB) (ei ei' : Cpu Unit) :
    dispatch cyclesMain (opcodeMain ei) opcode =
      dispatch cyclesMain (opcodeMain ei') opcode := by
  have hne : 0xFB ≠ opcode.toNat := by
    intro heq
    exact h (UInt32.toNat_inj.mp heq.symm)
  rw [dispatch, dispatch, opcodeMain_eq_set ei, opcodeMain_eq_set ei']
  simp only [List.getD_eq_getElem?_getD, List.getElem?_set_ne hne]

end Op

end M5Z80
