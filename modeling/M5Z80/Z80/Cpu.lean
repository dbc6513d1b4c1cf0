import M5Z80.Bus
import M5Z80.Z80.Alu

/-!
# M5Z80.Z80.Cpu

The CPU core's access to the machine: the inline functions at the top of
`z80.c` and the stack and jump macros of `Z80Codes.h`, as programs over the
machine's state.  Everything an opcode function does goes through the few
primitives of the first section.
-/

namespace M5Z80

/-- A piece of the CPU core. -/
abbrev Cpu := StateM Machine

namespace Cpu

/-! ## primitives -/

/-- Read registers. -/
def reg {α : Type} (f : Z80Regs → α) : Cpu α := fun m => (f m.r, m)

/-- Assign to register pairs. -/
def pairs (f : RegFile → RegFile) : Cpu Unit :=
  fun m => ((), { m with r.toRegFile := f m.r.toRegFile })

/-- Assign to the interrupt flip-flops, the interrupt mode and the `I`
and `R` registers.  `HALT` is not among them: only `halt` and `Interrupt`
assign to it. -/
def control (f : Z80Regs → Z80Regs) : Cpu Unit :=
  fun m => ((), { m with r := { f m.r with toRegFile := m.r.toRegFile, halt := m.r.halt } })

/-- `M_RDMEM`, and `M_RDOP`, `M_RDOP_ARG` and `M_RDSTACK`, which `z80io.h`
makes the same. -/
def rdmem (a : UInt32) : Cpu UInt32 := z80Rdmem a

/-- `M_WRMEM` and `M_WRSTACK`. -/
def wrmem (a v : UInt32) : Cpu Unit := fun m => ((), z80Wrmem a v m)

/-- `DoIn`. -/
def doIn (lo hi : UInt8) : UInt8 := z80In (lo.toUInt16 ||| (hi.toUInt16 <<< 8))

/-- `DoOut`. -/
def doOut (lo hi : UInt8) (v : UInt16) : Cpu Unit :=
  fun m => ((), z80Out (lo.toUInt16 ||| (hi.toUInt16 <<< 8)) v m)

/-- `M_CSTATE`. -/
def cstate (n : Nat) : Cpu Unit := fun m => ((), mCstate n m)

/-- An index past the end of the opcode tables. -/
def wild (i : UInt32) : Cpu Unit := fun m => ((), m.use .opcodes i.toNat)

/-! ## running a program -/

section

variable {α β : Type}

/-- What a program does after another one. -/
@[simp] theorem bind_apply (x : Cpu α) (f : α → Cpu β) (m : Machine) :
    (x >>= f) m = f (x m).1 (x m).2 := rfl

@[simp] theorem pure_apply (a : α) (m : Machine) : (pure a : Cpu α) m = (a, m) := rfl

@[simp] theorem get_apply (m : Machine) : (get : Cpu Machine) m = (m, m) := rfl

@[simp] theorem modify_apply (f : Machine → Machine) (m : Machine) :
    (modify f : Cpu Unit) m = ((), f m) := rfl

@[simp] theorem reg_apply (f : Z80Regs → α) (m : Machine) : reg f m = (f m.r, m) := rfl

end

/-! ## words and operands -/

/-- Add to the program counter's word. -/
def skip (n : UInt16) : Cpu Unit := pairs fun R => { R with pc.wl := R.pc.wl + n }

/-- `M_RDMEM_OPCODE`: the next byte of the program. -/
def rdmemOpcode : Cpu UInt32 := do
  let retval ← rdmem (← reg (·.pc.d))
  skip 1
  return retval

/-- `M_RDMEM_WORD`. -/
def rdmemWord (a : UInt32) : Cpu UInt32 := do
  let lo ← rdmem a
  let hi ← rdmem ((a + 1) &&& 0xFFFF)
  return lo + (hi <<< 8)

/-- `M_WRMEM_WORD`. -/
def wrmemWord (a v : UInt32) : Cpu Unit := do
  wrmem a (v &&& 255)
  wrmem ((a + 1) &&& 0xFFFF) (v >>> 8)

/-- `M_RDMEM_OPCODE_WORD`. -/
def rdmemOpcodeWord : Cpu UInt32 := do
  let lo ← rdmemOpcode
  let hi ← rdmemOpcode
  return lo + (hi <<< 8)

/-- `(offset)x`: the low byte with its sign. -/
def offset (x : UInt32) : UInt32 :=
  if x &&& 0x80 = 0 then x &&& 0x7F else x ||| 0xFFFFFF80

/-- `M_XIX` and `M_XIY`: an index register plus the displacement that
follows in the program. -/
def indexed (x : Z80Regs → Pair) : Cpu UInt32 := do
  let base ← reg x
  return (base.d + offset (← rdmemOpcode)) &&& 0xFFFF

/-! ## stack and jumps -/

/-- `M_POP`, apart from the assignment. -/
def pop : Cpu Pair := do
  let sp ← reg (·.sp.d)
  let lo ← rdmem sp
  let hi ← rdmem ((sp + 1) &&& 65535)
  return Pair.ofD (lo + (hi <<< 8))

/-- `M_POP`. -/
def popTo (set : Pair → RegFile → RegFile) : Cpu Unit := do
  let v ← pop
  pairs (set v)
  pairs fun R => { R with sp.wl := R.sp.wl + 2 }

/-- `M_PUSH`. -/
def push (get : Z80Regs → Pair) : Cpu Unit := do
  pairs fun R => { R with sp.wl := R.sp.wl - 2 }
  wrmem (← reg (·.sp.d)) (← reg get).d
  wrmem (((← reg (·.sp.d)) + 1) &&& 65535) ((← reg get).d >>> 8)

/-- `R.PC.D = a`. -/
def setPC (a : UInt32) : Cpu Unit := pairs fun R => { R with pc := Pair.ofD a }

/-- `M_CALL`. -/
def call : Cpu Unit := do
  let q ← rdmemOpcodeWord
  push (·.pc)
  setPC q
  cstate 7

/-- `M_JP`. -/
def jp : Cpu Unit := do
  let pc ← reg (·.pc.d)
  let lo ← rdmem pc
  let hi ← rdmem ((pc + 1) &&& 65535)
  setPC (lo + (hi <<< 8))

/-- `M_JR`. -/
def jr : Cpu Unit := do
  let d ← rdmem (← reg (·.pc.d))
  skip ((offset d).toUInt16 + 1)
  cstate 5

/-- `M_RET`. -/
def ret : Cpu Unit := do
  popTo fun v R => { R with pc := v }
  cstate 6

/-- `M_RST`. -/
def rst (addr : UInt32) : Cpu Unit := do
  push (·.pc)
  setPC addr

end Cpu

end M5Z80
