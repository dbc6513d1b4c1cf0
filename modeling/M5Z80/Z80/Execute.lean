import M5Z80.Z80.Opcodes

/-!
# M5Z80.Z80.Execute

Interrupts and the main loop of `z80.c`: `Interrupt`, `Z80_Interrupt`
(`MZhw.cpp`), `ei`, which runs the next instruction itself, and
`Z80_Execute`.
-/

namespace M5Z80

namespace Cpu

/-! ## interrupts -/

/-- `Z80_IGNORE_INT`. -/
def ignoreInt : Int32 := -1

/-- `Z80_NMI_INT`. -/
def nmiInt : Int32 := -2

/-- `R.HALT`: leave the `HALT` instruction the CPU is stopped on. -/
def resume : Cpu Unit := fun m =>
  ((), if m.r.halt ≠ 0 then { m with r.pc.wl := m.r.pc.wl + 1, r.halt := 0 } else m)

/-- Take the request `bit` of `Z80_intflag`: `true` if it was there. -/
def takeRequest (bit : UInt32) : Cpu Bool := fun m =>
  if m.z80Intflag &&& bit ≠ 0 then (true, { m with z80Intflag := m.z80Intflag &&& ~~~bit })
  else (false, m)

/-- Interrupt mode 2: call the routine whose address is in a table. -/
def interruptIm2 (j : Int32) : Cpu Unit := do
  if ← takeRequest 2 then
    push (·.pc)
    setPC (← rdmemWord ((j.toUInt32 &&& (255 : UInt32)) ||| ((← reg (·.i)) <<< 8)))

/-- Interrupt mode 1: `RST 38`. -/
def interruptIm1 (ei : Cpu Unit) : Cpu Unit := do
  if ← takeRequest 1 then
    Op.dispatch cyclesMain (Op.opcodeMain ei) 0xFF

/-- Interrupt mode 0: a `CALL` or `JP`, or else an opcode. -/
def interruptIm0 (ei : Cpu Unit) (j : Int32) : Cpu Unit := do
  let j := j.toUInt32
  if j &&& 0xFF0000 = 0xCD then
    push (·.pc)
    setPC (j &&& 0xFFFF)
  else if j &&& 0xFF0000 = 0xC3 then setPC (j &&& 0xFFFF)
  else Op.dispatch cyclesMain (Op.opcodeMain ei) (j &&& 255)

/-- `Interrupt(j)`; `ei` stands in the opcode table. -/
def interrupt (ei : Cpu Unit) (j : Int32) : Cpu Unit := do
  if j = ignoreInt then return
  if j = nmiInt ∨ (← reg (·.iff1)) ≠ 0 then
    control fun R => { R with iff1 := 0 }
    resume
    if j = nmiInt then
      push (·.pc)
      setPC 0x0066
    else if (← reg (·.im)) = 2 then interruptIm2 j
    else if (← reg (·.im)) = 1 then interruptIm1 ei
    else interruptIm0 ei j

/-- What `ei` does when interrupts are enabled already. -/
def eiEnabled : Cpu Unit := control fun R => { R with iff2 := 1 }

/-- `pit_count()`. -/
def tick : Cpu Int := pitCount

/-- Is the next tick of the 8253 due? -/
def tickDue (m : Machine) : Bool := cval ≤ m.ts700.cpuTstates - m.ts700.pitTstates

/-- `ts700.pit_tstates += cval`. -/
def countTick (m : Machine) : Machine :=
  { m with ts700.pitTstates := m.ts700.pitTstates + cval }

/-- `Z80_intflag |= 1`. -/
def request (m : Machine) : Machine := { m with z80Intflag := m.z80Intflag ||| 1 }

/-- `Z80_intflag |= 1; Interrupt(0);` -/
def raise : Cpu Unit := do
  modify request
  interrupt eiEnabled 0

/-- `Z80_Interrupt`: tick the 8253 if that is due, and interrupt when
channel 2 puts out a pulse.  `Interrupt(0)` reaches the entries `00` and
`FF` of the opcode table only. -/
def z80Interrupt : Cpu Unit := do
  if tickDue (← get) then
    modify countTick
    if (← tick) ≠ 0 then
      if ((← get).stat8253 2).counterOut ≠ 0 then raise

/-! ## one instruction -/

/-- `M_RDOP`, `M_CSTATE` and the call of the opcode function; `ei` stands in
the opcode table. -/
def instruction (ei : Cpu Unit) : Cpu Unit := do
  let opcode ← rdmemOpcode
  Op.dispatch cyclesMain (Op.opcodeMain ei) opcode

/-- `ei`: when interrupts were disabled, it enables them, runs the next
instruction and then looks for an interrupt.  An `EI` that comes next finds
them enabled. -/
def ei : Cpu Unit := do
  if (← reg (·.iff1)) = 0 then
    control fun R => { R with iff1 := 1, iff2 := 1 }
    Op.incR
    instruction eiEnabled
    z80Interrupt
  else eiEnabled

/-- One pass of the loop of `Z80_Execute`. -/
def pass : Cpu Unit := do
  Op.incR
  z80Interrupt
  instruction ei

end Cpu

/-! ## the main loop -/

/-- The machine after one pass of the loop. -/
def pass (m : Machine) : Machine := (Cpu.pass m).2

/-- `Z80_Execute` in at most `fuel` passes of its loop; `none` when these
do not use up the budget. -/
def z80Execute : Nat → Machine → Option Machine
  | 0, _ => none
  | fuel + 1, m =>
      let m := pass m
      if 0 < m.z80ICount then z80Execute fuel m
      else some { m with z80ICount := m.z80ICount + m.z80IPeriod }

end M5Z80
