import M5Z80.Bus

/-!
# M5Z80.Frame

The frame of the bus.  MMIO reaches the 8253, the deck, the latches, the
PCG and the speed; `offMmio` is the rest of the machine.  `Core` is the part
of it that charging T-states leaves alone as well: the CPU's registers,
memory, the banks and the files.  There is one equation for each function;
the facts about a single field follow from it.
-/

namespace M5Z80

/-- The part of a machine that neither MMIO nor the clock reaches. -/
structure Core where
  r : Z80Regs
  intflag : UInt32
  mem : Nat → UInt8
  junk : Nat → UInt8
  mzFont : Nat → UInt8
  memptr : Fin 32 → Ptr
  memctrl : Fin 32 → TMemBank
  keyports : Fin 10 → UInt8
  mzMode : MzMode
  files : String → Option (List UInt8)

/-- The core of a machine. -/
def Machine.core (m : Machine) : Core :=
  ⟨m.r, m.z80Intflag, m.mem, m.junk, m.mzFont, m.memptr, m.hw700.memctrl, m.keyports, m.mzMode,
    m.files⟩

/-- The machine with everything wiped that MMIO reaches. -/
def Machine.offMmio (m : Machine) : Machine :=
  { m with
    z80IPeriod := 0
    z80ICount := 0
    hw700 := { Thw700Stat.zero with
      memctrl := m.hw700.memctrl
      tempoStrobe := m.hw700.tempoStrobe
      retrace := m.hw700.retrace }
    ts700 := { T700Ts.zero with
      cpuTstates := m.ts700.cpuTstates
      tempoTstates := m.ts700.tempoTstates
      vsyncTstates := m.ts700.vsyncTstates
      pitTstates := m.ts700.pitTstates }
    dat8253 := ⟨0, 0, 0, 0, 0, 0⟩
    stat8253 := fun _ => T8253Stat.zero
    pcg700Font := fun _ => 0
    sysst := ⟨0, 0, 0⟩
    xferFlag := 0
    tape := ⟨0, 0, 0, 0, fun _ => 0, fun _ => 0, 0⟩
    trace := ⟨[], 0⟩ }

/-- The core is a part of what MMIO does not reach. -/
theorem core_offMmio (m : Machine) : m.offMmio.core = m.core := rfl

/-! ## the 8253 -/

@[simp] theorem offMmio_modStat (i : Nat) (f : T8253Stat → T8253Stat) (m : Machine) :
    (modStat i f m).offMmio = m.offMmio := by
  simp only [modStat]
  split <;> rfl

/-- A control word for any channel, or for one that does not exist. -/
@[simp] theorem offMmio_write8253Cw (cw : UInt32) (m : Machine) :
    (write8253Cw cw m).offMmio = m.offMmio := by
  simp only [write8253Cw, offMmio_modStat]
  rfl

/-- A tick of the 8253. -/
@[simp] theorem offMmio_pitCount (m : Machine) : (pitCount m).2.offMmio = m.offMmio := by
  simp only [pitCount]
  split <;> rfl

/-! ## the tape deck -/

@[simp] theorem offMmio_endOfTape (m : Machine) : (endOfTape m).offMmio = m.offMmio := rfl

@[simp] theorem offMmio_showPercent (tword : Int) (m : Machine) :
    (showPercent tword m).offMmio = m.offMmio := by
  simp only [showPercent]
  split <;> rfl

@[simp] theorem offMmio_seekTword (tword : Int) (m : Machine) :
    (seekTword tword m).offMmio = m.offMmio := by
  simp only [seekTword]
  split <;> rfl

/-- A poll of the tape, with the end of the tape and the seek behind it. -/
@[simp] theorem offMmio_cmtRead (m : Machine) : (cmtRead m).2.offMmio = m.offMmio := by
  simp only [cmtRead]
  split
  · rfl
  · split <;> simp

/-- The motor line. -/
@[simp] theorem offMmio_motorEdge (m : Machine) : (motorEdge m).offMmio = m.offMmio := by
  simp only [motorEdge]
  split
  · split <;> rfl
  · rfl

@[simp] theorem offMmio_setLed (v : UInt8) (m : Machine) : (setLed v m).offMmio = m.offMmio := by
  simp only [setLed]
  split <;> rfl

/-! ## memory-mapped I/O -/

/-- A read of any register. -/
@[simp] theorem offMmio_mmioIn (addr : UInt32) (m : Machine) :
    (mmioIn addr m).2.offMmio = m.offMmio := by
  refine mmioIn_cases (P := fun q => q.2.offMmio = m.offMmio) addr m ?_ ?_ ?_ ?_
  · intro _; rfl
  · intro _; rfl
  · intro _; exact offMmio_cmtRead m
  · intro no; rfl

@[simp] theorem offMmio_setLatches (v w : UInt8) (m : Machine) :
    (setLatches v w m).offMmio = m.offMmio := rfl

@[simp] theorem offMmio_setMotor (v : UInt8) (m : Machine) :
    (setMotor v m).offMmio = m.offMmio := rfl

/-- A write to port C, with the motor line behind it. -/
@[simp] theorem offMmio_writePortC (val : UInt32) (m : Machine) :
    (writePortC val m).offMmio = m.offMmio := by
  simp only [writePortC, offMmio_setMotor]
  split <;> simp

/-- The same for the bit set and reset command. -/
@[simp] theorem offMmio_writePortCBit (val : UInt32) (m : Machine) :
    (writePortCBit val m).offMmio = m.offMmio := by
  simp only [writePortCBit]
  repeat' split
  all_goals simp

@[simp] theorem offMmio_writePcgControl (val : UInt32) (m : Machine) :
    (writePcgControl val m).offMmio = m.offMmio := by
  simp only [writePcgControl]
  repeat' split
  all_goals rfl

@[simp] theorem offMmio_play8253 (m : Machine) : (play8253 m).offMmio = m.offMmio := rfl

@[simp] theorem offMmio_writeCounter (no : Fin 3) (val : UInt32) (m : Machine) :
    (writeCounter no val m).offMmio = m.offMmio := by
  simp only [writeCounter]
  split <;> simp

/-- A write of any register. -/
@[simp] theorem offMmio_mmioOut (addr val : UInt32) (m : Machine) :
    (mmioOut addr val m).offMmio = m.offMmio := by
  refine mmioOut_cases (P := fun m' => m'.offMmio = m.offMmio) addr val m ?_ ?_ ?_ ?_ ?_ ?_ ?_ ?_ ?_
    ?_
  · rfl
  · intro _; exact offMmio_writePortC val m
  · intro _; exact offMmio_writePortCBit val m
  · intro no; exact offMmio_writeCounter no val m
  · intro _; exact offMmio_write8253Cw val m
  · rfl
  · rfl
  · rfl
  · exact offMmio_writePcgControl val m
  · rfl

/-! ## the core -/

@[simp] theorem core_use (t : Table) (i : Int) (m : Machine) : (m.use t i).core = m.core := rfl

/-- Time does not touch the core. -/
@[simp] theorem core_mCstate (n : Nat) (m : Machine) : (mCstate n m).core = m.core := by
  obtain ⟨_, _, _, h, -⟩ := mCstate_eq n m
  rw [h]
  rfl

/-- The 8253 does not touch the core. -/
@[simp] theorem core_pitCount (m : Machine) : (pitCount m).2.core = m.core := by
  rw [← core_offMmio, offMmio_pitCount, core_offMmio]

@[simp] theorem core_showPercent (tword : Int) (m : Machine) :
    (showPercent tword m).core = m.core := by
  rw [← core_offMmio, offMmio_showPercent, core_offMmio]

@[simp] theorem core_seekTword (tword : Int) (m : Machine) : (seekTword tword m).core = m.core := by
  rw [← core_offMmio, offMmio_seekTword, core_offMmio]

/-- The tape does not touch the core. -/
@[simp] theorem core_cmtRead (m : Machine) : (cmtRead m).2.core = m.core := by
  rw [← core_offMmio, offMmio_cmtRead, core_offMmio]

/-- Reads of registers do not touch the core. -/
@[simp] theorem core_mmioIn (addr : UInt32) (m : Machine) : (mmioIn addr m).2.core = m.core := by
  rw [← core_offMmio, offMmio_mmioIn, core_offMmio]

/-- Writes of registers do not touch the core. -/
@[simp] theorem core_mmioOut (addr val : UInt32) (m : Machine) :
    (mmioOut addr val m).core = m.core := by
  rw [← core_offMmio, offMmio_mmioOut, core_offMmio]

/-! ## the bus -/

@[simp] theorem core_readWait (attr : UInt8) (m : Machine) : (readWait attr m).core = m.core := by
  simp only [readWait]
  split <;> split <;> simp

/-- A read of memory leaves the core as it is. -/
@[simp] theorem core_z80Rdmem (x : UInt32) (m : Machine) : (z80Rdmem x m).2.core = m.core := by
  simp only [z80Rdmem]
  split
  · split <;> simp
  · rfl

/-- The pages are in the core of the machine. -/
theorem deref_congr {m m' : Machine} {R : Z80Regs} {flag : UInt32} {files : String → Option (List UInt8)}
    (h : m'.core = { m.core with r := R, intflag := flag, files := files }) (i : Fin 32) (ofs : Nat) :
    m'.deref (m'.memptr i) ofs = m.deref (m.memptr i) ofs := by
  have hptr : m'.memptr = m.memptr := congrArg Core.memptr h
  rw [Machine.deref, Machine.deref, hptr]
  cases (m.memptr i).block with
  | mem => exact congrFun (congrArg Core.mem h) _
  | junk => exact congrFun (congrArg Core.junk h) _
  | mzFont => exact congrFun (congrArg Core.mzFont h) _

end M5Z80
