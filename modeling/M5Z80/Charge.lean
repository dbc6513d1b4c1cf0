import M5Z80.Interrupts
import M5Z80.Z80.Built

/-!
# M5Z80.Charge

The budget and the clock.  `M_CSTATE` takes off `Z80_ICount` what it puts
on `ts700.cpu_tstates`, and `setup_cpuspeed` sets the budget without
touching the clock.  Every function of the bus and every opcode function
changes the two through these, except `halt`, which drops what is left of
the budget.
-/

namespace M5Z80

/-- The clock, the budget and the number of times the speed was set. -/
def Machine.meter (m : Machine) : Int32 × Int32 × Nat :=
  (m.ts700.cpuTstates, m.z80ICount, m.trace.speeds)

/-- Between `lo` and `hi` T-states were put on the clock and, unless the
speed was set, taken off the budget, which went down by `drop` besides. -/
def Charged (lo hi : Nat) (drop : Int32) (m m' : Machine) : Prop :=
  ∃ c : Nat, lo ≤ c ∧ c ≤ hi ∧ m'.ts700.cpuTstates = m.ts700.cpuTstates + Int32.ofNat c ∧
    m.trace.speeds ≤ m'.trace.speeds ∧
    (m'.trace.speeds = m.trace.speeds → m'.z80ICount = m.z80ICount - Int32.ofNat c - drop)

namespace Charged

/-- Nothing is charged where neither the clock nor the budget moves. -/
theorem of_meter {m m' : Machine} (h : m'.meter = m.meter) : Charged 0 0 0 m m' := by
  simp only [Machine.meter, Prod.mk.injEq] at h
  obtain ⟨hclock, hbudget, hspeeds⟩ := h
  refine ⟨0, Nat.le_refl 0, Nat.le_refl 0, ?_, Nat.le_of_eq hspeeds.symm, fun _ => ?_⟩
  · rw [hclock]
    exact (Int32.add_zero _).symm
  · rw [hbudget]
    simp

/-- The speed is set. -/
theorem of_speeds {m m' : Machine} (hclock : m'.ts700.cpuTstates = m.ts700.cpuTstates)
    (h : m'.trace.speeds = m.trace.speeds + 1) : Charged 0 0 0 m m' := by
  refine ⟨0, Nat.le_refl 0, Nat.le_refl 0, ?_, by omega, fun hspeeds => by omega⟩
  rw [hclock]
  exact (Int32.add_zero _).symm

theorem refl (m : Machine) : Charged 0 0 0 m m := of_meter rfl

/-- The speed may have been set, but never the other way. -/
theorem speeds_le {lo hi : Nat} {drop : Int32} {m m' : Machine} (h : Charged lo hi drop m m') :
    m.trace.speeds ≤ m'.trace.speeds := by
  obtain ⟨_, -, -, -, hspeeds, -⟩ := h
  exact hspeeds

/-- The bounds of a charge can be widened. -/
theorem mono {lo hi lo' hi' : Nat} {drop : Int32} {m m' : Machine} (h : Charged lo hi drop m m')
    (hlo : lo' ≤ lo) (hhi : hi ≤ hi') : Charged lo' hi' drop m m' := by
  obtain ⟨c, hl, hh, hrest⟩ := h
  exact ⟨c, Nat.le_trans hlo hl, Nat.le_trans hh hhi, hrest⟩

/-- One charge after another. -/
theorem trans {lo hi lo' hi' : Nat} {drop drop' : Int32} {m m₁ m₂ : Machine}
    (h : Charged lo hi drop m m₁) (h' : Charged lo' hi' drop' m₁ m₂) :
    Charged (lo + lo') (hi + hi') (drop + drop') m m₂ := by
  obtain ⟨c, hlo, hhi, hclock, hspeeds, hbudget⟩ := h
  obtain ⟨c', hlo', hhi', hclock', hspeeds', hbudget'⟩ := h'
  refine ⟨c + c', by omega, by omega, ?_, by omega, fun heq => ?_⟩
  · rw [hclock', hclock, Int32.ofNat_add]
    grind
  · rw [hbudget' (by omega), hbudget (by omega), Int32.ofNat_add]
    grind

end Charged

/-- `M_CSTATE` charges what it is given. -/
theorem charged_mCstate (n : Nat) (m : Machine) : Charged n n 0 m (mCstate n m) := by
  have hspeeds : (mCstate n m).trace.speeds = m.trace.speeds :=
    congrArg Trace.speeds (trace_mCstate n m)
  refine ⟨n, Nat.le_refl n, Nat.le_refl n, cpuTstates_mCstate n m, Nat.le_of_eq hspeeds.symm,
    fun _ => ?_⟩
  rw [z80ICount_mCstate]
  simp

/-! ## memory-mapped I/O -/

theorem meter_modStat (i : Nat) (f : T8253Stat → T8253Stat) (m : Machine) :
    (modStat i f m).meter = m.meter := by
  simp only [modStat]
  split <;> rfl

theorem meter_setLed (v : UInt8) (m : Machine) : (setLed v m).meter = m.meter := by
  simp only [setLed]
  split <;> rfl

theorem meter_writeCounter (no : Fin 3) (val : UInt32) (m : Machine) :
    (writeCounter no val m).meter = m.meter := by
  have hstat : (modStat no (·.write val) m).meter = m.meter := meter_modStat _ _ m
  simp only [writeCounter]
  split
  · exact hstat
  · exact hstat

theorem meter_writePcgControl (val : UInt32) (m : Machine) :
    (writePcgControl val m).meter = m.meter := by
  simp only [writePcgControl]
  repeat' split
  all_goals rfl

theorem meter_pitCount (m : Machine) : (pitCount m).2.meter = m.meter := by
  simp only [pitCount]
  split <;> rfl

/-- The motor line may set the speed, and charges nothing. -/
theorem charged_motorEdge (m : Machine) : Charged 0 0 0 m (motorEdge m) := by
  simp only [motorEdge]
  split
  · split
    · exact .of_speeds rfl rfl
    · exact .refl m
  · exact .of_speeds rfl rfl

/-- A poll of the tape may set the speed at its end, and charges nothing. -/
theorem charged_cmtRead (m : Machine) : Charged 0 0 0 m (cmtRead m).2 := by
  simp only [cmtRead]
  split
  · exact .refl m
  split
  · exact .of_speeds rfl rfl
  · refine .of_meter ?_
    simp only [seekTword, showPercent]
    split <;> split <;> rfl

theorem charged_writePortC (val : UInt32) (m : Machine) : Charged 0 0 0 m (writePortC val m) := by
  let m₁ := setLed (val &&& 0x04).toUInt8
    (setLatches (val &&& 0x01).toUInt8 (val &&& 0x02).toUInt8 m)
  let m₂ := if m₁.hw700.motor = 0 ∧ val &&& 0x08 ≠ 0 then motorEdge m₁ else m₁
  have hled : Charged 0 0 0 m m₁ := .of_meter (meter_setLed _ _)
  have hedge : Charged 0 0 0 m₁ m₂ := by
    by_cases h : m₁.hw700.motor = 0 ∧ val &&& 0x08 ≠ 0
    · simp only [m₂, if_pos h]
      exact charged_motorEdge m₁
    · simp only [m₂, if_neg h]
      exact .refl m₁
  have hmotor : Charged 0 0 0 m₂ (writePortC val m) := .of_meter rfl
  exact (hled.trans hedge).trans hmotor

theorem charged_writePortCBit (val : UInt32) (m : Machine) :
    Charged 0 0 0 m (writePortCBit val m) := by
  have hset : Charged 0 0 0 (motorEdge m) (setMotor 8 (motorEdge m)) := .of_meter rfl
  have hedge : Charged 0 0 0 m (setMotor 8 (motorEdge m)) := (charged_motorEdge m).trans hset
  simp only [writePortCBit]
  repeat' split
  all_goals first
    | exact .of_meter rfl
    | exact .of_meter (meter_setLed _ m)
    | exact hedge

/-- Reads of registers are charged by the bus, not here. -/
theorem charged_mmioIn (addr : UInt32) (m : Machine) : Charged 0 0 0 m (mmioIn addr m).2 := by
  refine mmioIn_cases (P := fun q => Charged 0 0 0 m q.2) addr m ?_ ?_ ?_ ?_
  · intro _; exact .refl m
  · intro _; exact .of_meter rfl
  · intro _; exact charged_cmtRead m
  · intro no; exact .of_meter rfl

/-- A write of a register may set the speed, and charges nothing itself. -/
theorem charged_mmioOut (addr val : UInt32) (m : Machine) :
    Charged 0 0 0 m (mmioOut addr val m) := by
  refine mmioOut_cases (P := fun m' => Charged 0 0 0 m m') addr val m ?_ ?_ ?_ ?_ ?_ ?_ ?_ ?_ ?_ ?_
  · exact .of_meter rfl
  · intro _; exact charged_writePortC val m
  · intro _; exact charged_writePortCBit val m
  · intro no; exact .of_meter (meter_writeCounter no val m)
  · intro _; exact .of_meter (meter_modStat _ _ _)
  · exact .of_meter rfl
  · exact .of_meter rfl
  · exact .of_meter rfl
  · exact .of_meter (meter_writePcgControl val m)
  · exact .refl m

/-! ## the bus -/

/-- The wait of a read: one T-state for ROM, 42 for video RAM, none while the tape runs. -/
theorem charged_readWait (attr : UInt8) (m : Machine) : Charged 0 43 0 m (readWait attr m) := by
  let m₁ := if attr = 0 ∧ m.ts700.cmtTstates = 0 then mCstate 1 m else m
  have hrom : Charged 0 1 0 m m₁ := by
    by_cases h : attr = 0 ∧ m.ts700.cmtTstates = 0
    · simp only [m₁, if_pos h]
      exact (charged_mCstate 1 m).mono (Nat.zero_le 1) (Nat.le_refl 1)
    · simp only [m₁, if_neg h]
      exact (Charged.refl m).mono (Nat.le_refl 0) (Nat.zero_le 1)
  have hvram : Charged 0 42 0 m₁ (readWait attr m) := by
    change Charged 0 42 0 m₁
      (if attr &&& 4 ≠ 0 ∧ m₁.ts700.cmtTstates = 0 then mCstate vramAccessWait m₁ else m₁)
    split
    · exact (charged_mCstate 42 m₁).mono (Nat.zero_le 42) (Nat.le_refl 42)
    · exact (Charged.refl m₁).mono (Nat.le_refl 0) (Nat.zero_le 42)
  exact hrom.trans hvram

/-- A read waits for at most 43 T-states. -/
theorem charged_z80Rdmem (x : UInt32) (m : Machine) : Charged 0 43 0 m (z80Rdmem x m).2 := by
  simp only [z80Rdmem]
  split
  · rename_i hpage
    let m₁ := readWait (m.hw700.memctrl ⟨(x >>> 11).toNat, hpage⟩).attr
      (m.use .memctrl (x >>> 11).toNat)
    have huse : Charged 0 0 0 m (m.use .memctrl (x >>> 11).toNat) := .of_meter rfl
    have hwait : Charged 0 43 0 m m₁ := huse.trans (charged_readWait _ _)
    split
    · exact hwait.trans (charged_mmioIn x m₁)
    · exact hwait
  · exact (Charged.of_meter rfl).mono (Nat.le_refl 0) (Nat.zero_le 43)

theorem meter_store (m : Machine) (p : Ptr) (ofs : Nat) (v : UInt8) :
    (m.store p ofs v).meter = m.meter := by
  unfold Machine.store
  split <;> rfl

/-- A write is charged a wait state like a read. -/
theorem charged_z80Wrmem (x y : UInt32) (m : Machine) : Charged 0 43 0 m (z80Wrmem x y m) := by
  have huse : Charged 0 0 0 m (m.use .memctrl (x >>> 11).toNat) := .of_meter rfl
  simp only [z80Wrmem]
  split
  · rename_i hpage
    split
    · exact (huse.trans (charged_mmioOut x y _)).mono (Nat.le_refl 0) (Nat.zero_le 43)
    split
    · let p := m.memptr ⟨(x >>> 11).toNat, hpage⟩
      let m₁ := (m.use .memctrl (x >>> 11).toNat).store p (x &&& 0x7FF).toNat y.toUInt8
      have hstore : Charged 0 0 0 m m₁ := huse.trans (.of_meter (meter_store _ _ _ _))
      split
      · exact (hstore.trans (charged_mCstate 42 m₁)).mono (Nat.zero_le _) (by decide)
      · exact hstore.mono (Nat.le_refl 0) (Nat.zero_le 43)
    · exact huse.mono (Nat.le_refl 0) (Nat.zero_le 43)
  · exact huse.mono (Nat.le_refl 0) (Nat.zero_le 43)

/-! ## the CPU core -/

theorem meter_z80Out (port value : UInt16) (m : Machine) :
    (z80Out port value m).meter = m.meter := by
  calc (z80Out port value m).meter = (z80Out port value m).unbanked.meter := rfl
    _ = m.unbanked.meter := by rw [unbanked_z80Out]
    _ = m.meter := rfl

/-- Charges grade by the number of accesses. -/
theorem graded_charged : Programs.Graded fun n => Charged 0 (43 * n) 0 where
  refl := Charged.refl
  trans := fun {j k s t u} h h' => by
    have hsum := h.trans h'
    rw [Nat.mul_add]
    exact hsum
  mono := fun h hle => h.mono (Nat.le_refl 0) (Nat.mul_le_mul_left 43 hle)

/-- An operation of the processor with `n` accesses is charged `n` waits at most. -/
theorem charged_prim {α : Type} {n : Nat} {x : Cpu α} (h : Cpu.Prim α n x) (m : Machine) :
    Charged 0 (43 * n) 0 m (x m).2 := by
  cases h with
  | reg f => exact .refl m
  | pairs f => exact .of_meter rfl
  | control f h => exact .of_meter rfl
  | doOut lo hi v => exact .of_meter (meter_z80Out _ v m)
  | wild i => exact .of_meter rfl
  | rdmem a => exact charged_z80Rdmem a m
  | wrmem a v => exact charged_z80Wrmem a v m
  | cstate h => exact (charged_mCstate _ m).mono (Nat.zero_le _) (by omega)

/-- A program put together from `n` accesses is charged at most `43 * n`
T-states. -/
theorem charged_built {α : Type} {n : Nat} (x : Cpu α) [h : Cpu.Built x n] (m : Machine) :
    Charged 0 (43 * n) 0 m (x m).2 :=
  h.made.rel graded_charged charged_prim m

/-! ## interrupts -/

/-- To take a request out of `Z80_intflag` costs nothing. -/
theorem charged_takeRequest (bit : UInt32) (m : Machine) :
    Charged 0 0 0 m (Cpu.takeRequest bit m).2 := by
  unfold Cpu.takeRequest
  split
  · exact .of_meter rfl
  · exact .refl m

/-- The program of `RST 38`, which the interrupt runs as an instruction. -/
theorem built_rst38 (ei : Cpu Unit) :
    Cpu.Built (Op.dispatch cyclesMain (Op.opcodeMain ei) 0xFF) 8 := by
  rw [Op.dispatch_plain (by decide) (by decide)]
  exact Op.built_dispatch (by decide +kernel) Op.built_of_mem_opcodePlain 0xFF

/-- The request taken, mode 2 is made of primitives. -/
theorem built_interruptIm2 (j : Int32) (m : Machine) :
    ∃ x : Cpu Unit, Cpu.Built x 4 ∧ Cpu.interruptIm2 j m = x (Cpu.takeRequest 2 m).2 := by
  let call : Cpu Unit := do
    Cpu.push (·.pc)
    Cpu.setPC (← Cpu.rdmemWord ((j.toUInt32 &&& (255 : UInt32)) ||| ((← Cpu.reg (·.i)) <<< 8)))
  have hcall (taken : Bool) : Cpu.Built (if taken then call else pure ()) 4 := inferInstance
  exact ⟨if (Cpu.takeRequest 2 m).1 then call else pure (), hcall _, rfl⟩

/-- And so is mode 1. -/
theorem built_interruptIm1 (ei : Cpu Unit) (m : Machine) :
    ∃ x : Cpu Unit, Cpu.Built x 8 ∧ Cpu.interruptIm1 ei m = x (Cpu.takeRequest 1 m).2 := by
  have hrst := built_rst38 ei
  have hcall (taken : Bool) : Cpu.Built
      (if taken then Op.dispatch cyclesMain (Op.opcodeMain ei) 0xFF else pure ()) 8 := inferInstance
  exact ⟨if (Cpu.takeRequest 1 m).1 then Op.dispatch cyclesMain (Op.opcodeMain ei) 0xFF else pure (),
    hcall _, rfl⟩

/-- In IM 2 an interrupt reads its vector and pushes the program counter. -/
theorem charged_interruptIm2 (j : Int32) (m : Machine) :
    Charged 0 344 0 m (Cpu.interruptIm2 j m).2 := by
  obtain ⟨x, hx, heq⟩ := built_interruptIm2 j m
  rw [heq]
  exact ((charged_takeRequest 2 m).trans (charged_built x _)).mono (Nat.le_refl 0) (by decide)

/-- In IM 1 an interrupt is an `RST 38`. -/
theorem charged_interruptIm1 (ei : Cpu Unit) (m : Machine) :
    Charged 0 344 0 m (Cpu.interruptIm1 ei m).2 := by
  obtain ⟨x, hx, heq⟩ := built_interruptIm1 ei m
  rw [heq]
  exact (charged_takeRequest 1 m).trans (charged_built x _)

/-- Whatever the mode, an interrupt is charged for 8 accesses at most. -/
theorem charged_interrupt_zero (ei : Cpu Unit) (m : Machine) :
    Charged 0 344 0 m (Cpu.interrupt ei 0 m).2 := by
  by_cases hiff : m.r.iff1 = 0
  · rw [interrupt_of_disabled ei hiff]
    exact (Charged.refl m).mono (Nat.le_refl 0) (Nat.zero_le 344)
  · have hack : Charged 0 0 0 m (acknowledged m) := .of_meter rfl
    rw [interrupt_zero ei hiff]
    split
    · exact hack.trans (charged_interruptIm2 0 _)
    split
    · exact hack.trans (charged_interruptIm1 ei _)
    · rw [interruptIm0_apply]
      exact (hack.trans (charged_mCstate 4 _)).mono (Nat.zero_le _) (by decide)

/-- `Z80_Interrupt` is charged what an accepted interrupt takes. -/
theorem charged_z80Interrupt (m : Machine) : Charged 0 344 0 m (Cpu.z80Interrupt m).2 := by
  let ticked := (pitCount (Cpu.countTick m)).2
  have htick : Charged 0 0 0 m ticked := .of_meter (meter_pitCount _)
  obtain ⟨-, heq⟩ | ⟨-, heq⟩ | ⟨-, heq⟩ := z80Interrupt_cases m <;> rw [heq]
  · exact (Charged.refl m).mono (Nat.le_refl 0) (Nat.zero_le 344)
  · exact htick.mono (Nat.le_refl 0) (Nat.zero_le 344)
  · have hrequest : Charged 0 0 0 ticked (Cpu.request ticked) := .of_meter rfl
    exact (htick.trans hrequest).trans (charged_interrupt_zero _ _)

end M5Z80
