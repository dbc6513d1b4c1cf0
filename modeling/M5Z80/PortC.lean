import M5Z80.Lib.Run
import M5Z80.System

/-!
# M5Z80.PortC

Port C of the 8255 can be written as a whole (`E002`) or bit by bit
(`E003`).  Its four output lines are latched apart from each other, each
latch holding zero or its own bit; so their disjunction is the value of the
port, and writing one bit is writing the port with that bit replaced.
-/

namespace M5Z80

/-! ## the latches -/

/-- The latches of port C: `VGATE`, `WDATA`, LED and motor. -/
def Thw700Stat.lines (h : Thw700Stat) : UInt8 × UInt8 × UInt8 × UInt8 :=
  (h.vgate, h.wdata, h.led, h.motor)

/-- Each latch of port C holds zero or its own bit. -/
structure Latched (m : Machine) : Prop where
  vgate : m.hw700.vgate = 0 ∨ m.hw700.vgate = 1
  wdata : m.hw700.wdata = 0 ∨ m.hw700.wdata = 2
  led : m.hw700.led = 0 ∨ m.hw700.led = 4
  motor : m.hw700.motor = 0 ∨ m.hw700.motor = 8

/-- Only the lines and their latch count. -/
theorem Latched.congr {m m' : Machine} (hl : Latched m) (h : m'.hw700.lines = m.hw700.lines) :
    Latched m' := by
  simp only [Thw700Stat.lines, Prod.mk.injEq] at h
  obtain ⟨hvgate, hwdata, hled, hmotor⟩ := h
  exact ⟨hvgate ▸ hl.vgate, hwdata ▸ hl.wdata, hled ▸ hl.led, hmotor ▸ hl.motor⟩

/-- A bit of a value that is written to the port. -/
theorem latched_bit (val : UInt32) :
    ((val &&& 0x01).toUInt8 = 0 ∨ (val &&& 0x01).toUInt8 = 1) ∧
    ((val &&& 0x02).toUInt8 = 0 ∨ (val &&& 0x02).toUInt8 = 2) ∧
    ((val &&& 0x04).toUInt8 = 0 ∨ (val &&& 0x04).toUInt8 = 4) ∧
    ((val &&& 0x08).toUInt8 = 0 ∨ (val &&& 0x08).toUInt8 = 8) := by
  have hbyte : ∀ n < 256, let b := UInt8.ofNat n
      (b &&& 1 = 0 ∨ b &&& 1 = 1) ∧ (b &&& 2 = 0 ∨ b &&& 2 = 2) ∧
        (b &&& 4 = 0 ∨ b &&& 4 = 4) ∧ (b &&& 8 = 0 ∨ b &&& 8 = 8) := by
    decide +kernel
  have hval := hbyte val.toUInt8.toNat val.toUInt8.toNat_lt
  simp only [UInt8.ofNat_toNat] at hval
  simp only [UInt32.toUInt8_and]
  exact hval

/-- The motor line does not touch the latches. -/
@[simp] theorem hw700_motorEdge (m : Machine) : (motorEdge m).hw700 = m.hw700 := by
  unfold motorEdge
  split
  · split <;> rfl
  · rfl

/-- The LED is a latch of its own. -/
@[simp] theorem hw700_setLed (v : UInt8) (m : Machine) :
    (setLed v m).hw700 = { m.hw700 with led := v } := by
  unfold setLed
  split
  · rfl
  · next h => rw [← of_not_not h]

/-- A write to `E002` sets every latch. -/
theorem lines_writePortC (val : UInt32) (m : Machine) : (writePortC val m).hw700.lines =
    ((val &&& 0x01).toUInt8, (val &&& 0x02).toUInt8, (val &&& 0x04).toUInt8,
      (val &&& 0x08).toUInt8) := by
  simp only [writePortC, setMotor]
  split <;> simp only [hw700_motorEdge, hw700_setLed, setLatches, Thw700Stat.lines]

/-- A write to port C sets all its lines by its value. -/
theorem latched_writePortC (val : UInt32) (m : Machine) : Latched (writePortC val m) := by
  have hlines := lines_writePortC val m
  simp only [Thw700Stat.lines, Prod.mk.injEq] at hlines
  obtain ⟨hvgate, hwdata, hled, hmotor⟩ := hlines
  obtain ⟨h0, h1, h2, h3⟩ := latched_bit val
  exact ⟨hvgate ▸ h0, hwdata ▸ h1, hled ▸ h2, hmotor ▸ h3⟩

/-- A bit command sets one line and the same bit of the latch. -/
theorem Latched.writePortCBit {m : Machine} (h : Latched m) (val : UInt32) :
    Latched (writePortCBit val m) := by
  have hedge (p : Prop) [Decidable p] :
      (if p then M5Z80.motorEdge m else m).hw700 = m.hw700 := by
    split
    · exact hw700_motorEdge m
    · rfl
  have hled (v : UInt8) (hv : v = 0 ∨ v = 4) : Latched (setLed v m) := by
    refine ⟨?_, ?_, ?_, ?_⟩ <;> simp only [hw700_setLed]
    exacts [h.vgate, h.wdata, hv, h.motor]
  unfold M5Z80.writePortCBit
  dsimp only
  split
  · split
    · exact ⟨.inr rfl, h.wdata, h.led, h.motor⟩
    split
    · exact ⟨h.vgate, .inr rfl, h.led, h.motor⟩
    split
    · exact hled 4 (.inr rfl)
    split
    · refine ⟨?_, ?_, ?_, .inr rfl⟩ <;> simp only [setMotor, hedge]
      exacts [h.vgate, h.wdata, h.led]
    · exact h
  · split
    · exact ⟨.inl rfl, h.wdata, h.led, h.motor⟩
    split
    · exact ⟨h.vgate, .inl rfl, h.led, h.motor⟩
    split
    · exact hled 0 (.inl rfl)
    split
    · exact ⟨h.vgate, h.wdata, h.led, .inl rfl⟩
    · exact h

/-! ## every state -/

/-- Time may toggle the tempo bit, not a line. -/
theorem lines_mCstate (n : Nat) (m : Machine) : (mCstate n m).hw700.lines = m.hw700.lines := by
  obtain ⟨_, _, _, h, -⟩ := mCstate_eq n m
  rw [h]
  rfl

/-- A poll of the tape may stop the motor, not a line. -/
theorem lines_cmtRead (m : Machine) : (cmtRead m).2.hw700.lines = m.hw700.lines := by
  unfold cmtRead
  dsimp only
  split
  · rfl
  split
  · rfl
  · simp only [seekTword, showPercent]
    split <;> split <;> rfl

/-- No read of a register parts the lines from the latch. -/
theorem Latched.mmioIn {m : Machine} (h : Latched m) (addr : UInt32) :
    Latched (mmioIn addr m).2 := by
  refine mmioIn_cases (P := fun q => Latched q.2) addr m ?_ ?_ ?_ ?_
  · intro _; exact h
  · intro _; exact h.congr rfl
  · intro _; exact h.congr (lines_cmtRead m)
  · intro no; exact h.congr rfl

/-- No write of a register parts them, either. -/
theorem Latched.mmioOut {m : Machine} (h : Latched m) (addr val : UInt32) :
    Latched (mmioOut addr val m) := by
  have hmod (i : Nat) (f : T8253Stat → T8253Stat) (m : Machine) :
      (modStat i f m).hw700 = m.hw700 := by
    unfold modStat
    dsimp only
    split <;> rfl
  refine mmioOut_cases (P := Latched) addr val m ?_ ?_ ?_ ?_ ?_ ?_ ?_ ?_ ?_ ?_
  · exact h.congr rfl
  · intro _; exact latched_writePortC val m
  · intro _; exact h.writePortCBit val
  · intro no
    refine h.congr (congrArg Thw700Stat.lines ?_)
    unfold writeCounter
    dsimp only
    split
    · exact hmod _ _ m
    · exact hmod _ _ m
  · intro _; exact h.congr (congrArg Thw700Stat.lines (hmod _ _ _))
  · exact h.congr rfl
  · exact h.congr rfl
  · exact h.congr rfl
  · refine h.congr ?_
    unfold writePcgControl
    dsimp only
    split
    · rfl
    split <;> rfl
  · exact h

/-- A tick of the 8253 touches no line. -/
theorem hw700_pitCount (m : Machine) : (pitCount m).2.hw700 = m.hw700 := by
  unfold pitCount
  dsimp only
  split <;> rfl

/-- The bank commands touch no line. -/
theorem lines_z80Out (port value : UInt16) (m : Machine) :
    (z80Out port value m).hw700.lines = m.hw700.lines := by
  calc (z80Out port value m).hw700.lines = (z80Out port value m).unbanked.hw700.lines := rfl
    _ = m.hw700.lines := by rw [unbanked_z80Out]; rfl

/-- No access of the CPU and no interrupt mixes the latches up. -/
theorem keepsAll_latched : Cpu.KeepsAll fun m m' => Latched m → Latched m' where
  refl _ h := h
  trans h h' hl := h' (h hl)
  regs _ _ h := h.congr rfl
  budget _ _ h := h.congr rfl
  use _ _ _ h := h.congr rfl
  store m p ofs v h := by
    refine h.congr ?_
    unfold Machine.store
    split <;> rfl
  mCstate n m h := h.congr (lines_mCstate n m)
  mmioIn addr _ h := h.mmioIn addr
  mmioOut addr val _ h := h.mmioOut addr val
  z80Out port value m h := h.congr (lines_z80Out port value m)
  intflag _ _ h := h.congr rfl
  tick m _ h := h.congr (congrArg Thw700Stat.lines (hw700_pitCount _))

/-- After a reset the lines and the latch are clear. -/
theorem latched_mzReset (rand : UInt32) (m : Machine) : Latched (mzReset rand m) := by
  have hlines : (mzReset rand m).hw700.lines = (1, 0, 0, 0) := by
    calc (mzReset rand m).hw700.lines =
          { (initHardware m).unbanked.hw700 with motor := 0, vgate := 1 }.lines := rfl
      _ = (1, 0, 0, 0) := by rw [unbanked_initHardware]; rfl
  simp only [Thw700Stat.lines, Prod.mk.injEq] at hlines
  obtain ⟨hvgate, hwdata, hled, hmotor⟩ := hlines
  exact ⟨.inr hvgate, .inl hwdata, .inl hled, .inl hmotor⟩

/-- Nothing the system does mixes the latches up. -/
theorem Latched.apply {m : Machine} (h : Latched m) (o : SystemStep) : Latched (o.apply m) := by
  have htape (mztFile : String) (m : Machine) (h : Latched m) : Latched (startTape mztFile m) :=
    h.congr (by rw [hw700_startTape])
  cases o with
  | pass => exact keepsAll_latched.pass m h
  | read addr => exact h.mmioIn addr
  | write addr val => exact h.mmioOut addr val
  | select mztFile => exact htape mztFile m h
  | load startRegs mztFile =>
      exact setMztToMemory_keeps (R := fun m m' => Latched m → Latched m') (fun _ h => h)
        (fun h h' hl => h' (h hl)) (fun _ _ _ h => h.congr rfl) (fun _ _ h => h.congr rfl)
        startRegs (htape mztFile) m h
  | save opened =>
      refine h.congr ?_
      cases opened <;> rfl
  | romLoad romFile =>
      obtain ⟨_, _, heq⟩ := monromLoad_eq romFile m
      rw [SystemStep.apply, heq]
      exact h.congr rfl
  | reset rand => exact latched_mzReset rand m
  | _ => exact h.congr rfl

/-! ## one port -/

/-- The value of port C: `vgate | wdata | led | motor`. -/
def Machine.portC (m : Machine) : UInt32 :=
  (m.hw700.vgate ||| m.hw700.wdata ||| m.hw700.led ||| m.hw700.motor).toUInt32

/-- `x` with bit `i` replaced by `b`. -/
def withBit (i : UInt32) (b : Bool) (x : UInt32) : UInt32 :=
  if b then x ||| (1 <<< i) else x &&& ~~~(1 <<< i)

/-- The bits of a value of the port with bit `i` replaced. -/
theorem withBit_lines : ∀ (i : Fin 8) (b : Bool), ∀ v ∈ [(0 : UInt8), 1], ∀ w ∈ [(0 : UInt8), 2],
    ∀ l ∈ [(0 : UInt8), 4], ∀ k ∈ [(0 : UInt8), 8],
      let x := withBit i.val.toUInt32 b (v ||| w ||| l ||| k).toUInt32
      (x &&& 0x01).toUInt8 = (if i = 0 then (if b then 1 else 0) else v) ∧
      (x &&& 0x02).toUInt8 = (if i = 1 then (if b then 2 else 0) else w) ∧
      (x &&& 0x04).toUInt8 = (if i = 2 then (if b then 4 else 0) else l) ∧
      (x &&& 0x08).toUInt8 = (if i = 3 then (if b then 8 else 0) else k) ∧
      (x &&& 0x08 ≠ 0 ↔ (if i = 3 then (if b then 8 else 0) else k) ≠ 0) := by
  decide +kernel

/-- The LED that is shown already. -/
theorem setLed_led (m : Machine) : setLed m.hw700.led m = m := by
  rw [setLed, if_neg (not_not_intro rfl)]

/-- A write to `E002`, by its four bits. -/
theorem writePortC_eq {x : UInt32} {v w l k : UInt8} (hv : (x &&& 0x01).toUInt8 = v)
    (hw : (x &&& 0x02).toUInt8 = w) (hl : (x &&& 0x04).toUInt8 = l) (hk : (x &&& 0x08).toUInt8 = k)
    (hedge : x &&& 0x08 ≠ 0 ↔ k ≠ 0) (m : Machine) :
    writePortC x m =
      setMotor k (if m.hw700.motor = 0 ∧ k ≠ 0 then motorEdge (setLed l (setLatches v w m))
        else setLed l (setLatches v w m)) := by
  have hmotor : (setLed l (setLatches v w m)).hw700.motor = m.hw700.motor := by
    rw [hw700_setLed]
    rfl
  simp only [writePortC, hv, hw, hl, hk, hedge, hmotor]

/-- A write to `E003`, by the number and the value of its bit. -/
theorem writePortCBit_eq {val : UInt32} {i : Fin 8} {b : Bool}
    (hi : (val >>> 1) &&& 7 = i.val.toUInt32) (hb : decide (val &&& 1 ≠ 0) = b) (m : Machine) :
    writePortCBit val m =
      if i = 0 then setLatches (if b then 1 else 0) m.hw700.wdata m
      else if i = 1 then setLatches m.hw700.vgate (if b then 2 else 0) m
      else if i = 2 then setLed (if b then 4 else 0) m
      else if i = 3 then
        setMotor (if b then 8 else 0) (if b ∧ m.hw700.motor = 0 then motorEdge m else m)
      else m := by
  have hbit : ∀ i k : Fin 8, i.val.toUInt32 = k.val.toUInt32 ↔ i = k := by decide +kernel
  have h0 : i.val.toUInt32 = 0 ↔ i = 0 := hbit i 0
  have h1 : i.val.toUInt32 = 1 ↔ i = 1 := hbit i 1
  have h2 : i.val.toUInt32 = 2 ↔ i = 2 := hbit i 2
  have h3 : i.val.toUInt32 = 3 ↔ i = 3 := hbit i 3
  simp only [writePortCBit, hi, h0, h1, h2, h3]
  subst hb
  by_cases hset : val &&& 1 = 0
  · simp only [hset, ne_eq, not_true_eq_false, decide_false, if_false, Bool.false_eq_true,
      false_and]
  · simp only [hset, ne_eq, not_false_eq_true, decide_true, if_true, true_and]

/-- Writing one bit of the port is writing the port with the bit replaced. -/
theorem Latched.writePortCBit_eq {m : Machine} (h : Latched m) (val : UInt32) :
    M5Z80.writePortCBit val m =
      writePortC (withBit ((val >>> 1) &&& 7) (decide (val &&& 1 ≠ 0)) m.portC) m := by
  obtain ⟨i, hi⟩ : ∃ i : Fin 8, (val >>> 1) &&& 7 = i.val.toUInt32 := by
    have hlt : ((val >>> 1) &&& 7).toNat < 8 := by
      rw [UInt32.toNat_and]
      exact Nat.lt_succ_of_le Nat.and_le_right
    exact ⟨⟨_, hlt⟩, (UInt32.ofNat_toNat).symm⟩
  obtain ⟨b, hb⟩ : ∃ b, decide (val &&& 1 ≠ 0) = b := ⟨_, rfl⟩
  obtain ⟨hv, hw, hl, hk, hedge⟩ := withBit_lines i b m.hw700.vgate (by simpa using h.vgate)
    m.hw700.wdata (by simpa using h.wdata) m.hw700.led (by simpa using h.led)
    m.hw700.motor (by simpa using h.motor)
  have hsame : ¬ (m.hw700.motor = 0 ∧ m.hw700.motor ≠ 0) := fun hm => hm.2 hm.1
  rw [M5Z80.writePortCBit_eq hi hb, hb, hi, Machine.portC, writePortC_eq hv hw hl hk hedge]
  have hled (v w : UInt8) : setLed m.hw700.led (setLatches v w m) = setLatches v w m :=
    setLed_led (setLatches v w m)
  have hlatches : setLatches m.hw700.vgate m.hw700.wdata m = m := rfl
  have hmotor (v w : UInt8) : setMotor m.hw700.motor (setLatches v w m) = setLatches v w m := rfl
  have hmotor' (v : UInt8) : setMotor m.hw700.motor (setLed v m) = setLed v m := by
    have hline : (setLed v m).hw700.motor = m.hw700.motor := by rw [hw700_setLed]
    rw [← hline]
    rfl
  have hself : setMotor m.hw700.motor m = m := rfl
  -- the lines that keep their value leave the machine as it is
  match i with
  | 0 => simp [hled, hsame, hmotor]
  | 1 => simp [hled, hsame, hmotor]
  | 2 => simp [hlatches, hsame, hmotor']
  | 3 => cases b <;> simp [hlatches, setLed_led]
  | 4 | 5 | 6 | 7 => simp [hlatches, setLed_led, hsame, hself]

/-- In every state the system reaches from a reset, a byte written to
`E003` does what the port with its bit replaced does at `E002`. -/
theorem portC_oneMeaning (rand : UInt32) (m : Machine) (ops : List SystemStep) (val : UInt32) :
    let s := Run.exec SystemStep.apply ops (mzReset rand m)
    mmioOut 0xE003 val s =
      mmioOut 0xE002 (withBit ((val >>> 1) &&& 7) (decide (val &&& 1 ≠ 0)) s.portC) s := by
  have hlatched : Latched (Run.exec SystemStep.apply ops (mzReset rand m)) :=
    Run.invariant (fun _ o h => h.apply o) ops (latched_mzReset rand m)
  exact hlatched.writePortCBit_eq val

end M5Z80
