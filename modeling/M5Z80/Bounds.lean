import M5Z80.Frame
import M5Z80.Lib.Run

/-!
# M5Z80.Bounds

The indices that memory-mapped I/O computes from guest bytes.  From a reset
machine on, every one of them stays inside its array, except that a control
word written to `E007` can select a fourth channel of the 8253, which has
three.
-/

namespace M5Z80

/-- Every index noted in the trace is inside its array. -/
def Machine.InBounds (m : Machine) : Prop :=
  ∀ u ∈ m.trace.used, 0 ≤ u.2 ∧ u.2 < u.1.size

/-! ## accesses -/

/-- What the guest can do to the MMIO registers, and a tick of the 8253. -/
inductive MmioStep
  | read (addr : UInt32)
  | write (addr val : UInt32)
  | tick

namespace MmioStep

/-- The machine after an access. -/
def apply : MmioStep → Machine → Machine
  | .read addr, m => (mmioIn addr m).2
  | .write addr val, m => mmioOut addr val m
  | .tick, m => (pitCount m).2

/-- What a guest program can do: the MMIO addresses and byte values. -/
def Guest : MmioStep → Prop
  | .read addr => 0xE000 ≤ addr ∧ addr ≤ 0xFFFF
  | .write addr val => 0xE000 ≤ addr ∧ addr ≤ 0xFFFF ∧ val < 256
  | .tick => True

/-- The control word of this access selects channel 3. -/
def SelectsNoChannel : MmioStep → Prop
  | .write addr val => addr = 0xE007 ∧ (val >>> 6) &&& 3 = 3
  | _ => False

end MmioStep

/-! ## the trace of each access -/

/-- A use adds its own index to those that have to be inside. -/
@[simp] theorem inBounds_use (t : Table) (i : Int) (m : Machine) :
    (m.use t i).InBounds ↔ m.InBounds ∧ 0 ≤ i ∧ i < t.size := by
  simp only [Machine.InBounds, Machine.use, List.forall_mem_cons]
  exact and_comm

theorem inBounds_congr {m m' : Machine} (h : m'.trace = m.trace) : m'.InBounds ↔ m.InBounds := by
  simp only [Machine.InBounds, h]

/-- The control word selects by a number that may be too high; the access is inside for a
channel only. -/
theorem inBounds_modStat (i : Nat) (f : T8253Stat → T8253Stat) (m : Machine) :
    (modStat i f m).InBounds ↔ m.InBounds ∧ i < 3 := by
  have huse : (m.use .stat8253 i).InBounds ↔ m.InBounds ∧ i < 3 := by
    rw [inBounds_use, and_congr_right_iff]
    intro _
    simp only [Table.size]
    omega
  rw [← huse]
  apply inBounds_congr
  simp only [modStat]
  split <;> rfl

/-- The channel an access selects is one of three unless its control word
says otherwise. -/
theorem inBounds_write8253Cw (cw : UInt32) (m : Machine) :
    (write8253Cw cw m).InBounds ↔ m.InBounds ∧ (cw >>> 6) &&& 3 ≠ 3 := by
  have hsel : ((cw >>> 6) &&& 3).toUInt8.toNat = ((cw >>> 6) &&& 3).toNat := by
    rw [UInt32.toNat_toUInt8]
    have : ((cw >>> 6) &&& 3).toNat ≤ 3 := by
      rw [UInt32.toNat_and]; exact Nat.and_le_right
    omega
  have hiff : ((cw >>> 6) &&& 3).toNat < 3 ↔ (cw >>> 6) &&& 3 ≠ 3 := by
    have : ((cw >>> 6) &&& 3).toNat ≤ 3 := by
      rw [UInt32.toNat_and]; exact Nat.and_le_right
    rw [Ne, ← UInt32.toNat_inj]
    simp only [UInt32.reduceToNat]
    omega
  simp only [write8253Cw, inBounds_modStat, hsel, hiff]
  exact and_congr_left' (inBounds_congr rfl)

/-- A tick of one channel uses a number below 3. -/
theorem inBounds_pitcountJob (no : Fin 3) (cou : Int) (m : Machine) :
    (pitcountJob no cou m).2.InBounds ↔ m.InBounds := by
  have huse : (m.use .stat8253 no).InBounds ↔ m.InBounds := by
    rw [inBounds_use, and_iff_left]
    simp only [Table.size]
    omega
  rw [← huse]
  exact inBounds_congr rfl

theorem inBounds_pitCount (m : Machine) : (pitCount m).2.InBounds ↔ m.InBounds := by
  simp only [pitCount]
  split
  · rw [inBounds_pitcountJob, inBounds_pitcountJob]
  · exact inBounds_pitcountJob 1 1 m

/-- A counter register is read at the number of its own channel. -/
theorem inBounds_readCounter (no : Fin 3) (m : Machine) :
    (readCounter no m).2.InBounds ↔ m.InBounds := by
  have huse : (m.use .stat8253 no).InBounds ↔ m.InBounds := by
    rw [inBounds_use, and_iff_left]
    simp only [Table.size]
    omega
  rw [← huse]
  exact inBounds_congr rfl

theorem inBounds_writeCounter (no : Fin 3) (val : UInt32) (m : Machine) :
    (writeCounter no val m).InBounds ↔ m.InBounds := by
  have hmod : (modStat no (·.write val) m).InBounds ↔ m.InBounds := by
    rw [inBounds_modStat]
    exact and_iff_left no.isLt
  rw [← hmod]
  apply inBounds_congr
  simp only [writeCounter]
  split <;> rfl

/-- The character ROM has 4096 bytes and the PCG 2048; the address keeps
11 bits. -/
theorem inBounds_writePcgControl (val : UInt32) (m : Machine) :
    (writePcgControl val m).InBounds ↔ m.InBounds := by
  have hmask (a : UInt32) : (a &&& 2047).toNat ≤ 2047 := by
    rw [UInt32.toNat_and]; exact Nat.and_le_right
  have hpcg (v : UInt8) (m' : Machine) : (setPcg700Font v m').InBounds ↔ m'.InBounds := by
    have huse : (m'.use .pcg700Font (m'.hw700.pcg700Addr &&& 2047).toNat).InBounds ↔
        m'.InBounds := by
      have := hmask m'.hw700.pcg700Addr
      rw [inBounds_use, and_iff_left]
      simp only [Table.size]
      omega
    rw [← huse]
    exact inBounds_congr rfl
  simp only [writePcgControl]
  split
  · have := hmask ((m.hw700.pcg700Addr &&& (0x00FF : UInt32)) ||| (val <<< 8))
    simp only [hpcg, inBounds_use, Table.size]
    rw [and_iff_left (by split <;> omega)]
    exact inBounds_congr rfl
  split
  · rw [hpcg]
    exact inBounds_congr rfl
  · exact inBounds_congr rfl

/-! ## the stopped deck -/

/-- The invariant of a machine without a tape: the selected keyboard row
exists and the deck neither runs nor has a tape to play. -/
structure Idle (m : Machine) : Prop where
  row : 0 ≤ m.hw700.pbSelect ∧ m.hw700.pbSelect ≤ 9
  stopped : m.ts700.cmtTstates = 0
  noTape : m.ts700.cmtPlay = 0

/-- A deck that stands still answers without a look at the tape. -/
theorem cmtRead_of_stopped {m : Machine} (h : m.ts700.cmtTstates = 0) : cmtRead m = (0, m) := by
  simp only [cmtRead, h, if_true]

/-- Without a tape the motor line does nothing. -/
theorem motorEdge_of_noTape {m : Machine} (h : m.ts700.cmtTstates = 0) (h' : m.ts700.cmtPlay = 0) :
    motorEdge m = m := by
  simp [motorEdge, h, h']

theorem Idle.congr {m m' : Machine} (h : Idle m) (hts : m'.ts700 = m.ts700)
    (hrow : m'.hw700.pbSelect = m.hw700.pbSelect) : Idle m' :=
  ⟨by rw [hrow]; exact h.row, by rw [hts]; exact h.stopped, by rw [hts]; exact h.noTape⟩

/-- Lighting the LED is noted in `sysst` and `xferFlag` only. -/
theorem setLed_eq (v : UInt8) (m : Machine) : ∃ sysst xferFlag,
    setLed v m = { m with hw700.led := v, sysst := sysst, xferFlag := xferFlag } := by
  simp only [setLed]
  split
  · exact ⟨_, _, rfl⟩
  · next h => exact ⟨m.sysst, m.xferFlag, by rw [← of_not_not h]⟩

/-- With no tape in the deck, a write to port C uses no table. -/
theorem writePortC_of_idle {m : Machine} (h : Idle m) (val : UInt32) :
    Idle (writePortC val m) ∧ (writePortC val m).trace = m.trace := by
  let m₁ := setLatches (val &&& 0x01).toUInt8 (val &&& 0x02).toUInt8 m
  obtain ⟨sysst, xferFlag, hled⟩ := setLed_eq (val &&& 0x04).toUInt8 m₁
  have h₂ : Idle (setLed (val &&& 0x04).toUInt8 m₁) := by
    rw [hled]
    exact h.congr rfl rfl
  have ht : (setLed (val &&& 0x04).toUInt8 m₁).trace = m.trace := by rw [hled]; rfl
  simp only [writePortC]
  rw [motorEdge_of_noTape h₂.stopped h₂.noTape, ite_self]
  exact ⟨h₂.congr rfl rfl, ht⟩

/-- The same for the bit set and reset command. -/
theorem writePortCBit_of_idle {m : Machine} (h : Idle m) (val : UInt32) :
    Idle (writePortCBit val m) ∧ (writePortCBit val m).trace = m.trace := by
  have hled (v : UInt8) : Idle (setLed v m) ∧ (setLed v m).trace = m.trace := by
    obtain ⟨_, _, hled⟩ := setLed_eq v m
    rw [hled]
    exact ⟨h.congr rfl rfl, rfl⟩
  simp only [writePortCBit, motorEdge_of_noTape h.stopped h.noTape, ite_self]
  repeat' split
  all_goals first
    | exact hled _
    | exact ⟨h.congr rfl rfl, rfl⟩

/-! ## every access -/

namespace MmioStep

/-- No access starts the deck or selects a keyboard row that is not there. -/
theorem idle_apply (m : Machine) (o : MmioStep) (h : Idle m) : Idle (o.apply m) := by
  cases o with
  | read addr =>
      refine mmioIn_cases (P := fun q => Idle q.2) addr m ?_ ?_ ?_ ?_
      · intro _; exact h
      · intro _; exact h.congr rfl rfl
      · intro _
        simp only [readPortC, cmtRead_of_stopped h.stopped]
        exact h
      · intro no; exact h.congr rfl rfl
  | write addr val =>
      refine mmioOut_cases (P := Idle) addr val m ?_ ?_ ?_ ?_ ?_ ?_ ?_ ?_ ?_ ?_
      · refine ⟨?_, h.stopped, h.noTape⟩
        simp only [selectRow]
        split <;> omega
      · intro _; exact (writePortC_of_idle h val).1
      · intro _; exact (writePortCBit_of_idle h val).1
      · intro no
        simp only [writeCounter, modStat, play8253]
        repeat' split
        all_goals exact h.congr rfl rfl
      · intro _
        simp only [write8253Cw, modStat]
        split <;> exact h.congr rfl rfl
      · exact h.congr rfl rfl
      · exact h.congr rfl rfl
      · exact h.congr rfl rfl
      · simp only [writePcgControl]
        repeat' split
        all_goals exact h.congr rfl rfl
      · exact h
  | tick =>
      simp only [apply, pitCount]
      split <;> exact h.congr rfl rfl

/-- One access keeps every index in bounds unless it selects channel 3. -/
theorem inBounds_apply (m : Machine) (o : MmioStep) (h : Idle m) :
    (o.apply m).InBounds ↔ m.InBounds ∧ ¬ o.SelectsNoChannel := by
  cases o with
  | read addr =>
      simp only [SelectsNoChannel, not_false_eq_true, and_true]
      refine mmioIn_cases (P := fun q => q.2.InBounds ↔ m.InBounds) addr m ?_ ?_ ?_ ?_
      · intro _; rfl
      · intro _
        have := h.row
        simp only [readKeyport]
        rw [inBounds_use, and_iff_left]
        simp only [Table.size]
        omega
      · intro _
        simp only [readPortC, cmtRead_of_stopped h.stopped]
      · intro no; exact inBounds_readCounter no m
  | write addr val =>
      by_cases hcw : addr = 0xE007
      · subst hcw
        simp only [SelectsNoChannel, true_and]
        exact inBounds_write8253Cw val m
      · simp only [SelectsNoChannel, hcw, false_and, not_false_eq_true, and_true]
        refine mmioOut_cases (P := fun m' => m'.InBounds ↔ m.InBounds) addr val m
          ?_ ?_ ?_ ?_ ?_ ?_ ?_ ?_ ?_ ?_
        · exact inBounds_congr rfl
        · intro _; exact inBounds_congr (writePortC_of_idle h val).2
        · intro _; exact inBounds_congr (writePortCBit_of_idle h val).2
        · intro no; exact inBounds_writeCounter no val m
        · intro h; exact absurd h hcw
        · exact inBounds_congr rfl
        · exact inBounds_congr rfl
        · exact inBounds_congr rfl
        · exact inBounds_writePcgControl val m
        · rfl
  | tick =>
      simp only [SelectsNoChannel, not_false_eq_true, and_true]
      exact inBounds_pitCount m

end MmioStep

/-! ## every run -/

/-- `mz_reset` leaves the deck stopped, without a tape, and row 0 selected. -/
theorem idle_mzReset (rand : UInt32) (m : Machine) : Idle (mzReset rand m) := by
  refine ⟨?_, by rw [ts700_mzReset]; rfl, by rw [ts700_mzReset]; rfl⟩
  rw [pbSelect_mzReset]
  decide

/-- In a run of accesses from a reset machine, every index stays inside its
array exactly when no access is a control word for channel 3. -/
theorem mmio_inBounds_iff (rand : UInt32) (m : Machine) (ops : List MmioStep) :
    (Run.exec MmioStep.apply ops (mzReset rand m).untraced).InBounds ↔
      ∀ o ∈ ops, ¬ o.SelectsNoChannel := by
  have hidle : Idle (mzReset rand m).untraced := (idle_mzReset rand m).congr rfl rfl
  have hempty : (mzReset rand m).untraced.InBounds := by
    intro u hu
    exact absurd hu (List.not_mem_nil)
  rw [Run.exec_iff MmioStep.idle_apply MmioStep.inBounds_apply ops hidle, and_iff_right hempty,
    Run.along_input_iff]

/-- The control word `C0` selects channel 3: index 3 of three channels. -/
theorem not_mmio_inBounds : ¬ ∀ (rand : UInt32) (m : Machine) (ops : List MmioStep),
    (∀ o ∈ ops, o.Guest) →
      (Run.exec MmioStep.apply ops (mzReset rand m).untraced).InBounds := by
  intro h
  have hguest : ∀ o ∈ [MmioStep.write 0xE007 0xC0], o.Guest := by
    simp only [List.mem_singleton, forall_eq, MmioStep.Guest]
    decide
  have hin := h 0 Machine.cold [.write 0xE007 0xC0] hguest
  exact ((inBounds_write8253Cw 0xC0 _).mp hin).2 (by decide)

end M5Z80
