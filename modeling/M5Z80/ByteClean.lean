import M5Z80.Bounds
import M5Z80.Banks
import M5Z80.Words
import M5Z80.Z80.Cpu

/-!
# M5Z80.ByteClean

The CPU core never masks what `Z80_RDMEM` returns, so its 16-bit registers
stay 16 bits wide only while every read gives a byte.  Every memory cell
and every MMIO register does, with one exception: a channel of the 8253
that runs in mode 4 has the counter `-1` after its terminal count, and the
high byte of that is `-1` again.
-/

namespace M5Z80

/-! ## one channel -/

namespace T8253Stat

/-- The counter is a 16-bit number. -/
def InRange (st : T8253Stat) : Prop := 0 ≤ st.counter ∧ st.counter ≤ 65535

/-- The next tick takes the channel to the terminal count of mode 4. -/
def Strobes (st : T8253Stat) : Prop := st.running ≠ 0 ∧ st.mode = 4 ∧ st.counter ≤ 1

instance (st : T8253Stat) : Decidable st.Strobes := inferInstanceAs (Decidable (_ ∧ _ ∧ _))

theorem InRange.congr {st st' : T8253Stat} (h : st.InRange) (hc : st'.counter = st.counter) :
    st'.InRange := by
  rwa [InRange, hc]

/-- A control word leaves the counter, or latches it. -/
theorem InRange.control {st : T8253Stat} (h : st.InRange) (dat : T8253Dat) :
    (st.control dat).InRange := by
  simp only [T8253Stat.control]
  split <;> exact h

/-- A loaded base is a 16-bit number. -/
theorem InRange.reload {st : T8253Stat} (h : st.InRange) (base : UInt16) :
    (st.reload base).InRange := by
  have := base.toNat_lt
  simp only [T8253Stat.reload]
  split
  · simp only [InRange]
    omega
  · exact h

theorem InRange.unlatch {st : T8253Stat} (h : st.InRange) : st.unlatch.InRange := by
  unfold T8253Stat.unlatch
  split <;> exact h

/-- A write loads a 16-bit number or nothing. -/
theorem InRange.write {st : T8253Stat} (h : st.InRange) (val : UInt32) :
    (st.write val).InRange := by
  have h₀ : st.unlatch.InRange := h.unlatch
  unfold T8253Stat.write
  generalize st.unlatch = st₀ at h₀
  have hload (base : UInt16) : (st₀.reload base).InRange := h₀.reload base
  dsimp only
  split_ifs
  · exact (hload _).congr rfl
  · exact (hload _).congr rfl
  · exact (hload _).congr rfl
  · exact (hload _).congr rfl
  · exact h₀

/-- A read changes the flip-flop and the latch, not the counter. -/
theorem InRange.read {st : T8253Stat} (h : st.InRange) : st.read.2.InRange := by
  simp only [T8253Stat.read]
  repeat' split
  all_goals exact h

/-- A tick keeps the counter in range, except at the end of mode 4. -/
theorem InRange.pitcountJob {st : T8253Stat} (h : st.InRange) (hs : ¬ st.Strobes) :
    (st.pitcountJob 1).2.InRange := by
  have hbase := st.counterBase.toNat_lt
  simp only [InRange] at h
  simp only [Strobes] at hs
  simp only [T8253Stat.pitcountJob]
  split
  · exact h
  repeat' split
  all_goals simp only [InRange]
  all_goals first
    | omega
    | grind

/-- Every byte read from a counter in range is a byte. -/
theorem InRange.read_byte {st : T8253Stat} (h : st.InRange) : 0 ≤ st.read.1 ∧ st.read.1 ≤ 255 := by
  have hlat := st.counterLat.toNat_lt
  simp only [InRange] at h
  simp only [T8253Stat.read]
  repeat' split
  all_goals omega

end T8253Stat

/-! ## what a write does to the signals -/

/-- The signals that a read of port C or of a counter can show. -/
def Machine.signals (m : Machine) : UInt8 × (Fin 3 → T8253Stat) := (m.hw700.retrace, m.stat8253)

theorem signals_setLatches (v w : UInt8) (m : Machine) :
    (setLatches v w m).signals = m.signals := rfl

theorem signals_setMotor (v : UInt8) (m : Machine) : (setMotor v m).signals = m.signals := rfl

theorem signals_setLed (v : UInt8) (m : Machine) : (setLed v m).signals = m.signals := by
  obtain ⟨_, _, h⟩ := setLed_eq v m
  rw [h]
  rfl

/-- The motor moves neither the retrace signal nor the channels. -/
theorem signals_motorEdge (m : Machine) : (motorEdge m).signals = m.signals := by
  unfold motorEdge
  split
  · split <;> rfl
  · rfl

theorem signals_writePortC (val : UInt32) (m : Machine) :
    (writePortC val m).signals = m.signals := by
  simp only [writePortC, signals_setMotor]
  split
  · rw [signals_motorEdge, signals_setLed, signals_setLatches]
  · rw [signals_setLed, signals_setLatches]

theorem signals_writePortCBit (val : UInt32) (m : Machine) :
    (writePortCBit val m).signals = m.signals := by
  unfold writePortCBit
  dsimp only
  repeat' split
  all_goals first
    | exact signals_setLed _ m
    | rfl
    | exact (signals_setMotor _ _).trans (signals_motorEdge m)

theorem signals_writePcgControl (val : UInt32) (m : Machine) :
    (writePcgControl val m).signals = m.signals := by
  unfold writePcgControl
  dsimp only
  repeat' split
  all_goals rfl

/-! ## the invariant -/

/-- A machine whose reads are bytes: the deck is stopped, the retrace bit is
a bit and every counter is in range. -/
structure Steady (m : Machine) : Prop extends Idle m where
  retrace : m.hw700.retrace = 0 ∨ m.hw700.retrace = 1
  counters : ∀ no, (m.stat8253 no).InRange

/-- Everything but the deck, the row, the signals and the channels is free to change. -/
theorem Steady.congr {m m' : Machine} (h : Steady m) (hidle : Idle m')
    (hsignals : m'.signals = m.signals) : Steady m' := by
  obtain ⟨hretrace, hstat⟩ := Prod.mk.inj hsignals
  exact ⟨hidle, by rw [hretrace]; exact h.retrace, by rw [hstat]; exact h.counters⟩

/-- Only one channel changes, and it stays in range. -/
theorem Steady.modStat {m : Machine} (h : Steady m) (i : Nat) {f : T8253Stat → T8253Stat}
    (hf : ∀ st : T8253Stat, st.InRange → (f st).InRange) : Steady (modStat i f m) := by
  unfold M5Z80.modStat
  dsimp only
  split
  · refine ⟨h.toIdle.congr rfl rfl, h.retrace, ?_⟩
    exact Function.forall_update_iff _ (fun _ (st : T8253Stat) => st.InRange) |>.mpr
      ⟨hf _ (h.counters _), fun no _ => h.counters no⟩
  · exact h.congr (h.toIdle.congr rfl rfl) rfl

theorem Steady.mCstate {m : Machine} (h : Steady m) (n : Nat) : Steady (mCstate n m) := by
  obtain ⟨_, _, retrace, heq, hretrace⟩ := mCstate_eq n m
  rw [heq]
  refine ⟨⟨h.row, h.stopped, h.noTape⟩, ?_, h.counters⟩
  obtain rfl | rfl := hretrace
  · exact h.retrace
  · exact .inl rfl

theorem Steady.readWait {m : Machine} (h : Steady m) (attr : UInt8) :
    Steady (readWait attr m) := by
  unfold M5Z80.readWait
  dsimp only
  split
  · split
    · exact (h.mCstate 1).mCstate _
    · exact h.mCstate 1
  · split
    · exact h.mCstate _
    · exact h

theorem Steady.use {m : Machine} (h : Steady m) (t : Table) (i : Int) : Steady (m.use t i) :=
  h.congr (h.toIdle.congr rfl rfl) rfl

/-- A byte stored in memory is none of the signals. -/
theorem Steady.store {m : Machine} (h : Steady m) (p : Ptr) (ofs : Nat) (v : UInt8) :
    Steady (m.store p ofs v) := by
  unfold Machine.store
  split <;> exact h.congr (h.toIdle.congr rfl rfl) rfl

/-- The banks do not matter. -/
theorem Steady.z80Out {m : Machine} (h : Steady m) (port value : UInt16) :
    Steady (z80Out port value m) := by
  have hunbanked : (M5Z80.z80Out port value m).unbanked = m.unbanked := unbanked_z80Out ..
  have hts : (M5Z80.z80Out port value m).ts700 = m.ts700 := congrArg (·.ts700) hunbanked
  have hrow : (M5Z80.z80Out port value m).hw700.pbSelect = m.hw700.pbSelect :=
    congrArg (·.hw700.pbSelect) hunbanked
  have hsignals : (M5Z80.z80Out port value m).unbanked.signals = m.unbanked.signals := by
    rw [hunbanked]
  exact h.congr (h.toIdle.congr hts hrow) hsignals

/-! ## steps -/

/-- A read of a counter register leaves the counters in range. -/
theorem Steady.readCounter {m : Machine} (h : Steady m) (no : Fin 3) :
    Steady (readCounter no m).2 := by
  refine ⟨h.toIdle.congr rfl rfl, h.retrace, ?_⟩
  exact Function.forall_update_iff _ (fun _ (st : T8253Stat) => st.InRange) |>.mpr
    ⟨(h.counters no).read, fun no' _ => h.counters no'⟩

/-- A read of any register keeps what the reads rely on. -/
theorem Steady.mmioIn {m : Machine} (h : Steady m) (addr : UInt32) : Steady (mmioIn addr m).2 := by
  refine mmioIn_cases (P := fun q => Steady q.2) addr m ?_ ?_ ?_ ?_
  · intro _; exact h
  · intro _; exact h.use _ _
  · intro _
    simp only [readPortC, cmtRead_of_stopped h.stopped]
    exact h
  · intro no; exact h.readCounter no

/-- So does a write of any register. -/
theorem Steady.mmioOut {m : Machine} (h : Steady m) (addr val : UInt32) :
    Steady (mmioOut addr val m) := by
  have hidle : Idle (M5Z80.mmioOut addr val m) :=
    MmioStep.idle_apply m (.write addr val) h.toIdle
  refine (mmioOut_cases (P := fun m' => Idle m' → Steady m') addr val m
    ?_ ?_ ?_ ?_ ?_ ?_ ?_ ?_ ?_ ?_) hidle
  · intro hi; exact h.congr hi rfl
  · intro _ hi; exact h.congr hi (signals_writePortC val m)
  · intro _ hi; exact h.congr hi (signals_writePortCBit val m)
  · intro no hi
    have hmod : Steady (M5Z80.modStat no (·.write val) m) :=
      h.modStat no fun _ hst => hst.write val
    refine hmod.congr hi ?_
    unfold writeCounter
    dsimp only
    split <;> rfl
  · intro _ _
    unfold write8253Cw
    refine Steady.modStat ?_ _ fun _ hst => hst.control _
    exact h.congr (h.toIdle.congr rfl rfl) rfl
  · intro hi; exact h.congr hi rfl
  · intro hi; exact h.congr hi rfl
  · intro hi; exact h.congr hi rfl
  · intro hi; exact h.congr hi (signals_writePcgControl val m)
  · intro _; exact h

/-- A tick that takes neither channel it counts down past the terminal
count of mode 4. -/
def NoStrobe (m : Machine) : Prop :=
  ¬ (m.stat8253 1).Strobes ∧
    (((m.stat8253 1).pitcountJob 1).1 ≠ 0 → ¬ (m.stat8253 2).Strobes)

instance (m : Machine) : Decidable (NoStrobe m) := inferInstanceAs (Decidable (_ ∧ (_ → _)))

/-- A tick of a channel that does not strobe keeps its counter in range. -/
theorem Steady.pitcountJob {m : Machine} (h : Steady m) {no : Fin 3}
    (hno : ¬ (m.stat8253 no).Strobes) : Steady (pitcountJob no 1 m).2 := by
  refine ⟨h.toIdle.congr rfl rfl, h.retrace, ?_⟩
  exact Function.forall_update_iff _ (fun _ (st : T8253Stat) => st.InRange) |>.mpr
    ⟨(h.counters no).pitcountJob hno, fun no' _ => h.counters no'⟩

/-- A tick of the 8253 keeps all counters in range if none strobes in it. -/
theorem Steady.pitCount {m : Machine} (h : Steady m) (hs : NoStrobe m) : Steady (pitCount m).2 := by
  have h₁ : Steady (M5Z80.pitcountJob 1 1 m).2 := h.pitcountJob hs.1
  unfold M5Z80.pitCount
  dsimp only
  split
  · next hout => exact h₁.pitcountJob (hs.2 hout)
  · exact h₁

/-- Reads of the guest keep it. -/
theorem Steady.z80Rdmem {m : Machine} (h : Steady m) (x : UInt32) : Steady (z80Rdmem x m).2 := by
  unfold M5Z80.z80Rdmem
  dsimp only
  split
  · have hwait : ∀ attr, Steady (M5Z80.readWait attr (m.use .memctrl (x >>> 11).toNat)) :=
      fun attr => (h.use _ _).readWait attr
    split
    · exact (hwait _).mmioIn x
    · exact hwait _
  · exact h.use _ _

/-- Writes of the guest keep it. -/
theorem Steady.z80Wrmem {m : Machine} (h : Steady m) (x y : UInt32) : Steady (z80Wrmem x y m) := by
  unfold M5Z80.z80Wrmem
  dsimp only
  have huse : Steady (m.use .memctrl (x >>> 11).toNat) := h.use _ _
  split
  · split
    · exact huse.mmioOut x y
    split
    · split
      · exact (huse.store _ _ _).mCstate _
      · exact huse.store _ _ _
    · exact huse
  · exact huse

/-! ## reads are bytes -/

/-- With the counters in range every register reads as a byte. -/
theorem Steady.mmioIn_byte {m : Machine} (h : Steady m) (addr : UInt32) :
    0 ≤ (M5Z80.mmioIn addr m).1 ∧ (M5Z80.mmioIn addr m).1 ≤ 255 := by
  refine mmioIn_cases (P := fun q => 0 ≤ q.1 ∧ q.1 ≤ 255) addr m ?_ ?_ ?_ ?_
  · intro v
    have := v.toNat_lt
    dsimp only
    omega
  · intro _
    simp only [readKeyport]
    split
    · next hi =>
        have := (m.keyports ⟨m.hw700.pbSelect.toNat, by omega⟩).toNat_lt
        omega
    · omega
  · intro _
    simp only [readPortC, cmtRead_of_stopped h.stopped, h.stopped]
    obtain hretrace | hretrace := h.retrace <;> rw [hretrace] <;> split <;> decide
  · intro no
    exact (h.counters no).read_byte

theorem ofInt_byte {v : Int} (h : 0 ≤ v ∧ v ≤ 255) : UInt32.ofInt v ≤ 255 := by
  obtain ⟨n, rfl⟩ := Int.eq_ofNat_of_zero_le h.1
  rw [UInt32.le_iff_toNat_le]
  simp only [UInt32.ofInt, UInt32.toNat_ofNat', UInt32.reduceToNat]
  omega

/-- So does every address, whatever bank is there. -/
theorem Steady.z80Rdmem_byte {m : Machine} (h : Steady m) {x : UInt32} (hx : x < 0x10000) :
    (M5Z80.z80Rdmem x m).1 ≤ 255 := by
  rw [z80Rdmem_eq (i := ⟨(x >>> 11).toNat, page_lt hx⟩) rfl]
  dsimp only
  split
  · exact ofInt_byte (((h.use _ _).readWait _).mmioIn_byte x)
  · rw [UInt32.le_iff_toNat_le, UInt8.toNat_toUInt32]
    exact Nat.le_of_lt_succ (UInt8.toNat_lt _)

/-! ## the bus -/

/-- Every read gives a byte, so that a 16-bit load, a word operand and a
word from the stack give an address that is inside the page tables. -/
structure ByteClean (m : Machine) : Prop where
  read : ∀ x < 0x10000, (z80Rdmem x m).1 ≤ 255
  load : ∀ x < 0x10000, (Pair.ofD (Cpu.rdmemWord x m).1).Addressable
  operand : m.r.pc.wh = 0 → (Pair.ofD (Cpu.rdmemOpcodeWord m).1).Addressable
  pop : m.r.sp.wh = 0 → (Cpu.pop m).1.Addressable

/-- Two bytes make a word, so a pair that was loaded from memory has no upper half. -/
theorem Steady.addressable_word {m : Machine} (h : Steady m) {x : UInt32} (hx : x < 0x10000) :
    (Pair.ofD (Cpu.rdmemWord x m).1).Addressable :=
  Pair.addressable_ofD <| word_lt (h.z80Rdmem_byte hx)
    ((h.z80Rdmem x).z80Rdmem_byte (and_65535_lt (x + 1)))

theorem Steady.pairs {m : Machine} (h : Steady m) (f : RegFile → RegFile) :
    Steady (Cpu.pairs f m).2 :=
  h.congr (h.toIdle.congr rfl rfl) rfl

/-- The program counter keeps its upper half while it moves on. -/
theorem Steady.addressable_operand {m : Machine} (h : Steady m) (hpc : m.r.pc.wh = 0) :
    (Pair.ofD (Cpu.rdmemOpcodeWord m).1).Addressable := by
  let m₁ := (M5Z80.z80Rdmem m.r.pc.d m).2
  let m₂ := (Cpu.skip 1 m₁).2
  have h₂ : Steady m₂ := (h.z80Rdmem _).pairs _
  have hr : m₁.r = m.r := congrArg Core.r (core_z80Rdmem _ m)
  have hpc₂ : m₂.r.pc.wh = 0 := by
    change m₁.r.pc.wh = 0
    rw [hr, hpc]
  exact Pair.addressable_ofD <| word_lt (h.z80Rdmem_byte (Pair.d_lt hpc))
    (h₂.z80Rdmem_byte (Pair.d_lt hpc₂))

/-- All reads of a steady machine are clean. -/
theorem Steady.byteClean {m : Machine} (h : Steady m) : ByteClean m where
  read _ hx := h.z80Rdmem_byte hx
  load _ hx := h.addressable_word hx
  operand hpc := h.addressable_operand hpc
  pop hsp := Pair.addressable_ofD <| word_lt (h.z80Rdmem_byte (Pair.d_lt hsp))
    ((h.z80Rdmem _).z80Rdmem_byte (and_65535_lt _))

/-! ## every run -/

/-- An access of the CPU, a bank command, an access to the MMIO registers
or a tick of the 8253. -/
inductive ByteStep
  | bus (o : BusStep)
  | mmio (o : MmioStep)

namespace ByteStep

/-- The machine after a step. -/
def apply : ByteStep → Machine → Machine
  | .bus o, m => o.apply m
  | .mmio o, m => o.apply m

/-- A tick has to find no channel at the terminal count of mode 4. -/
def Counts (m : Machine) : ByteStep → Prop
  | .mmio .tick => NoStrobe m
  | _ => True

/-- A step that takes no channel past its terminal count keeps the machine steady. -/
theorem steady_apply (m : Machine) (o : ByteStep) (h : Steady m) (ho : Counts m o) :
    Steady (o.apply m) := by
  cases o with
  | bus o =>
      cases o with
      | out port value => exact h.z80Out port value
      | write a v => exact h.z80Wrmem a.toUInt32 v
      | read a => exact h.z80Rdmem a.toUInt32
  | mmio o =>
      cases o with
      | read addr => exact h.mmioIn addr
      | write addr val => exact h.mmioOut addr val
      | tick => exact h.pitCount ho

end ByteStep

/-- After a reset all counters are zero. -/
theorem steady_mzReset (rand : UInt32) (m : Machine) : Steady (mzReset rand m) := by
  refine ⟨idle_mzReset rand m, .inr rfl, fun no => ?_⟩
  rw [stat8253_mzReset]
  split <;> exact ⟨Int.le_refl 0, by decide⟩

/-- In a run from a reset machine whose ticks take no channel past the
terminal count of mode 4, every state is byte-clean. -/
theorem byteClean_run (rand : UInt32) (m : Machine) (ops : List ByteStep)
    (hops : Run.Along ByteStep.apply ByteStep.Counts ops (mzReset rand m)) (pre : List ByteStep)
    (hpre : pre <+: ops) : ByteClean (Run.exec ByteStep.apply pre (mzReset rand m)) := by
  obtain ⟨post, rfl⟩ := hpre
  have hrun := ((Run.along_append pre post _).mp hops).1
  exact (Run.Along.invariant ByteStep.steady_apply hrun (steady_mzReset rand m)).byteClean

/-- Channel 1 counts 3 in mode 2, channel 2 its pulses in mode 0. -/
def countingRun : List ByteStep :=
  [.bus (.write 0xE007 0x74), .bus (.write 0xE007 0xB0), .bus (.write 0xE005 3),
    .bus (.write 0xE005 0), .bus (.write 0xE006 2), .bus (.write 0xE006 0), .mmio .tick,
    .mmio .tick, .mmio .tick, .mmio .tick]

/-- Two channels that are programmed and count for four ticks. -/
theorem byteClean_run_counting :
    ByteClean (Run.exec ByteStep.apply countingRun (mzReset 0 Machine.cold)) := by
  have hcounts : Run.Along ByteStep.apply ByteStep.Counts countingRun (mzReset 0 Machine.cold) :=
    ⟨trivial, trivial, trivial, trivial, trivial, trivial,
      show NoStrobe _ by decide +kernel, show NoStrobe _ by decide +kernel,
      show NoStrobe _ by decide +kernel, show NoStrobe _ by decide +kernel, trivial⟩
  exact byteClean_run 0 Machine.cold countingRun hcounts _ (List.prefix_refl _)

/-- A one-shot of channel 1 in mode 4 that has run out: the high byte of
its counter reads `FFFFFFFF`. -/
theorem not_byteClean_run : ¬ ∀ (rand : UInt32) (m : Machine) (ops : List ByteStep),
    ByteClean (Run.exec ByteStep.apply ops (mzReset rand m)) := by
  intro h
  have hread := (h 0 Machine.cold
    [.bus (.write 0xE007 0x68), .bus (.write 0xE005 0), .mmio .tick]).read 0xE005 (by decide)
  revert hread
  decide +kernel

end M5Z80
