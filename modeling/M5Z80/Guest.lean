import M5Z80.Banks
import M5Z80.Interrupts
import M5Z80.Words

/-!
# M5Z80.Guest

A guest program that runs with interrupts disabled, on the abstract address
space of the MZ-700: its registers, the bank configuration and the bytes of the
three stores.  The clock, the 8253 and the deck go on behind them.
-/

namespace M5Z80

/-- The machine shows these banks, bytes and registers, and takes no interrupt. -/
structure Shows (m : Machine) (g : BankConfig) (s : Cell → UInt8) (R : RegFile) : Prop where
  refines : Refines m (g, s)
  regs : m.r.toRegFile = R
  disabled : m.r.iff1 = 0

namespace Shows

variable {m m' : Machine} {g : BankConfig} {s : Cell → UInt8} {R : RegFile}

/-- Any memory and registers, in a machine that has the banks. -/
theorem of_hasBanks (h : HasBanks g m) (mem : Nat → UInt8) {r : Z80Regs} (hiff : r.iff1 = 0) :
    Shows { m with mem := mem, r := r } g (fun c => mem c.place) r.toRegFile :=
  ⟨⟨⟨h.bank, h.consistent⟩, fun _ => rfl⟩, rfl, hiff⟩

/-- Registers and the request flag do not show in the address space. -/
theorem withRegs (h : Shows m g s R) {r : Z80Regs} {flag : UInt32} (hiff : r.iff1 = 0) :
    Shows { m with r := r, z80Intflag := flag } g s r.toRegFile :=
  ⟨⟨⟨h.refines.1.bank, h.refines.1.consistent⟩, h.refines.2⟩, rfl, hiff⟩

/-- Only the core counts. -/
theorem of_core (h : Shows m g s R) (hcore : m'.core = m.core) : Shows m' g s R := by
  have hr : m'.r = m.r := congrArg Core.r hcore
  exact ⟨h.refines.congr hcore, hr ▸ h.regs, hr ▸ h.disabled⟩

/-- An interrupt request that is not taken. -/
theorem withIntflag (h : Shows m g s R) {flag : UInt32}
    (hcore : m'.core = { m.core with intflag := flag }) : Shows m' g s R := by
  have hflag : Shows { m with z80Intflag := flag } g s m.r.toRegFile := h.withRegs h.disabled
  exact h.regs ▸ hflag.of_core hcore

/-- Time does not show. -/
theorem cstate (h : Shows m g s R) (n : Nat) : Shows (mCstate n m) g s R :=
  h.of_core (core_mCstate n m)

/-- A change of registers shows in the registers. -/
theorem pairs (h : Shows m g s R) (f : RegFile → RegFile) : Shows (Cpu.pairs f m).2 g s (f R) := by
  rw [← h.regs]
  exact h.withRegs h.disabled

/-- The refresh counter does not show. -/
theorem incR (h : Shows m g s R) : Shows (Op.incR m).2 g s R := by
  rw [← h.regs]
  exact h.withRegs h.disabled

/-- Reading leaves everything as it is. -/
theorem rdmem (h : Shows m g s R) (a : UInt32) : Shows (Cpu.rdmem a m).2 g s R :=
  h.of_core (core_z80Rdmem a m)

/-- A byte of one of the stores. -/
theorem fst_rdmem (h : Shows m g s R) {a : UInt16} {c : Cell} (hc : g.decode a = some c) :
    (Cpu.rdmem a.toUInt32 m).1 = (s c).toUInt32 := by
  obtain ⟨m₁, -, heq⟩ := z80Rdmem_target a m
  rw [h.refines.1.target, BankConfig.target, hc] at heq
  rw [Cpu.rdmem, heq]
  exact congrArg UInt8.toUInt32 (h.refines.2 c)

/-- A write to the stores, or to MMIO registers. -/
theorem wrmem (h : Shows m g s R) (a : UInt16) (v : UInt32) :
    Shows (Cpu.wrmem a.toUInt32 v m).2 g (mz700.step (.write a v.toUInt8) (g, s)).2 R :=
  ⟨BusStep.refines_write h.refines a v, (congrArg _ (r_z80Wrmem a.toUInt32 v m)).trans h.regs,
    (congrArg _ (r_z80Wrmem a.toUInt32 v m)).trans h.disabled⟩

/-- The next byte of the program. -/
theorem rdmemOpcode (h : Shows m g s R) : Shows (Cpu.rdmemOpcode m).2 g s
    { R with pc.wl := R.pc.wl + 1 } :=
  (h.rdmem m.r.pc.d).pairs fun R => { R with pc.wl := R.pc.wl + 1 }

/-- The opcode is the byte that the program counter shows. -/
theorem fst_rdmemOpcode (h : Shows m g s R) (hpc : R.pc.wh = 0) {c : Cell}
    (hc : g.decode R.pc.wl = some c) : (Cpu.rdmemOpcode m).1 = (s c).toUInt32 := by
  have hd : m.r.pc.d = R.pc.wl.toUInt32 := by
    rw [← h.regs] at hpc ⊢
    exact Pair.d_of_wh hpc
  have hread := h.fst_rdmem hc
  rw [← hd] at hread
  exact hread

/-- The check for an interrupt sees that they are disabled. -/
theorem z80Interrupt (h : Shows m g s R) : Shows (Cpu.z80Interrupt m).2 g s R := by
  obtain ⟨-, heq⟩ | ⟨-, heq⟩ | ⟨-, heq⟩ := z80Interrupt_cases m
  · rw [heq]
    exact h
  · rw [heq]
    exact h.of_core (core_pitCount _)
  · have hrequested : Shows (requested m) g s R := h.withIntflag (core_requested m)
    rw [heq, interrupt_of_disabled _ hrequested.disabled]
    exact hrequested

/-- The instruction that the next byte of the program selects. -/
theorem fetch {cycles : List Nat} {table : List (Cpu Unit)} {c : Cell} {f : Cpu Unit}
    {g' : BankConfig} {s' : Cell → UInt8} {R' : RegFile} (h : Shows m g s R) (hpc : R.pc.wh = 0)
    (hc : g.decode R.pc.wl = some c) (hentry : table.getD (s c).toNat Op.nop = f)
    (hf : ∀ {m}, Shows m g s { R with pc.wl := R.pc.wl + 1 } → Shows (f m).2 g' s' R') :
    Shows (Op.dispatch cycles table (Cpu.rdmemOpcode m).1 (Cpu.rdmemOpcode m).2).2 g' s' R' := by
  have hlt : (s c).toUInt32 < 256 := by
    rw [UInt32.lt_iff_toNat_lt, UInt8.toNat_toUInt32]
    exact (s c).toNat_lt
  rw [← UInt8.toNat_toUInt32] at hentry
  rw [h.fst_rdmemOpcode hpc hc, Op.dispatch_apply hlt rfl hentry]
  exact hf (h.rdmemOpcode.cstate _)

/-- A pass of the loop. -/
theorem pass {c : Cell} {f : Cpu Unit} {g' : BankConfig} {s' : Cell → UInt8} {R' : RegFile}
    (h : Shows m g s R) (hpc : R.pc.wh = 0) (hc : g.decode R.pc.wl = some c)
    (hentry : (Op.opcodeMain Cpu.ei).getD (s c).toNat Op.nop = f)
    (hf : ∀ {m}, Shows m g s { R with pc.wl := R.pc.wl + 1 } → Shows (f m).2 g' s' R') :
    Shows (M5Z80.pass m) g' s' R' := by
  simp only [M5Z80.pass, Cpu.pass, Cpu.instruction, Cpu.bind_apply]
  exact h.incR.z80Interrupt.fetch hpc hc hentry hf

/-- A prefix: the byte after it selects the instruction. -/
theorem prefixed {cycles : List Nat} {table : List (Cpu Unit)} {c : Cell} {f : Cpu Unit}
    {g' : BankConfig} {s' : Cell → UInt8} {R' : RegFile} (h : Shows m g s R) (hpc : R.pc.wh = 0)
    (hc : g.decode R.pc.wl = some c) (hentry : table.getD (s c).toNat Op.nop = f)
    (hf : ∀ {m}, Shows m g s { R with pc.wl := R.pc.wl + 1 } → Shows (f m).2 g' s' R') :
    Shows (Op.prefixed cycles table m).2 g' s' R' := by
  simp only [Op.prefixed, Cpu.bind_apply]
  exact h.incR.fetch hpc hc hentry hf

end Shows

end M5Z80
