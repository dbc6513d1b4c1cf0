import M5Z80.Lib.Backlog
import M5Z80.Timing

/-!
# M5Z80.Pace

The ticks of the 8253 against the T-states of the CPU.  `Z80_Interrupt`
makes up for at most one tick, `cval` T-states, each time it is called, so
that the ticks fall behind for good when the instructions between two calls
take longer than that.
-/

namespace M5Z80

/-! ## what a pass makes up for -/

/-- The ticks at a check. -/
def tickAt (m : Machine) : Nat := if Cpu.tickDue m then 1 else 0

/-- The calls of `pit_count` in a pass. -/
def ticks (m : Machine) : Nat := tickAt (startCheck m) + (eiCheck m).elim 0 tickAt

/-- The calls of `Z80_Interrupt` in a pass. -/
def checks (m : Machine) : Nat := 1 + (eiCheck m).elim 0 fun _ => 1

/-- The T-states of a pass. -/
def cost (m : Machine) : Nat := elapsedTstates m (pass m)

/-- `cpu_tstates` is ahead of `pit_tstates` by `b`, but for the wrap. -/
def Behind (m : Machine) (b : Int) : Prop :=
  m.ts700.cpuTstates - m.ts700.pitTstates = Int32.ofInt b

/-- From `m` to `m'`, `c` T-states are charged and `s` checks are made, of
which `t` tick.  A check only ticks when there is something to make up for,
and one that does not leaves less than a tick. -/
structure Served (c t s : Nat) (m m' : Machine) : Prop where
  cpu : m'.ts700.cpuTstates = m.ts700.cpuTstates + Int32.ofNat c
  pit : m'.ts700.pitTstates = m.ts700.pitTstates + Int32.ofNat (114 * t)
  turns : t ≤ s
  rest : ∀ b : Int, Behind m b → 0 ≤ b → 0 ≤ b + c - 114 * t ∧
    (b + c < 2 ^ 31 → t = s ∨ b + c - 114 * t < 114 + c)

namespace Served

variable {c t s c' t' s' : Nat} {m m₁ m' : Machine}

/-- T-states served or not move the backlog by the difference. -/
theorem behind (h : Served c t s m m') {b : Int} (hb : Behind m b) :
    Behind m' (b + c - 114 * t) := by
  have hsum : (b + c - 114 * t : Int) = b + (c : Int) - ((114 * t : Nat) : Int) := by push_cast; rfl
  rw [Behind, h.cpu, h.pit, hsum, Int32.ofInt_sub, Int32.ofInt_add, ← hb, Int32.ofInt_eq_ofNat,
    Int32.ofInt_eq_ofNat]
  grind

/-- One stretch behind another. -/
theorem trans (h : Served c t s m m₁) (h' : Served c' t' s' m₁ m') :
    Served (c + c') (t + t') (s + s') m m' := by
  refine ⟨?_, ?_, Nat.add_le_add h.turns h'.turns, fun b hb hnonneg => ?_⟩
  · rw [h'.cpu, h.cpu, Int32.ofNat_add]
    grind
  · rw [h'.pit, h.pit, Nat.mul_add, Int32.ofNat_add]
    grind
  · obtain ⟨hmid, hfirst⟩ := h.rest b hb hnonneg
    obtain ⟨hend, hsecond⟩ := h'.rest _ (h.behind hb) hmid
    push_cast
    refine ⟨by omega, fun hsmall => ?_⟩
    have hfirst := hfirst (by omega)
    have hsecond := hsecond (by omega)
    omega

/-- A charge, without a check. -/
theorem of_charged {lo hi : Nat} {drop : Int32} (h : Charged lo hi drop m m')
    (hpit : m'.ts700.pitTstates = m.ts700.pitTstates) : ∃ c ≤ hi, Served c 0 0 m m' := by
  obtain ⟨c, -, hc, hcpu, -⟩ := h
  refine ⟨c, hc, hcpu, ?_, Nat.le_refl 0, fun b _ hnonneg => ⟨by omega, fun _ => .inl rfl⟩⟩
  rw [hpit]
  exact (Int32.add_zero _).symm

end Served

/-- Only a check serves ticks. -/
theorem keepsFlag_pit : Cpu.KeepsFlag fun m m' => m'.ts700.pitTstates = m.ts700.pitTstates where
  refl _ := rfl
  trans h h' := h'.trans h
  regs _ _ := rfl
  budget _ _ := rfl
  use _ _ _ := rfl
  store m p ofs v := congrArg Timing.pit (timing_store m p ofs v)
  mCstate n m := by
    have hpit := congrArg Timing.pit (timing_mCstate n m)
    rw [Timing.charge_eq] at hpit
    exact hpit
  mmioIn addr m := congrArg Timing.pit (timing_mmioIn addr m)
  mmioOut addr val m := congrArg Timing.pit (timing_mmioOut addr val m)
  z80Out port value m := congrArg Timing.pit (timing_z80Out port value m)
  intflag _ _ := rfl

/-- A tick is due when the backlog is at least as long as one, in 32 bits. -/
theorem tickDue_iff {m : Machine} {b : Int} (h : Behind m b) :
    Cpu.tickDue m = true ↔ 114 ≤ (Int32.ofInt b).toInt := by
  have hcval : cval.toInt = 114 := by decide
  rw [Cpu.tickDue, decide_eq_true_iff, h, Int32.le_iff_toInt_le, hcval]

/-- A check ticks when the backlog is a tick or more. -/
theorem served_checkPit (m : Machine) : Served 0 (tickAt m) 1 m (checkPit m) := by
  have hsame (b : Int) (hnonneg : 0 ≤ b) (hlt : b < 2 ^ 31) : (Int32.ofInt b).toInt = b :=
    Int32.toInt_ofInt_of_le (by omega) hlt
  cases hdue : Cpu.tickDue m with
  | false =>
      have hcheck : checkPit m = m := by
        rw [checkPit, hdue]
        rfl
      have htick : tickAt m = 0 := by
        rw [tickAt, hdue]
        rfl
      rw [hcheck, htick]
      refine ⟨(Int32.add_zero _).symm, (Int32.add_zero _).symm, Nat.zero_le 1, fun b hb hnonneg => ?_⟩
      have hnot : ¬ 114 ≤ (Int32.ofInt b).toInt := by
        rw [← tickDue_iff hb, hdue]
        decide
      refine ⟨by omega, fun hlt => .inr ?_⟩
      rw [hsame b hnonneg (by omega)] at hnot
      omega
  | true =>
      have hcheck : checkPit m = (pitCount (Cpu.countTick m)).2 := if_pos hdue
      have htick : tickAt m = 1 := if_pos hdue
      have htiming := timing_pitCount (Cpu.countTick m)
      rw [hcheck, htick]
      refine ⟨?_, congrArg Timing.pit htiming, Nat.le_refl 1, fun b hb hnonneg => ?_⟩
      · exact (congrArg Timing.cpu htiming).trans (Int32.add_zero _).symm
      · have hle := (tickDue_iff hb).mp hdue
        refine ⟨?_, fun _ => .inl rfl⟩
        by_contra hneg
        rw [hsame b hnonneg (by omega)] at hle
        omega

/-- `Z80_Interrupt` makes one check, and charges what an accepted interrupt
takes. -/
theorem served_z80Interrupt (m : Machine) :
    ∃ c ≤ 344, Served c (tickAt m) 1 m (Cpu.z80Interrupt m).2 := by
  have hcheck := served_checkPit m
  obtain ⟨c₀, hlo, hc₀, hcpu₀, hrest⟩ := charged_z80Interrupt m
  have hcharged : Charged 0 344 0 (checkPit m) (Cpu.z80Interrupt m).2 := by
    have hmeter : (checkPit m).meter = m.meter := by
      unfold checkPit
      split
      · exact meter_pitCount _
      · rfl
    simp only [Machine.meter, Prod.mk.injEq] at hmeter
    obtain ⟨hcpu, hbudget, hspeeds⟩ := hmeter
    refine ⟨c₀, hlo, hc₀, ?_, ?_, ?_⟩
    · rw [hcpu₀, hcpu]
    · rw [hspeeds]
      exact hrest.1
    · rw [hspeeds, hbudget]
      exact hrest.2
  obtain ⟨c, hc, hserved⟩ := Served.of_charged hcharged (keepsFlag_pit.checked m)
  have htrans := hcheck.trans hserved
  rw [Nat.zero_add] at htrans
  exact ⟨c, hc, htrans⟩

/-- A pass charges at most 1122 T-states. -/
theorem served_pass (m : Machine) :
    Served (cost m) (ticks m) (checks m) m (pass m) ∧ cost m ≤ 1122 := by
  obtain ⟨c, hc, hserved⟩ : ∃ c ≤ 1122, Served c (ticks m) (checks m) m (pass m) := by
    have hstart : Served 0 0 0 m (startCheck m) :=
      ⟨(Int32.add_zero _).symm, (Int32.add_zero _).symm, Nat.le_refl 0,
        fun b _ hb => ⟨by omega, fun _ => .inl rfl⟩⟩
    obtain ⟨c₀, hc₀, hfirst⟩ := served_z80Interrupt (startCheck m)
    have hfetch := hstart.trans hfirst
    rw [← fetching_eq] at hfetch
    cases hcheck : eiCheck m with
    | none =>
        obtain ⟨c₁, hc₁, hnext⟩ := Served.of_charged (charged_nextEnabled (fetching m))
          (keepsFlag_pit.nextEnabled (fetching m))
        have hpass := hfetch.trans hnext
        rw [← pass_of_none hcheck] at hpass
        refine ⟨_, ?_, by simpa only [ticks, checks, hcheck, Nat.zero_add, Option.elim] using hpass⟩
        omega
    | some s =>
        obtain ⟨m₁, hbehind, rfl⟩ := Option.map_eq_some_iff.mp hcheck
        obtain ⟨_, hbehind', hcharged, -⟩ | ⟨hnone, -⟩ := behindEi_cases (fetching m)
        · rw [hbehind, Option.some.injEq] at hbehind'
          rw [← hbehind'] at hcharged
          have hpit : m₁.ts700.pitTstates = (fetching m).ts700.pitTstates := by
            have henabled (m : Machine) : (enabled m).ts700.pitTstates = m.ts700.pitTstates := rfl
            rw [(behindEi_some hbehind).2, henabled, keepsFlag_pit.mCstate,
              keepsFlag_pit.built Cpu.rdmemOpcode]
          obtain ⟨c₁, hc₁, hei⟩ := Served.of_charged hcharged hpit
          obtain ⟨c₂, hc₂, hnext⟩ := Served.of_charged (charged_nextEnabled m₁)
            (keepsFlag_pit.nextEnabled m₁)
          obtain ⟨c₃, hc₃, hlast⟩ := served_z80Interrupt (Cpu.instruction Cpu.eiEnabled m₁).2
          have hpass := ((hfetch.trans hei).trans hnext).trans hlast
          rw [← pass_of_some hcheck] at hpass
          refine ⟨_, ?_, by
            simpa only [ticks, checks, hcheck, Nat.zero_add, Nat.add_zero, Option.elim] using hpass⟩
          omega
        · rw [hbehind] at hnone
          cases hnone
  have hcost : cost m = c := elapsedTstates_eq (by omega) hserved.cpu
  rw [hcost]
  exact ⟨hserved, hc⟩

/-! ## every run -/

/-- The T-states of the first `n` passes, by a clock that does not wrap. -/
def tstates (m : Machine) (n : Nat) : Nat := ∑ k ∈ Finset.range n, cost (pass^[k] m)

/-- The calls of `pit_count` in the first `n` passes. -/
def pitCounts (m : Machine) (n : Nat) : Nat := ∑ k ∈ Finset.range n, ticks (pass^[k] m)

/-- After any number of passes, the ticks differ from the T-states divided
by `cval` by at most `C`. -/
def KeepsPace (m : Machine) (C : Nat) : Prop :=
  ∀ n, pitCounts m n ≤ tstates m n / cval.toNatClampNeg + C ∧
    tstates m n / cval.toNatClampNeg ≤ pitCounts m n + C

/-- In every stretch of passes, the T-states charged are at most `cval` for
each check made, up to `D`. -/
def Affordable (m : Machine) (D : Nat) : Prop :=
  Backlog.Affords (fun k => cost (pass^[k] m)) (fun k => checks (pass^[k] m)) cval.toNatClampNeg D

/-- The T-states for which no tick has been made. -/
def backlog (m : Machine) (n : Nat) : Int := tstates m n - 114 * pitCounts m n

/-- A pass adds its cost to the backlog and takes off its ticks. -/
theorem backlog_succ (m : Machine) (n : Nat) :
    backlog m (n + 1) = backlog m n + cost (pass^[n] m) - 114 * ticks (pass^[n] m) := by
  rw [backlog, backlog, tstates, tstates, pitCounts, pitCounts, Finset.sum_range_succ,
    Finset.sum_range_succ]
  omega

/-- While it does not wrap, the backlog is the number, and it never falls below zero. -/
theorem behind_backlog {m : Machine} (h : Behind m 0) (n : Nat) :
    Behind (pass^[n] m) (backlog m n) ∧ 0 ≤ backlog m n := by
  induction n with
  | zero => exact ⟨h, Int.le_refl 0⟩
  | succ n ih =>
      have hserved := (served_pass (pass^[n] m)).1
      rw [Function.iterate_succ_apply', backlog_succ]
      exact ⟨hserved.behind ih.1, (hserved.rest _ ih.1 ih.2).1⟩

/-- Passes serve the backlog as long as its difference does not wrap. -/
theorem server_passes {m : Machine} (h : Behind m 0) :
    Backlog.Server (backlog m) (fun k => cost (pass^[k] m)) (fun k => ticks (pass^[k] m))
      (fun k => checks (pass^[k] m)) 114 1235 (2 ^ 31 - 1123) where
  start := rfl
  step n := backlog_succ m n
  nonneg n := (behind_backlog h n).2
  turns n := (served_pass (pass^[n] m)).1.turns
  idle n hn := by
    obtain ⟨hserved, hcost⟩ := served_pass (pass^[n] m)
    have hidle := (hserved.rest _ (behind_backlog h n).1 (behind_backlog h n).2).2
    rw [backlog_succ]
    push_cast at hn ⊢
    omega

/-- All T-states are in the backlog or have been served. -/
theorem tstates_eq (m : Machine) (n : Nat) :
    (tstates m n : Int) = backlog m n + 114 * pitCounts m n := by
  rw [backlog]
  omega

/-- Passes that afford their checks keep pace. -/
theorem keepsPace_of_affordable {m : Machine} (h : Behind m 0) {D : Nat} (hD : D + 2358 ≤ 2 ^ 31)
    (haffordable : Affordable m D) : KeepsPace m ((1235 + D) / 114) := by
  have hcval : cval.toNatClampNeg = 114 := by decide
  rw [Affordable, hcval] at haffordable
  intro n
  have hbounded := (server_passes h).bounded haffordable (by omega) n
  have hnonneg := (behind_backlog h n).2
  have heq := tstates_eq m n
  rw [hcval]
  omega

/-- Passes that keep pace afford their checks. -/
theorem affordable_of_keepsPace {m : Machine} (h : Behind m 0) {C : Nat} (hpace : KeepsPace m C) :
    Affordable m (114 * C + 113) := by
  have hcval : cval.toNatClampNeg = 114 := by decide
  rw [Affordable, hcval]
  refine (server_passes h).affords fun n => ?_
  have hn := (hpace n).2
  have heq := tstates_eq m n
  rw [hcval] at hn
  push_cast
  omega

/-- A reset clears the backlog. -/
theorem behind_mzReset (rand : UInt32) (m : Machine) : Behind (mzReset rand m) 0 := by
  rw [Behind, ts700_mzReset]
  rfl

/-- From a reset on, the ticks differ from the T-states divided by `cval` by
a constant exactly when, up to a constant, no stretch of passes is charged
more than `cval` T-states for each of its checks.  The constant must keep
the difference of the two counters from wrapping. -/
theorem keepsPace_iff (rand : UInt32) (m : Machine) :
    (∀ D, D + 2358 ≤ 2 ^ 31 → Affordable (mzReset rand m) D →
      KeepsPace (mzReset rand m) ((1235 + D) / 114)) ∧
    ∀ C, KeepsPace (mzReset rand m) C → Affordable (mzReset rand m) (114 * C + 113) :=
  ⟨fun _ hD h => keepsPace_of_affordable (behind_mzReset rand m) hD h,
    fun _ h => affordable_of_keepsPace (behind_mzReset rand m) h⟩

/-! ### a program in VRAM -/

/-- `D400` in VRAM holds a jump to itself, interrupts are disabled and the
tape does not run. -/
structure InVram (m : Machine) : Prop where
  attr : (m.hw700.memctrl 26).attr = 5
  opcode : m.deref (m.memptr 26) 0x400 = 0xC3
  lo : m.deref (m.memptr 26) 0x401 = 0x00
  hi : m.deref (m.memptr 26) 0x402 = 0xD4
  iff1 : m.r.iff1 = 0
  stopped : m.ts700.cmtTstates = 0

namespace InVram

variable {m m' : Machine} (h : InVram m)
include h

theorem congr {R : Z80Regs} {f : UInt32}
    (hcore : m'.core = { m.core with r := R, intflag := f }) (hiff : R.iff1 = m.r.iff1)
    (hcmt : m'.ts700.cmtTstates = m.ts700.cmtTstates) : InVram m' := by
  have hctrl : m'.hw700.memctrl = m.hw700.memctrl := congrArg Core.memctrl hcore
  have hr : m'.r = R := congrArg Core.r hcore
  refine ⟨?_, ?_, ?_, ?_, ?_, ?_⟩
  · rw [hctrl, h.attr]
  · rw [deref_congr hcore, h.opcode]
  · rw [deref_congr hcore, h.lo]
  · rw [deref_congr hcore, h.hi]
  · rw [hr, hiff, h.iff1]
  · rw [hcmt, h.stopped]

/-- A charge leaves the program where it is. -/
theorem charged (n : Nat) : InVram (mCstate n m) := by
  refine h.congr (R := m.r) (core_mCstate n m) rfl ?_
  obtain ⟨_, _, _, heq, -⟩ := mCstate_eq n m
  rw [heq]

theorem setPC (a : UInt32) : InVram (Cpu.setPC a m).2 :=
  h.congr (R := { m.r with pc := Pair.ofD a }) (f := m.z80Intflag) rfl rfl rfl

theorem skip (n : UInt16) : InVram (Cpu.skip n m).2 :=
  h.congr (R := { m.r with pc.wl := m.r.pc.wl + n }) (f := m.z80Intflag) rfl rfl rfl

theorem use (t : Table) (i : Int) : InVram (m.use t i) :=
  h.congr (R := m.r) (f := m.z80Intflag) rfl rfl rfl

/-- A read of the page waits for VRAM. -/
theorem read {x : UInt32} (hpage : (x >>> 11).toNat = 26) : ∃ m',
    z80Rdmem x m = ((m.deref (m.memptr 26) (x &&& 0x7FF).toNat).toUInt32, m') ∧ InVram m' ∧
      m'.r = m.r ∧ m'.ts700.cpuTstates = m.ts700.cpuTstates + Int32.ofNat 42 := by
  have hrom : ¬ ((5 : UInt8) = 0 ∧ (m.use .memctrl 26).ts700.cmtTstates = 0) := by
    intro hand
    exact absurd hand.1 (by decide)
  have hvram : (5 : UInt8) &&& 4 ≠ 0 ∧ (m.use .memctrl 26).ts700.cmtTstates = 0 :=
    ⟨by decide, h.stopped⟩
  have hmmio : ¬ (5 : UInt8) &&& 2 ≠ 0 := by decide
  have hwait : readWait 5 (m.use .memctrl 26) = mCstate 42 (m.use .memctrl 26) := by
    unfold readWait
    dsimp only
    rw [if_neg hrom, if_pos hvram]
    rfl
  have hcore : (mCstate 42 (m.use .memctrl 26)).core =
      { m.core with r := m.r, intflag := m.z80Intflag } := core_mCstate _ _
  refine ⟨mCstate 42 (m.use .memctrl 26), ?_, (h.use .memctrl 26).charged 42, r_mCstate _ _,
    cpuTstates_mCstate _ _⟩
  rw [z80Rdmem_eq (i := 26) hpage, h.attr]
  dsimp only
  rw [if_neg hmmio]
  change ((readWait 5 (m.use .memctrl 26)).deref ((readWait 5 (m.use .memctrl 26)).memptr 26)
    (x &&& 0x7FF).toNat |>.toUInt32, readWait 5 (m.use .memctrl 26)) = _
  rw [hwait, deref_congr hcore]

/-- The jump takes 136 T-states, three waits of 42 among them. -/
theorem jump (hpc : m.r.pc = ⟨0xD400, 0⟩) : (Cpu.rdmemOpcode m).1 = 0xC3 ∧
    ∃ m', (Cpu.instruction Cpu.eiEnabled m).2 = m' ∧ InVram m' ∧ m'.r.pc = ⟨0xD400, 0⟩ ∧
      m'.ts700.cpuTstates = m.ts700.cpuTstates + Int32.ofNat 136 := by
  have hd : m.r.pc.d = 0xD400 := by
    rw [hpc]
    decide
  obtain ⟨m₁, hread, h₁, hr₁, hcpu₁⟩ := h.read (x := 0xD400) (by decide)
  have hbyte : m.deref (m.memptr 26) ((0xD400 : UInt32) &&& 0x7FF).toNat = 0xC3 := h.opcode
  have hfetch : Cpu.rdmemOpcode m = (0xC3, (Cpu.skip 1 m₁).2) := by
    simp only [Cpu.rdmemOpcode, Cpu.bind_apply, Cpu.reg_apply, Cpu.rdmem, Cpu.pure_apply, hd, hread,
      hbyte]
    rfl
  -- the operand
  obtain ⟨m₂, hm₂⟩ : ∃ m₂, m₂ = mCstate 10 (Cpu.skip 1 m₁).2 := ⟨_, rfl⟩
  have h₂ : InVram m₂ := hm₂ ▸ (h₁.skip 1).charged 10
  have hd₂ : m₂.r.pc.d = 0xD401 := by
    have hskip (m : Machine) : (Cpu.skip 1 m).2.r.pc = { m.r.pc with wl := m.r.pc.wl + 1 } := rfl
    rw [hm₂, r_mCstate, hskip, hr₁, hpc]
    decide
  have hcpu₂ : m₂.ts700.cpuTstates = m₁.ts700.cpuTstates + Int32.ofNat 10 := by
    have hskip (m : Machine) : (Cpu.skip 1 m).2.ts700.cpuTstates = m.ts700.cpuTstates := rfl
    rw [hm₂, cpuTstates_mCstate, hskip]
  obtain ⟨m₃, hlo, h₃, hr₃, hcpu₃⟩ := h₂.read (x := 0xD401) (by decide)
  obtain ⟨m₄, hhi, h₄, hr₄, hcpu₄⟩ := h₃.read (x := 0xD402) (by decide)
  have hbyte₂ : m₂.deref (m₂.memptr 26) ((0xD401 : UInt32) &&& 0x7FF).toNat = 0x00 := h₂.lo
  have hbyte₃ : m₃.deref (m₃.memptr 26) ((0xD402 : UInt32) &&& 0x7FF).toNat = 0xD4 := h₃.hi
  have hjump : (Cpu.instruction Cpu.eiEnabled m).2 = (Cpu.setPC 0xD400 m₄).2 := by
    have hentry (m : Machine) : Op.dispatch cyclesMain (Op.opcodeMain Cpu.eiEnabled) 0xC3 m =
        Cpu.jp (mCstate 10 m) := Op.dispatch_apply (by decide) (by decide) rfl m
    have hnext : ((0xD401 : UInt32) + 1) &&& 65535 = 0xD402 := by decide
    have htarget : (0x00 : UInt8).toUInt32 + ((0xD4 : UInt8).toUInt32 <<< 8) = 0xD400 := by decide
    simp only [Cpu.instruction, Cpu.bind_apply, hfetch, hentry, ← hm₂, Cpu.jp, Cpu.reg_apply,
      Cpu.rdmem, hd₂, hlo, hbyte₂, hnext, hhi, hbyte₃, htarget]
  refine ⟨congrArg Prod.fst hfetch, _, hjump, h₄.setPC 0xD400, ?_, ?_⟩
  · have hset (m : Machine) : (Cpu.setPC 0xD400 m).2.r.pc = Pair.ofD 0xD400 := rfl
    rw [hset]
    decide
  · have hset (m : Machine) : (Cpu.setPC 0xD400 m).2.ts700.cpuTstates = m.ts700.cpuTstates := rfl
    have hsum : (136 : Nat) = 42 + 10 + 42 + 42 := rfl
    rw [hset, hcpu₄, hcpu₃, hcpu₂, hcpu₁, hsum, Int32.ofNat_add, Int32.ofNat_add, Int32.ofNat_add]
    grind

/-- A check while interrupts are disabled. -/
theorem check : ∃ m', (Cpu.z80Interrupt m).2 = m' ∧ InVram m' ∧ m'.r = m.r ∧
    m'.ts700.cpuTstates = m.ts700.cpuTstates := by
  have hcore : (pitCount (Cpu.countTick m)).2.core = m.core := core_pitCount _
  have hts : (pitCount (Cpu.countTick m)).2.ts700 = (Cpu.countTick m).ts700 := by
    simp only [pitCount]
    split <;> rfl
  have hcmt : (Cpu.countTick m).ts700.cmtTstates = m.ts700.cmtTstates := rfl
  have hcpu : (Cpu.countTick m).ts700.cpuTstates = m.ts700.cpuTstates := rfl
  have hr : (pitCount (Cpu.countTick m)).2.r = m.r := congrArg Core.r hcore
  refine ⟨_, rfl, ?_⟩
  obtain ⟨-, heq⟩ | ⟨-, heq⟩ | ⟨-, heq⟩ := z80Interrupt_cases m
  · rw [heq]
    exact ⟨h, rfl, rfl⟩
  · rw [heq]
    refine ⟨h.congr (R := m.r) (f := m.z80Intflag) hcore rfl ?_, hr, ?_⟩
    · rw [hts, hcmt]
    · rw [hts, hcpu]
  · have hrequest : (requested m).r = m.r := hr
    have hflag : (requested m).ts700 = (pitCount (Cpu.countTick m)).2.ts700 := rfl
    rw [heq, interrupt_of_disabled _ (hrequest ▸ h.iff1)]
    refine ⟨h.congr (core_requested m) rfl ?_, hrequest, ?_⟩
    · rw [hflag, hts, hcmt]
    · rw [hflag, hts, hcpu]

/-- A pass of the loop takes 136 T-states and makes one check. -/
theorem pass (hpc : m.r.pc = ⟨0xD400, 0⟩) : cost m = 136 ∧ checks m = 1 ∧
    InVram (M5Z80.pass m) ∧ (M5Z80.pass m).r.pc = ⟨0xD400, 0⟩ := by
  have hstart : InVram (startCheck m) :=
    h.congr (R := { m.r with r := m.r.r + 1 }) (f := m.z80Intflag) rfl rfl rfl
  obtain ⟨m₁, hcheck, h₁, hr₁, hcpu₁⟩ := hstart.check
  rw [← fetching_eq] at hcheck
  have hpc₁ : m₁.r.pc = ⟨0xD400, 0⟩ := by
    rw [hr₁]
    exact hpc
  obtain ⟨hopcode, m₂, hjump, h₂, hpc₂, hcpu₂⟩ := h₁.jump hpc₁
  have hei : eiCheck m = none := by
    have hne : ¬ ((Cpu.rdmemOpcode m₁).1 = 0xFB ∧ (Cpu.rdmemOpcode m₁).2.r.iff1 = 0) := by
      intro hand
      rw [hopcode] at hand
      exact absurd hand.1 (by decide)
    rw [eiCheck, hcheck, behindEi, if_neg hne]
    rfl
  have hpass : M5Z80.pass m = m₂ := by rw [pass_of_none hei, hcheck, hjump]
  have hcpu : (M5Z80.pass m).ts700.cpuTstates = m.ts700.cpuTstates + Int32.ofNat 136 := by
    have hsame : (startCheck m).ts700.cpuTstates = m.ts700.cpuTstates := rfl
    rw [hpass, hcpu₂, hcpu₁, hsame]
  refine ⟨elapsedTstates_eq (by decide) hcpu, ?_, ?_, ?_⟩
  · rw [checks, hei]
    rfl
  · rw [hpass]
    exact h₂
  · rw [hpass]
    exact hpc₂

/-- And so do all that follow. -/
theorem passes (hpc : m.r.pc = ⟨0xD400, 0⟩) (n : Nat) :
    InVram (M5Z80.pass^[n] m) ∧ (M5Z80.pass^[n] m).r.pc = ⟨0xD400, 0⟩ := by
  induction n with
  | zero => exact ⟨h, hpc⟩
  | succ n ih =>
      rw [Function.iterate_succ_apply']
      exact (ih.1.pass ih.2).2.2

end InVram

/-- The ROM jumps to `D400`, where there is a jump to `D400`. -/
def vramMachine : Machine :=
  { Machine.cold with
    mem := fun a =>
      if a = romStart ∨ a = vidStart + 0x400 then 0xC3
      else if a = romStart + 2 ∨ a = vidStart + 0x402 then 0xD4
      else 0x00 }

/-- A jump in VRAM takes more than `cval` T-states, so that every pass loses
22 of them. -/
theorem not_keepsPace : ¬ ∀ (rand : UInt32) (m : Machine), ∃ C, KeepsPace (mzReset rand m) C := by
  intro h
  obtain ⟨C, hC⟩ := h 0 vramMachine
  let m := mzReset 0 vramMachine
  have hfirst : InVram (pass m) :=
    ⟨by decide +kernel, by decide +kernel, by decide +kernel, by decide +kernel, by decide +kernel,
      by decide +kernel⟩
  have hpc : (pass m).r.pc = ⟨0xD400, 0⟩ := by decide +kernel
  have hpass (k : Nat) (hk : 1 ≤ k) : cost (pass^[k] m) = 136 ∧ checks (pass^[k] m) = 1 := by
    obtain ⟨k, rfl⟩ := Nat.exists_eq_add_of_le' hk
    rw [Function.iterate_succ_apply]
    obtain ⟨hk, hpck⟩ := hfirst.passes hpc k
    obtain ⟨hcost, hchecks, -⟩ := hk.pass hpck
    exact ⟨hcost, hchecks⟩
  -- a stretch of passes longer than the constant
  let n := 114 * C + 114
  have haffordable := affordable_of_keepsPace (behind_mzReset 0 vramMachine) hC 1 (1 + n) (by omega)
  have hcost : ∑ k ∈ Finset.Ico 1 (1 + n), cost (pass^[k] m) = n * 136 := by
    rw [Finset.sum_const_nat fun k hk => (hpass k (Finset.mem_Ico.mp hk).1).1, Nat.card_Ico,
      Nat.add_sub_cancel_left]
  have hchecks : ∑ k ∈ Finset.Ico 1 (1 + n), checks (pass^[k] m) = n := by
    rw [Finset.sum_const_nat fun k hk => (hpass k (Finset.mem_Ico.mp hk).1).2, Nat.card_Ico,
      Nat.add_sub_cancel_left, Nat.mul_one]
  have hcval : cval.toNatClampNeg = 114 := by decide
  rw [hcost, hchecks, hcval] at haffordable
  omega

end M5Z80
