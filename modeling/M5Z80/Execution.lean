import M5Z80.Instructions
import M5Z80.Lib.Budget
import M5Z80.Words

/-!
# M5Z80.Execution

A call of `Z80_Execute` is a loop on the budget `Z80_ICount`.  It ends when
its passes between two calls of `setup_cpuspeed`, which refills the budget, are
charged what there was of it, or drop it with a `HALT`.  A call that leaves the
speed alone takes its whole budget on the clock unless a `HALT` drops a part of
it.
-/

namespace M5Z80

/-! ## one pass -/

/-- The machine where a pass of the loop fetches its instruction. -/
def fetching (m : Machine) : Machine := (Cpu.z80Interrupt (Op.incR m).2).2

/-- A pass is charged for its check, its instruction and its reads, and drops what a HALT
drops. -/
theorem charged_pass (m : Machine) :
    Charged (Cpu.listed (fetching m)).1 1122 (dropped (fetching m)) m (pass m) := by
  have hincR : Charged 0 0 0 m (Op.incR m).2 := .of_meter rfl
  have hinterrupt := charged_z80Interrupt (Op.incR m).2
  have hmain := charged_main (fetching m)
  have hsum := (hincR.trans hinterrupt).trans hmain
  simp only [Int32.zero_add] at hsum
  exact hsum.mono (by omega) (by decide)

/-- The budget as a number. -/
def left (m : Machine) : Int := m.z80ICount.toInt

/-- The pass calls `setup_cpuspeed`. -/
def Refills (m : Machine) : Prop := (pass m).trace.speeds ≠ m.trace.speeds

/-- The T-states from `m` to `m'` by the clock, which counts on past its
wrap. -/
def elapsedTstates (m m' : Machine) : Nat :=
  (m'.ts700.cpuTstates - m.ts700.cpuTstates).toUInt32.toNat

/-- A difference of clocks is the charge between them, wrap or not. -/
theorem elapsedTstates_eq {m m' : Machine} {n : Nat} (hn : n < 2 ^ 32)
    (h : m'.ts700.cpuTstates = m.ts700.cpuTstates + Int32.ofNat n) : elapsedTstates m m' = n := by
  have hsub (x y : Int32) : x + y - x = y := by grind
  rw [elapsedTstates, h, hsub, Int32.toUInt32_ofNat', UInt32.toNat_ofNat']
  exact Nat.mod_eq_of_lt hn

/-- What the pass is charged: the T-states of its instruction, those of an
interrupt it enters, and the wait states of its reads. -/
def charge (m : Machine) : Nat := elapsedTstates m (pass m)

/-- The pass executes a `HALT`, at the program counter or behind an `EI` that
runs it itself. -/
def Halts (m : Machine) : Prop :=
  (Cpu.rdmemOpcode ((behindEi (fetching m)).getD (fetching m))).1 = 0x76

/-- A charge too small to overflow the budget more than once. -/
theorem toInt_sub_ofNat_sub (x d : Int32) {c : Nat} (hc : c ≤ 1122) :
    (x - Int32.ofNat c - d).toInt = (x.toInt - c - d.toInt).bmod (2 ^ 32) := by
  rw [Int32.toInt_sub, Int32.toInt_sub, Int32.toInt_ofNat_of_lt (by omega)]
  exact Int.bmod_sub_bmod

/-- A pass with budget left that leaves the speed alone: what the budget
goes down by is charged or dropped. -/
theorem pass_spec {m : Machine} (hleft : 0 < left m) (hspeeds : ¬ Refills m) :
    ∃ c : Nat, (Cpu.listed (fetching m)).1 ≤ c ∧ c ≤ 1122 ∧
      (pass m).ts700.cpuTstates = m.ts700.cpuTstates + Int32.ofNat c ∧
      left (pass m) = left m - c - (dropped (fetching m)).toInt ∧
      (dropped (fetching m) ≠ 0 → left (pass m) = -(chargedAfter (fetching m)).toInt) := by
  obtain ⟨c, hlisted, hc, hclock, -, hbudget⟩ := charged_pass m
  obtain ⟨_, -, -, -, hbefore, -⟩ := charged_z80Interrupt (Op.incR m).2
  obtain ⟨_, -, -, -, hmain, -⟩ := charged_main (fetching m)
  have heq : (pass m).trace.speeds = m.trace.speeds := Decidable.not_not.mp hspeeds
  have hfetch : (pass m).trace.speeds = (fetching m).trace.speeds :=
    Nat.le_antisymm (heq ▸ hbefore) hmain
  have hcount : left (pass m) = (left m - c - (dropped (fetching m)).toInt).bmod (2 ^ 32) := by
    rw [left, hbudget heq]
    exact toInt_sub_ofNat_sub _ _ hc
  have hlt := Int32.toInt_lt (dropped (fetching m))
  have hlt' : left m < 2 ^ 31 := Int32.toInt_lt m.z80ICount
  have hnonneg := dropped_nonneg (fetching m)
  have hbounds := chargedAfter_bounds (fetching m)
  have hafter (h : dropped (fetching m) ≠ 0) :
      left (pass m) = -(chargedAfter (fetching m)).toInt := by
    have hrest : (pass m).z80ICount = -chargedAfter (fetching m) := z80ICount_main h hfetch
    rw [left, hrest, Int32.toInt_neg, Int.bmod_eq_of_le (by omega) (by omega)]
  refine ⟨c, hlisted, hc, hclock, ?_, hafter⟩
  by_cases hdropped : dropped (fetching m) = 0
  · have hzero : (dropped (fetching m)).toInt = 0 := by rw [hdropped]; rfl
    rw [hcount, Int.bmod_eq_of_le (by omega) (by omega)]
  · have hrest := hafter hdropped
    rw [Int.bmod_def] at hcount
    split at hcount <;> omega

/-- A pass that leaves something drops nothing. -/
theorem pass_spec_of_pos {m : Machine} (hleft : 0 < left m) (hafter : 0 < left (pass m))
    (hspeeds : ¬ Refills m) :
    ∃ c : Nat, (Cpu.listed (fetching m)).1 ≤ c ∧ c ≤ 1122 ∧
      (pass m).ts700.cpuTstates = m.ts700.cpuTstates + Int32.ofNat c ∧
      left (pass m) = left m - c ∧ dropped (fetching m) = 0 := by
  obtain ⟨c, hlisted, hc, hclock, hbudget, hrest⟩ := pass_spec hleft hspeeds
  have hdropped : dropped (fetching m) = 0 := by
    by_contra hne
    have hcharge := (chargedAfter_bounds (fetching m)).1
    have heq := hrest hne
    omega
  have hzero : (dropped (fetching m)).toInt = 0 := by rw [hdropped]; rfl
  exact ⟨c, hlisted, hc, hclock, by omega, hdropped⟩

/-- What a step that leaves the speed alone is charged goes off the budget. -/
theorem left_of_charged {lo hi : Nat} {m m' : Machine} (h : Charged lo hi 0 m m')
    (hhi : hi ≤ 1122) (hleft : -1122 ≤ left m) (hspeeds : m'.trace.speeds = m.trace.speeds) :
    ∃ c ≤ hi, left m' = left m - c := by
  obtain ⟨c, -, hc, -, -, hbudget⟩ := h
  have hlt : left m < 2 ^ 31 := Int32.toInt_lt m.z80ICount
  have hzero : (0 : Int32).toInt = 0 := rfl
  have hcount : left m' = (left m - c - 0).bmod (2 ^ 32) := by
    rw [left, hbudget hspeeds, toInt_sub_ofNat_sub _ _ (hc.trans hhi), hzero]
    rfl
  refine ⟨c, hc, ?_⟩
  rw [hcount, Int.bmod_eq_of_le (by omega) (by omega), Int.sub_zero]

/-- Only a `HALT` drops budget. -/
theorem halts_of_dropped {m : Machine} (h : dropped (fetching m) ≠ 0) : Halts m := by
  by_contra hne
  exact h (if_neg hne)

/-- What interrupts the pass enters and the instruction behind an `EI` are
charged before `ei` checks the line again. -/
theorem charged_behindEi {m m₁ : Machine} (hei : behindEi (fetching m) = some m₁)
    (hdropped : dropped (fetching m) = 0) :
    Charged 0 778 0 m (Cpu.instruction Cpu.eiEnabled m₁).2 := by
  have hincR : Charged 0 0 0 m (Op.incR m).2 := .of_meter rfl
  have hfetch := hincR.trans (charged_z80Interrupt (Op.incR m).2)
  obtain ⟨_, hei', hfirst, -⟩ | ⟨hnone, -⟩ := behindEi_cases (fetching m)
  · cases hei.symm.trans hei'
    have hsum := (hfetch.trans hfirst).trans (charged_nextEnabled m₁)
    rw [← dropped_of_some hei, hdropped] at hsum
    simp only [Int32.add_zero] at hsum
    exact hsum.mono (Nat.zero_le _) (by decide)
  · cases hei.symm.trans hnone

/-- A pass that executes a `HALT` leaves no budget. -/
theorem left_pass_of_halts {m : Machine} (hleft : 0 < left m) (hspeeds : ¬ Refills m)
    (h : Halts m) : left (pass m) ≤ 0 := by
  obtain ⟨c, -, -, -, -, hrest⟩ := pass_spec hleft hspeeds
  by_cases hdropped : dropped (fetching m) = 0
  · have hpast (ei : Cpu Unit) {m₁ : Machine} (h₁ : (Cpu.rdmemOpcode m₁).1 = 0x76) :
        left (Cpu.instruction ei m₁).2 ≤ 0 :=
      not_lt.mp fun hpos => z80ICount_instruction_halt ei h₁ (Int32.lt_iff_toInt_lt.mpr hpos)
    obtain ⟨m₁, hei, -, heq⟩ | ⟨hnone, -⟩ := behindEi_cases (fetching m)
    · -- the check behind the `HALT` takes at most an interrupt's T-states more
      rw [Halts, hei] at h
      have hhalted : left (Cpu.instruction Cpu.eiEnabled m₁).2 ≤ 0 := hpast Cpu.eiEnabled h
      have hbefore := charged_behindEi hei hdropped
      have hcheck := charged_z80Interrupt (Cpu.instruction Cpu.eiEnabled m₁).2
      have hpass : pass m = (Cpu.z80Interrupt (Cpu.instruction Cpu.eiEnabled m₁).2).2 :=
        congrArg Prod.snd heq
      have hsame : (pass m).trace.speeds = m.trace.speeds := Decidable.not_not.mp hspeeds
      rw [hpass] at hsame ⊢
      have hfirst := hbefore.speeds_le
      have hlast := hcheck.speeds_le
      obtain ⟨c₁, hc₁, hleft₁⟩ := left_of_charged hbefore (by decide) (by omega) (by omega)
      obtain ⟨c₂, -, hleft₂⟩ := left_of_charged hcheck (by decide) (by omega) (by omega)
      omega
    · rw [Halts, hnone] at h
      exact hpast Cpu.ei h
  · have hcharge := (chargedAfter_bounds (fetching m)).1
    have heq := hrest hdropped
    omega

/-- The charge of a pass is what went on the clock. -/
theorem charge_eq {m : Machine} {c : Nat} (hc : c ≤ 1122)
    (h : (pass m).ts700.cpuTstates = m.ts700.cpuTstates + Int32.ofNat c) : charge m = c :=
  elapsedTstates_eq (by omega) h

/-- Between two calls of `setup_cpuspeed` the budget pays what the passes are
charged, and a `HALT` drops it. -/
theorem accounts_pass : Budget.Accounts pass left charge Refills Halts where
  takes := by
    intro m hleft hafter hspeeds
    obtain ⟨c, -, hc, hclock, hbudget, -⟩ := pass_spec_of_pos hleft hafter hspeeds
    refine ⟨by rw [charge_eq hc hclock, hbudget], fun hhalts => ?_⟩
    have hspent := left_pass_of_halts hleft hspeeds hhalts
    omega
  last := by
    intro m hleft hafter hspeeds
    obtain ⟨c, -, hc, hclock, hbudget, -⟩ := pass_spec hleft hspeeds
    by_cases hdropped : dropped (fetching m) = 0
    · have hzero : (dropped (fetching m)).toInt = 0 := by rw [hdropped]; rfl
      refine .inl ?_
      rw [charge_eq hc hclock]
      omega
    · exact .inr (halts_of_dropped hdropped)

/-! ## every call -/

/-- `Z80_ICount += Z80_IPeriod`. -/
def refresh (m : Machine) : Machine := { m with z80ICount := m.z80ICount + m.z80IPeriod }

/-- `Z80_Execute` is a loop on its budget. -/
theorem z80Execute_eq (fuel : Nat) (m : Machine) :
    z80Execute fuel m = (Budget.loop pass left fuel m).map refresh := by
  induction fuel generalizing m with
  | zero => rfl
  | succ fuel ih =>
      have hpos : 0 < (pass m).z80ICount ↔ 0 < left (pass m) := Int32.lt_iff_toInt_lt
      rw [z80Execute, Budget.loop]
      by_cases hleft : 0 < left (pass m)
      · rw [if_pos hleft, if_pos (hpos.mpr hleft), ih]
      · rw [if_neg hleft, if_neg (fun h => hleft (hpos.mp h))]
        rfl

/-- A call returns exactly when some of its passes are charged what
`Z80_ICount` was before them, or execute a `HALT`, with no call of
`setup_cpuspeed` among them; they come behind the first pass or behind one that
calls it.  Passes that charge something for ever and call `setup_cpuspeed` only
finitely often are enough. -/
theorem z80Execute_returns_iff (m : Machine) :
    ((∃ fuel, z80Execute fuel m ≠ none) ↔
      ∃ b n, Budget.Stretch pass Refills m b n ∧
        (left (pass^[b + 1] m) ≤ Budget.spent pass charge m (b + 1) n ∨
          ∃ k, b < k ∧ k < n ∧ Halts (pass^[k] m))) ∧
    ((∃ N, ∀ n, N ≤ n → ¬ Refills (pass^[n] m)) →
      (∀ N, ∃ n, N ≤ n ∧ charge (pass^[n] m) ≠ 0) → ∃ fuel, z80Execute fuel m ≠ none) := by
  have hnone (fuel : Nat) : z80Execute fuel m = none ↔ Budget.loop pass left fuel m = none := by
    rw [z80Execute_eq, Option.map_eq_none_iff]
  simp only [ne_eq, hnone]
  exact ⟨accounts_pass.ends_iff m, accounts_pass.ends⟩

/-! ### a call that does not return -/

/-- The address space is RAM full of `DD` bytes, and no tick of the 8253 is
due. -/
structure Captured (m : Machine) : Prop where
  attr : ∀ i, (m.hw700.memctrl i).attr = 1
  block : ∀ i, (m.memptr i).block = .mem
  mem : ∀ a, m.mem a = 0xDD
  pc : m.r.pc.wh = 0
  due : Cpu.tickDue m = false
  budget : 0 < left m

namespace Captured

variable {m : Machine}

/-- A charge of nothing. -/
theorem mCstate (h : Captured m) : Captured (mCstate 0 m) := by
  obtain ⟨_, _, _, heq, -⟩ := mCstate_eq 0 m
  have hclock : m.ts700.cpuTstates + Int32.ofNat 0 = m.ts700.cpuTstates := Int32.add_zero _
  have hbudget : m.z80ICount - Int32.ofNat 0 = m.z80ICount := Int32.sub_zero _
  rw [hclock, hbudget] at heq
  rw [heq]
  exact ⟨h.attr, h.block, h.mem, h.pc, h.due, h.budget⟩

/-- The counter `r` is not part of what captures. -/
theorem incR (h : Captured m) : Captured (Op.incR m).2 :=
  ⟨h.attr, h.block, h.mem, h.pc, h.due, h.budget⟩

/-- `no_op` leaves memory and the banks, and the program counter where it can be. -/
theorem noOp (h : Captured m) : Captured (Op.noOp m).2 :=
  ⟨h.attr, h.block, h.mem, h.pc, h.due, h.budget⟩

/-- The next byte of the program is another `DD`. -/
theorem rdmemOpcode (h : Captured m) :
    ∃ m', Cpu.rdmemOpcode m = (0xDD, m') ∧ Captured m' := by
  let i : Fin 32 := ⟨(m.r.pc.d >>> 11).toNat, page_lt (Pair.d_lt h.pc)⟩
  have hmmio : ¬ (1 : UInt8) &&& 2 ≠ 0 := by decide
  have hrom : ¬ (1 : UInt8) = 0 := by decide
  have hvram : ¬ (1 : UInt8) &&& 4 ≠ 0 := by decide
  have hwait : readWait 1 (m.use .memctrl i) = m.use .memctrl i := by
    simp only [readWait, hrom, hvram, false_and, if_false]
  have hbyte : (m.use .memctrl i).deref ((m.use .memctrl i).memptr i)
      (m.r.pc.d &&& 0x7FF).toNat = 0xDD := by
    rw [Machine.deref, show ((m.use .memctrl i).memptr i).block = .mem from h.block i]
    exact h.mem _
  have hread : z80Rdmem m.r.pc.d m = (0xDD, m.use .memctrl i) := by
    rw [z80Rdmem_eq (i := i) rfl, h.attr]
    simp only [hwait, if_neg hmmio, hbyte]
    rfl
  refine ⟨(Cpu.skip 1 (m.use .memctrl i)).2, ?_, h.attr, h.block, h.mem, h.pc, h.due, h.budget⟩
  simp only [Cpu.rdmemOpcode, Cpu.bind_apply, Cpu.reg_apply, Cpu.rdmem, hread, Cpu.pure_apply]

/-- A pass steps over one `DD`. -/
theorem pass (h : Captured m) : Captured (pass m) := by
  have htick : Cpu.z80Interrupt (Op.incR m).2 = ((), (Op.incR m).2) :=
    z80Interrupt_of_not_due h.incR.due
  obtain ⟨m₁, hfirst, h₁⟩ := h.incR.rdmemOpcode
  obtain ⟨m₂, hsecond, h₂⟩ := h₁.mCstate.incR.rdmemOpcode
  have hdd : Op.dispatch cyclesMain (Op.opcodeMain Cpu.ei) 0xDD m₁ = Op.dd (M5Z80.mCstate 0 m₁) :=
    Op.dispatch_apply (by decide) (by decide) rfl m₁
  have hnoOp : Op.dispatch cyclesXx (Op.opcodeXx .ix) 0xDD m₂ = Op.noOp (M5Z80.mCstate 0 m₂) :=
    Op.dispatch_apply (by decide) (by decide) rfl m₂
  have heq : M5Z80.pass m = (Op.noOp (M5Z80.mCstate 0 m₂)).2 := by
    simp only [M5Z80.pass, Cpu.pass, Cpu.instruction, Cpu.bind_apply, htick, hfirst, hdd,
      Op.dd, Op.prefixed, hsecond, hnoOp]
  rw [heq]
  exact h₂.mCstate.noOp

/-- The loop makes every pass. -/
theorem z80Execute (h : Captured m) (fuel : Nat) : z80Execute fuel m = none := by
  induction fuel generalizing m with
  | zero => rfl
  | succ fuel ih =>
      have hpos : 0 < (M5Z80.pass m).z80ICount := Int32.lt_iff_toInt_lt.mpr h.pass.budget
      rw [M5Z80.z80Execute, if_pos hpos]
      exact ih h.pass

end Captured

/-- A machine with RAM in every bank. -/
def ramMachine (code : UInt8) : Machine :=
  { Machine.cold with
    z80IPeriod := period 1
    z80ICount := period 1
    mem := fun _ => code
    hw700 := { Thw700Stat.zero with memctrl := fun i => ⟨(i.val * 0x800).toUInt16, .ram, 1⟩ }
    memptr := fun i => ⟨.mem, ramStart + i.val * 0x800⟩ }

/-- Full of `DD` bytes, the machine never comes back from a call. -/
theorem not_z80Execute_returns : ¬ ∀ m : Machine, 0 < m.z80IPeriod →
    ∃ fuel, z80Execute fuel m ≠ none := by
  intro h
  have hcaptured : Captured (ramMachine 0xDD) :=
    ⟨fun _ => rfl, fun _ => rfl, fun _ => rfl, rfl, by decide, by decide⟩
  obtain ⟨fuel, hfuel⟩ := h (ramMachine 0xDD) (by decide)
  exact hfuel (hcaptured.z80Execute fuel)

/-! ## the clock of a call -/

/-- The pass executes a `HALT` that drops more of the budget than the pass
is charged after it. -/
def Wastes (m : Machine) : Prop := chargedAfter (fetching m) < dropped (fetching m)

/-- Nothing is wasted where nothing is dropped. -/
theorem not_wastes {m : Machine} (h : dropped (fetching m) = 0) : ¬ Wastes m := by
  rw [Wastes, h, Int32.lt_iff_toInt_lt]
  exact Int.not_lt.mpr (chargedAfter_bounds (fetching m)).1

/-- In the passes of a call, until one drops budget or sets the speed, the
clock gains what the budget loses. -/
structure Balanced (m s : Machine) : Prop where
  budget : 0 < left s
  clock : ∃ n : Nat, s.ts700.cpuTstates = m.ts700.cpuTstates + Int32.ofNat n ∧
    left m = left s + n

/-- No pass, no charge. -/
theorem Balanced.refl {m : Machine} (h : 0 < left m) : Balanced m m :=
  ⟨h, 0, (Int32.add_zero _).symm, by simp⟩

/-- A pass that leaves something keeps the balance. -/
theorem Balanced.next {m s : Machine} (h : Balanced m s) (hafter : 0 < left (pass s))
    (hspeeds : ¬ Refills s) : Balanced m (pass s) ∧ ¬ Wastes s := by
  obtain ⟨n, hclock, hleft⟩ := h.clock
  obtain ⟨c, -, -, hclock', hleft', hdropped⟩ := pass_spec_of_pos h.budget hafter hspeeds
  refine ⟨⟨hafter, n + c, ?_, ?_⟩, not_wastes hdropped⟩
  · rw [hclock', hclock, Int32.ofNat_add]
    grind
  · push_cast
    omega

/-- The last pass of a call has taken the whole budget on the clock exactly
when it does not waste any. -/
theorem Balanced.last {m s : Machine} (h : Balanced m s) (hafter : left (pass s) ≤ 0)
    (hspeeds : ¬ Refills s) : left m ≤ elapsedTstates m (pass s) ↔ ¬ Wastes s := by
  obtain ⟨n, hclock, hleft⟩ := h.clock
  obtain ⟨c, -, hc, hclock', hleft', hrest⟩ := pass_spec h.budget hspeeds
  have hlt : left m < 2 ^ 31 := Int32.toInt_lt m.z80ICount
  have hpos := h.budget
  have hsum : (pass s).ts700.cpuTstates = m.ts700.cpuTstates + Int32.ofNat (n + c) := by
    rw [hclock', hclock, Int32.ofNat_add]
    grind
  rw [elapsedTstates_eq (by omega) hsum, Wastes, Int32.lt_iff_toInt_lt]
  have hcharge := chargedAfter_bounds (fetching s)
  have hdrop := dropped_nonneg (fetching s)
  push_cast
  by_cases hdropped : dropped (fetching s) = 0
  · have hzero : (dropped (fetching s)).toInt = 0 := by rw [hdropped]; rfl
    omega
  · have hleft'' := hrest hdropped
    omega

/-- The speed is only ever set again, so the number of times does not go down. -/
theorem speeds_pass_mono (m : Machine) : Monotone fun n => (pass^[n] m).trace.speeds := by
  refine monotone_nat_of_le_succ fun n => ?_
  obtain ⟨_, -, -, -, hspeeds, -⟩ := charged_pass (pass^[n] m)
  rw [Function.iterate_succ_apply']
  exact hspeeds

/-- Passes that leave the speed alone together do so one by one. -/
theorem speeds_pass {m : Machine} {n : Nat}
    (h : (pass^[n] m).trace.speeds = m.trace.speeds) {k : Nat} (hk : k ≤ n) :
    (pass^[k] m).trace.speeds = m.trace.speeds := by
  have hfirst : m.trace.speeds ≤ (pass^[k] m).trace.speeds :=
    speeds_pass_mono m (Nat.zero_le k)
  have hlast : (pass^[k] m).trace.speeds ≤ (pass^[n] m).trace.speeds := speeds_pass_mono m hk
  omega

/-- A stretch at whose end the number is the same meets no pass that sets the speed. -/
theorem not_refills {m : Machine} {n : Nat}
    (h : (pass^[n + 1] m).trace.speeds = m.trace.speeds) : ¬ Refills (pass^[n] m) := by
  have hsucc : pass^[n + 1] m = pass (pass^[n] m) := Function.iterate_succ_apply' pass n m
  have hbefore := speeds_pass h (Nat.le_succ n)
  rw [Refills, ← hsucc]
  omega

/-- Before every pass of a call that leaves the speed alone. -/
theorem balanced_passes {m : Machine} {n : Nat} (hleft : 0 < left m)
    (hmakes : Budget.Makes pass left m n)
    (hspeeds : (pass^[n] m).trace.speeds = m.trace.speeds) : Balanced m (pass^[n] m) := by
  have hstep (s : Machine)
      (h : m.trace.speeds ≤ s.trace.speeds ∧ (s.trace.speeds = m.trace.speeds → Balanced m s))
      (hafter : 0 < left (pass s)) : m.trace.speeds ≤ (pass s).trace.speeds ∧
        ((pass s).trace.speeds = m.trace.speeds → Balanced m (pass s)) := by
    obtain ⟨_, -, -, -, hpass, -⟩ := charged_pass s
    refine ⟨Nat.le_trans h.1 hpass, fun heq => ?_⟩
    have hsame : s.trace.speeds = m.trace.speeds := by omega
    have hrefills : ¬ Refills s := by
      rw [Refills]
      omega
    exact ((h.2 hsame).next hafter hrefills).1
  exact (hmakes.invariant hstep ⟨Nat.le_refl _, fun _ => .refl hleft⟩).2 hspeeds

/-- A call that leaves the speed alone has advanced the clock by the budget
it found exactly when no pass of it wastes budget, or when it found none. -/
theorem z80Execute_advances_iff {m m' : Machine} {fuel : Nat} (h : z80Execute fuel m = some m')
    (hspeeds : m'.trace.speeds = m.trace.speeds) :
    left m ≤ elapsedTstates m m' ↔
      left m ≤ 0 ∨ ∀ n, Budget.Makes pass left m n → ¬ Wastes (pass^[n] m) := by
  by_cases hleft : 0 < left m
  · rw [z80Execute_eq, Option.map_eq_some_iff] at h
    obtain ⟨s, hloop, rfl⟩ := h
    obtain ⟨n, hmakes, hend, rfl, hlast⟩ := Budget.loop_eq_some hloop
    have hsucc : pass^[n + 1] m = pass (pass^[n] m) := Function.iterate_succ_apply' pass n m
    have hrun : (pass^[n + 1] m).trace.speeds = m.trace.speeds := by
      rw [hsucc]
      exact hspeeds
    have hbalanced := balanced_passes hleft hmakes (speeds_pass hrun (Nat.le_succ n))
    have hadvance := hbalanced.last hend (not_refills hrun)
    have hclock : elapsedTstates m (refresh (pass (pass^[n] m))) =
        elapsedTstates m (pass (pass^[n] m)) := rfl
    rw [hclock, hadvance]
    constructor
    · intro hwastes
      refine .inr fun k hk => ?_
      obtain hlt | rfl := Nat.lt_or_eq_of_le (hlast k hk)
      · have hafter : 0 < left (pass (pass^[k] m)) :=
          Function.iterate_succ_apply' pass k m ▸ hmakes k hlt
        have hearlier := balanced_passes hleft hk (speeds_pass hrun (by omega))
        exact (hearlier.next hafter (not_refills (speeds_pass hrun (by omega)))).2
      · exact hwastes
    · rintro (hnone | hall)
      · exact absurd hleft (Int.not_lt.mpr hnone)
      · exact hall n hmakes
  · have hneg : left m ≤ 0 := Int.not_lt.mp hleft
    exact iff_of_true (Int.le_trans hneg (Int.natCast_nonneg _)) (.inl hneg)

/-- RAM full of `NOP`s, and budget for one of them. -/
def nopMachine : Machine := { ramMachine 0x00 with z80ICount := 1 }

/-- A `HALT` with 100 T-states left. -/
def haltMachine : Machine := { ramMachine 0x76 with z80ICount := 100 }

/-- A first pass that uses the budget up is the whole call. -/
theorem z80Execute_one {m : Machine} (h : ¬ 0 < (pass m).z80ICount) :
    z80Execute 1 m = some (refresh (pass m)) := by
  rw [z80Execute, if_neg h]
  rfl

/-- A NOP with one T-state left. -/
theorem z80Execute_advances_nop :
    left nopMachine ≤ elapsedTstates nopMachine (refresh (pass nopMachine)) ↔
      left nopMachine ≤ 0 ∨
        ∀ n, Budget.Makes pass left nopMachine n → ¬ Wastes (pass^[n] nopMachine) :=
  z80Execute_advances_iff (z80Execute_one (by decide +kernel)) (by decide +kernel)

/-- A `HALT` ends the call after 4 T-states of 100. -/
theorem not_z80Execute_advances : ¬ ∀ (m m' : Machine) (fuel : Nat),
    z80Execute fuel m = some m' → m'.trace.speeds = m.trace.speeds →
      left m ≤ elapsedTstates m m' := by
  intro h
  have hcall := z80Execute_one (m := haltMachine) (by decide +kernel)
  have hadvance := h haltMachine _ 1 hcall (by decide +kernel)
  exact absurd hadvance (by decide +kernel)

end M5Z80
