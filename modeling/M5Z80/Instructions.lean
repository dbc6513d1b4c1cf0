import M5Z80.Charge

/-!
# M5Z80.Instructions

What an instruction takes off the budget.  The cycle tables list its
T-states, and it is charged these at least; a `HALT` drops what is left of
the budget, also when `ei` runs it.
-/

namespace M5Z80

namespace Cpu

/-! ## what the tables list -/

/-- The T-states a table lists for the byte behind a prefix. -/
def listedIn (cycles : List Nat) : Cpu Nat := do
  Op.incR
  let opcode ← rdmemOpcode
  return cycles.getD opcode.toNat 0

/-- The T-states listed behind a `DD` or `FD`; a `CB` that follows is a
prefix itself, and its opcode stands behind the displacement. -/
def listedXx : Cpu Nat := do
  Op.incR
  let opcode ← rdmemOpcode
  cstate (cyclesXx.getD opcode.toNat 0)
  if opcode = 0xCB then
    return cyclesXxCb.getD (← rdmem (((← reg (·.pc.d)) + 1) &&& 0xFFFF)).toNat 0
  else return cyclesXx.getD opcode.toNat 0

/-- The T-states listed for an opcode of the main table. -/
def listedMain (opcode : UInt32) : Cpu Nat := do
  cstate (cyclesMain.getD opcode.toNat 0)
  if opcode = 0xCB then listedIn cyclesCb
  else if opcode = 0xDD then listedXx
  else if opcode = 0xED then listedIn cyclesEd
  else if opcode = 0xFD then listedXx
  else return cyclesMain.getD opcode.toNat 0

/-- The T-states the cycle tables list for the instruction at the program
counter. -/
def listed : Cpu Nat := do
  let opcode ← rdmemOpcode
  listedMain opcode

end Cpu

/-! ## opcodes -/

/-- An entry of a table, whose T-states are charged at least. -/
theorem charged_dispatch {cycles : List Nat} {table : List (Cpu Unit)} {k : Nat}
    (hlength : cycles.length = 256) (hcycles : ∀ n ∈ cycles, n ≤ 23)
    (htable : ∀ x ∈ table, Cpu.Built x k) (opcode : UInt32) (m : Machine) :
    Charged (cycles.getD opcode.toNat 0) (43 * (1 + k)) 0 m
      (Op.dispatch cycles table opcode m).2 := by
  by_cases h : opcode < 256
  · have hcost : cycles.getD opcode.toNat 0 ≤ 23 := Op.cost_le hcycles _
    have hentry : Cpu.Built (table.getD opcode.toNat Op.nop) k := Op.built_entry htable _
    have hcharge := charged_mCstate (cycles.getD opcode.toNat 0) m
    have hrun := charged_built (table.getD opcode.toNat Op.nop)
      (mCstate (cycles.getD opcode.toNat 0) m)
    rw [Op.dispatch_apply h rfl rfl]
    exact (hcharge.trans hrun).mono (by omega) (by omega)
  · have hbuilt := Op.built_dispatch hcycles htable opcode
    have hpast : cycles.length ≤ opcode.toNat := by
      rw [UInt32.lt_iff_toNat_lt] at h
      exact hlength ▸ Nat.le_of_not_lt h
    rw [List.getD_eq_getElem?_getD, List.getElem?_eq_none hpast]
    exact charged_built _ m

/-- An instruction behind a prefix is charged as its own table lists it. -/
theorem charged_prefixed {cycles : List Nat} {table : List (Cpu Unit)} {k : Nat}
    (hlength : cycles.length = 256) (hcycles : ∀ n ∈ cycles, n ≤ 23)
    (htable : ∀ x ∈ table, Cpu.Built x k) (m : Machine) :
    Charged (Cpu.listedIn cycles m).1 (43 * (2 + k)) 0 m (Op.prefixed cycles table m).2 := by
  have hfetch : Charged 0 43 0 m (Cpu.rdmemOpcode (Op.incR m).2).2 :=
    charged_built (do Op.incR; Cpu.rdmemOpcode) m
  have hentry := charged_dispatch hlength hcycles htable (Cpu.rdmemOpcode (Op.incR m).2).1
    (Cpu.rdmemOpcode (Op.incR m).2).2
  have hsum := hfetch.trans hentry
  simp only [Cpu.listedIn, Op.prefixed, Cpu.bind_apply, Cpu.pure_apply]
  exact hsum.mono (by omega) (by omega)

/-- The instruction behind DD CB or FD CB comes behind the displacement. -/
theorem charged_xxCb (i : Index) (m : Machine) :
    Charged (cyclesXxCb.getD (z80Rdmem ((m.r.pc.d + 1) &&& 0xFFFF) m).1.toNat 0) 215 0 m
      (Op.xxCb i m).2 := by
  let q := z80Rdmem ((m.r.pc.d + 1) &&& 0xFFFF) m
  have hread : Charged 0 43 0 m q.2 := charged_z80Rdmem _ m
  have hentry : Charged (cyclesXxCb.getD q.1.toNat 0) 172 0 q.2
      (Op.dispatch cyclesXxCb (Op.opcodeXxCb i) q.1 q.2).2 :=
    charged_dispatch (by decide +kernel) (by decide +kernel) (Op.built_of_mem_opcodeXxCb i) q.1 q.2
  have hskip := charged_built (Cpu.skip 1) (Op.dispatch cyclesXxCb (Op.opcodeXxCb i) q.1 q.2).2
  exact ((hread.trans hentry).trans hskip).mono (Nat.le_of_eq (Nat.zero_add _).symm) (by decide)

/-- Behind DD and FD, with the table that both share. -/
theorem charged_xx (i : Index) (m : Machine) :
    Charged (Cpu.listedXx m).1 301 0 m (Op.prefixed cyclesXx (Op.opcodeXx i) m).2 := by
  have hfetch : Charged 0 43 0 m (Cpu.rdmemOpcode (Op.incR m).2).2 :=
    charged_built (do Op.incR; Cpu.rdmemOpcode) m
  simp only [Cpu.listedXx, Op.prefixed, Cpu.bind_apply]
  generalize Cpu.rdmemOpcode (Op.incR m).2 = q at hfetch ⊢
  obtain ⟨opcode, m₁⟩ := q
  by_cases hcb : opcode = 0xCB
  · subst hcb
    have hentry : Op.dispatch cyclesXx (Op.opcodeXx i) 0xCB m₁ = Op.xxCb i (mCstate 0 m₁) :=
      Op.dispatch_apply (by decide) rfl rfl m₁
    have hcost : Charged 0 0 0 m₁ (mCstate 0 m₁) := charged_mCstate 0 m₁
    have hrun := charged_xxCb i (mCstate 0 m₁)
    simp only [hentry, if_true]
    exact ((hfetch.trans hcost).trans hrun).mono (Nat.le_of_eq (Nat.zero_add _).symm) (by decide)
  · have hentry : Charged (cyclesXx.getD opcode.toNat 0) 258 0 m₁
        (Op.dispatch cyclesXx (Op.opcodeXx i) opcode m₁).2 :=
      charged_dispatch (by decide +kernel) (by decide +kernel) (Op.built_of_mem_opcodeXx i) opcode m₁
    simp only [hcb, if_false]
    exact (hfetch.trans hentry).mono (Nat.le_of_eq (Nat.zero_add _).symm) (by decide)

/-- A prefix of the main table. -/
theorem charged_mainPrefix (ei : Cpu Unit) {opcode : UInt32} {f : Cpu Unit} {next : Cpu Nat}
    (hlt : opcode < 256) (hcost : cyclesMain.getD opcode.toNat 0 = 0)
    (hentry : (Op.opcodeMain ei).getD opcode.toNat Op.nop = f)
    (hf : ∀ m, Charged (next m).1 301 0 m (f m).2) (m : Machine) :
    Charged (next (mCstate (cyclesMain.getD opcode.toNat 0) m)).1 344 0 m
      (Op.dispatch cyclesMain (Op.opcodeMain ei) opcode m).2 := by
  rw [Op.dispatch_apply hlt hcost hentry, hcost]
  have hfree : Charged 0 0 0 m (mCstate 0 m) := charged_mCstate 0 m
  exact (hfree.trans (hf _)).mono (Nat.le_of_eq (Nat.zero_add _).symm) (by decide)

/-- Behind CB. -/
theorem charged_cb (m : Machine) : Charged (Cpu.listedIn cyclesCb m).1 301 0 m (Op.cb m).2 :=
  (charged_prefixed (by decide +kernel) (by decide +kernel) Op.built_of_mem_opcodeCb m).mono
    (Nat.le_refl _) (by decide)

/-- Behind ED. -/
theorem charged_ed (m : Machine) : Charged (Cpu.listedIn cyclesEd m).1 301 0 m (Op.ed m).2 :=
  (charged_prefixed (by decide +kernel) (by decide +kernel) Op.built_of_mem_opcodeEd m).mono
    (Nat.le_refl _) (by decide)

theorem charged_dd (m : Machine) : Charged (Cpu.listedXx m).1 301 0 m (Op.dd m).2 :=
  charged_xx .ix m

theorem charged_fd (m : Machine) : Charged (Cpu.listedXx m).1 301 0 m (Op.fd m).2 :=
  charged_xx .iy m

/-- Every opcode but those of `HALT` and `EI` is charged what the tables
list, at least. -/
theorem charged_opcode (ei : Cpu Unit) {opcode : UInt32} (hhalt : opcode ≠ 0x76)
    (hei : opcode ≠ 0xFB) (m : Machine) :
    Charged (Cpu.listedMain opcode m).1 344 0 m
      (Op.dispatch cyclesMain (Op.opcodeMain ei) opcode m).2 := by
  simp only [Cpu.listedMain, Cpu.bind_apply]
  by_cases hcb : opcode = 0xCB
  · subst hcb
    simp only [if_true]
    exact charged_mainPrefix ei (by decide) rfl rfl charged_cb m
  by_cases hdd : opcode = 0xDD
  · subst hdd
    simp only [hcb, if_true, if_false]
    exact charged_mainPrefix ei (by decide) rfl rfl charged_dd m
  by_cases hed : opcode = 0xED
  · subst hed
    simp only [hcb, hdd, if_true, if_false]
    exact charged_mainPrefix ei (by decide) rfl rfl charged_ed m
  by_cases hfd : opcode = 0xFD
  · subst hfd
    simp only [hcb, hdd, hed, if_true, if_false]
    exact charged_mainPrefix ei (by decide) rfl rfl charged_fd m
  simp only [hcb, hdd, hed, hfd, if_false, Cpu.pure_apply]
  rw [Op.dispatch_plain hhalt hei]
  exact charged_dispatch (by decide +kernel) (by decide +kernel) Op.built_of_mem_opcodePlain opcode m

/-! ## the budget a HALT drops -/

/-- The budget `halt` drops. -/
def haltDrop (m : Machine) : Int32 := if 0 < m.z80ICount then m.z80ICount else 0

/-- The budget the instruction at the program counter drops when it is a
`HALT`. -/
def nextDrop (m : Machine) : Int32 :=
  let q := Cpu.rdmemOpcode m
  if q.1 = 0x76 then haltDrop (mCstate 4 q.2) else 0

/-- Interrupts are enabled, and `ei` goes on to the next instruction. -/
def enabled (m : Machine) : Machine :=
  (Op.incR (Cpu.control (fun R => { R with iff1 := 1, iff2 := 1 }) m).2).2

/-- The machine at the instruction that an `EI` at the program counter runs
itself. -/
def behindEi (m : Machine) : Option Machine :=
  let q := Cpu.rdmemOpcode m
  if q.1 = 0xFB ∧ q.2.r.iff1 = 0 then some (enabled (mCstate 4 q.2)) else none

/-- The budget that a `HALT` drops, at the program counter or behind an
`EI` there. -/
def dropped (m : Machine) : Int32 := nextDrop ((behindEi m).getD m)

/-- The T-states `ei` is charged after the instruction it runs. -/
def chargedAfter (m : Machine) : Int32 :=
  match behindEi m with
  | some m₁ =>
      let m₂ := (Cpu.instruction Cpu.eiEnabled m₁).2
      (Cpu.z80Interrupt m₂).2.ts700.cpuTstates - m₂.ts700.cpuTstates
  | none => 0

/-- A HALT is charged nothing here and drops what is left of the budget. -/
theorem charged_halt (m : Machine) : Charged 0 0 (haltDrop m) m (Op.halt m).2 := by
  refine ⟨0, Nat.le_refl 0, Nat.le_refl 0, (Int32.add_zero _).symm, Nat.le_refl _, fun _ => ?_⟩
  change (if 0 < m.z80ICount then 0 else m.z80ICount) = _
  rw [haltDrop]
  split
  · simp
  · simp

/-- A HALT that drops anything leaves no budget. -/
theorem z80ICount_halt {m : Machine} (h : haltDrop m ≠ 0) : (Op.halt m).2.z80ICount = 0 := by
  change (if 0 < m.z80ICount then 0 else m.z80ICount) = 0
  rw [haltDrop] at h
  split at h
  · rename_i hpos
    rw [if_pos hpos]
  · exact absurd rfl h

/-- An instruction of the main table that is no `EI`. -/
theorem charged_next (ei : Cpu Unit) {m : Machine} (hei : (Cpu.rdmemOpcode m).1 ≠ 0xFB) :
    Charged (Cpu.listed m).1 387 (nextDrop m) m (Cpu.instruction ei m).2 := by
  have hfetch : Charged 0 43 0 m (Cpu.rdmemOpcode m).2 := charged_built Cpu.rdmemOpcode m
  simp only [Cpu.listed, Cpu.instruction, nextDrop, Cpu.bind_apply]
  generalize Cpu.rdmemOpcode m = q at hfetch hei ⊢
  obtain ⟨opcode, m₁⟩ := q
  by_cases hhalt : opcode = 0x76
  · subst hhalt
    have hentry : Op.dispatch cyclesMain (Op.opcodeMain ei) 0x76 m₁ = Op.halt (mCstate 4 m₁) :=
      Op.dispatch_apply (by decide) (by decide) rfl m₁
    have hcost : Charged 4 4 0 m₁ (mCstate 4 m₁) := charged_mCstate 4 m₁
    have hsum := (hfetch.trans hcost).trans (charged_halt (mCstate 4 m₁))
    have hdrop : (0 : Int32) + 0 + haltDrop (mCstate 4 m₁) = haltDrop (mCstate 4 m₁) := by simp
    rw [hdrop] at hsum
    simp only [hentry, if_true]
    exact hsum.mono (Nat.le_refl 4) (by decide)
  · have hopcode := charged_opcode ei hhalt hei m₁
    simp only [hhalt, if_false]
    exact (hfetch.trans hopcode).mono (Nat.le_of_eq (Nat.zero_add _).symm) (by decide)

/-- An instruction that drops budget leaves none. -/
theorem z80ICount_next (ei : Cpu Unit) {m : Machine} (h : nextDrop m ≠ 0) :
    (Cpu.instruction ei m).2.z80ICount = 0 := by
  simp only [nextDrop] at h
  simp only [Cpu.instruction, Cpu.bind_apply]
  generalize Cpu.rdmemOpcode m = q at h ⊢
  obtain ⟨opcode, m₁⟩ := q
  by_cases hhalt : opcode = 0x76
  · subst hhalt
    have hentry : Op.dispatch cyclesMain (Op.opcodeMain ei) 0x76 m₁ = Op.halt (mCstate 4 m₁) :=
      Op.dispatch_apply (by decide) (by decide) rfl m₁
    rw [if_pos rfl] at h
    rw [hentry]
    exact z80ICount_halt h
  · exact absurd (if_neg hhalt) h

/-- A `HALT` leaves no budget, whatever it found. -/
theorem z80ICount_instruction_halt (ei : Cpu Unit) {m : Machine}
    (h : (Cpu.rdmemOpcode m).1 = 0x76) : ¬ 0 < (Cpu.instruction ei m).2.z80ICount := by
  have hentry (m₁ : Machine) :
      Op.dispatch cyclesMain (Op.opcodeMain ei) 0x76 m₁ = Op.halt (mCstate 4 m₁) :=
    Op.dispatch_apply (by decide) (by decide) rfl m₁
  have hhalt (m₁ : Machine) : ¬ 0 < (Op.halt m₁).2.z80ICount := by
    change ¬ 0 < (if 0 < m₁.z80ICount then 0 else m₁.z80ICount)
    split
    · decide
    · assumption
  simp only [Cpu.instruction, Cpu.bind_apply, h, hentry]
  exact hhalt _

/-- The entry of `EI` in either table. -/
theorem instruction_ei (ei : Cpu Unit) {m : Machine} (hei : (Cpu.rdmemOpcode m).1 = 0xFB) :
    Cpu.instruction ei m = ei (mCstate 4 (Cpu.rdmemOpcode m).2) := by
  simp only [Cpu.instruction, Cpu.bind_apply, hei]
  exact Op.dispatch_apply (by decide) (by decide) rfl _

/-- An `EI` that only sets a flip-flop. -/
theorem charged_eiEnabled {m : Machine} (hei : (Cpu.rdmemOpcode m).1 = 0xFB) :
    Charged (Cpu.listed m).1 387 (nextDrop m) m
      (Cpu.eiEnabled (mCstate 4 (Cpu.rdmemOpcode m).2)).2 := by
  have hfetch : Charged 0 43 0 m (Cpu.rdmemOpcode m).2 := charged_built Cpu.rdmemOpcode m
  simp only [Cpu.listed, nextDrop, Cpu.bind_apply]
  generalize Cpu.rdmemOpcode m = q at hfetch hei ⊢
  obtain ⟨opcode, m₁⟩ := q
  subst hei
  have hcost : Charged 4 4 0 m₁ (mCstate 4 m₁) := charged_mCstate 4 m₁
  have hset (m : Machine) : Charged 0 0 0 m (Cpu.eiEnabled m).2 := .of_meter rfl
  have hsum := (hfetch.trans hcost).trans (hset (mCstate 4 m₁))
  have hlisted : (Cpu.listedMain 0xFB m₁).1 = 4 := rfl
  have hne : ¬ (0xFB : UInt32) = 0x76 := by decide
  simp only [Int32.add_zero] at hsum
  rw [hlisted, if_neg hne]
  exact hsum.mono (Nat.le_refl 4) (by decide)

/-- The instruction `ei` runs itself. -/
theorem charged_nextEnabled (m : Machine) :
    Charged (Cpu.listed m).1 387 (nextDrop m) m (Cpu.instruction Cpu.eiEnabled m).2 := by
  by_cases hei : (Cpu.rdmemOpcode m).1 = 0xFB
  · rw [instruction_ei Cpu.eiEnabled hei]
    exact charged_eiEnabled hei
  · exact charged_next Cpu.eiEnabled hei

/-- What `ei` does when it enables interrupts. -/
theorem ei_of_disabled {m : Machine} (h : m.r.iff1 = 0) :
    Cpu.ei m = Cpu.z80Interrupt (Cpu.instruction Cpu.eiEnabled (enabled m)).2 := by
  simp only [Cpu.ei, Cpu.bind_apply, Cpu.reg_apply, h, if_true, enabled]

/-- With interrupts enabled already, EI checks at once. -/
theorem ei_of_enabled {m : Machine} (h : m.r.iff1 ≠ 0) : Cpu.ei m = Cpu.eiEnabled m := by
  rw [Cpu.ei, Cpu.bind_apply, Cpu.reg_apply, if_neg h]

/-! ## an instruction of the loop -/

/-- Without an EI the instruction itself is the last of the pass. -/
theorem dropped_of_none {m : Machine} (h : behindEi m = none) : dropped m = nextDrop m := by
  rw [dropped, h]
  rfl

/-- Behind an EI the instruction that it runs is. -/
theorem dropped_of_some {m m₁ : Machine} (h : behindEi m = some m₁) : dropped m = nextDrop m₁ := by
  rw [dropped, h]
  rfl

/-- When the instruction is an `EI` that enables interrupts, and when it is
not. -/
theorem behindEi_cases (m : Machine) :
    (∃ m₁, behindEi m = some m₁ ∧ Charged (Cpu.listed m).1 47 0 m m₁ ∧
      Cpu.instruction Cpu.ei m = Cpu.z80Interrupt (Cpu.instruction Cpu.eiEnabled m₁).2) ∨
    behindEi m = none ∧
      Charged (Cpu.listed m).1 387 (nextDrop m) m (Cpu.instruction Cpu.ei m).2 := by
  by_cases hei : (Cpu.rdmemOpcode m).1 = 0xFB
  · rw [instruction_ei Cpu.ei hei]
    have hr : (mCstate 4 (Cpu.rdmemOpcode m).2).r = (Cpu.rdmemOpcode m).2.r := r_mCstate 4 _
    by_cases hiff : (Cpu.rdmemOpcode m).2.r.iff1 = 0
    · refine .inl ⟨enabled (mCstate 4 (Cpu.rdmemOpcode m).2), ?_, ?_, ?_⟩
      · rw [behindEi, if_pos ⟨hei, hiff⟩]
      · have hfetch : Charged 0 43 0 m (Cpu.rdmemOpcode m).2 := charged_built Cpu.rdmemOpcode m
        have hcost := charged_mCstate 4 (Cpu.rdmemOpcode m).2
        have henable (m : Machine) : Charged 0 0 0 m (enabled m) := .of_meter rfl
        have hlisted : (Cpu.listed m).1 = 4 := by
          simp only [Cpu.listed, Cpu.bind_apply, hei]
          generalize Cpu.rdmemOpcode m = q
          rfl
        rw [hlisted]
        exact (hfetch.trans hcost).trans (henable _)
      · rw [← hr] at hiff
        exact ei_of_disabled hiff
    · refine .inr ⟨?_, ?_⟩
      · rw [behindEi, if_neg (fun h => hiff h.2)]
      · rw [← hr] at hiff
        rw [ei_of_enabled hiff]
        exact charged_eiEnabled hei
  · refine .inr ⟨?_, charged_next Cpu.ei hei⟩
    rw [behindEi, if_neg (fun h => hei h.1)]

/-- An instruction of the loop is charged what the tables list, at least. -/
theorem charged_main (m : Machine) :
    Charged (Cpu.listed m).1 778 (dropped m) m (Cpu.instruction Cpu.ei m).2 := by
  obtain ⟨m₁, hei, hcharged, heq⟩ | ⟨hei, hcharged⟩ := behindEi_cases m
  · have hnext := charged_nextEnabled m₁
    have hafter := charged_z80Interrupt (Cpu.instruction Cpu.eiEnabled m₁).2
    have hsum := (hcharged.trans hnext).trans hafter
    simp only [Int32.zero_add, Int32.add_zero] at hsum
    rw [dropped_of_some hei, heq]
    exact hsum.mono (by omega) (by decide)
  · rw [dropped_of_none hei]
    exact hcharged.mono (Nat.le_refl _) (by decide)

theorem chargedAfter_of_none {m : Machine} (h : behindEi m = none) : chargedAfter m = 0 := by
  rw [chargedAfter, h]

/-- `Z80_Interrupt` is called after the instruction that `ei` runs. -/
theorem chargedAfter_of_some {m m₁ : Machine} (h : behindEi m = some m₁) :
    ∃ c : Nat, c ≤ 344 ∧ chargedAfter m = Int32.ofNat c ∧
      ∀ m₂, m₂ = (Cpu.instruction Cpu.eiEnabled m₁).2 →
        m₂.trace.speeds ≤ (Cpu.z80Interrupt m₂).2.trace.speeds ∧
        ((Cpu.z80Interrupt m₂).2.trace.speeds = m₂.trace.speeds →
          (Cpu.z80Interrupt m₂).2.z80ICount = m₂.z80ICount - Int32.ofNat c) := by
  obtain ⟨c, -, hc, hclock, hspeeds, hbudget⟩ :=
    charged_z80Interrupt (Cpu.instruction Cpu.eiEnabled m₁).2
  refine ⟨c, hc, ?_, ?_⟩
  · have hsub (x y : Int32) : x + y - x = y := by grind
    simp only [chargedAfter, h, hclock, hsub]
  · rintro m₂ rfl
    simp only [Int32.sub_zero] at hbudget
    exact ⟨hspeeds, hbudget⟩

/-- What is left after an instruction that drops budget has been charged on
the clock. -/
theorem z80ICount_main {m : Machine} (h : dropped m ≠ 0)
    (hspeeds : (Cpu.instruction Cpu.ei m).2.trace.speeds = m.trace.speeds) :
    (Cpu.instruction Cpu.ei m).2.z80ICount = -chargedAfter m := by
  obtain ⟨m₁, hei, ⟨_, -, -, -, hfirst, -⟩, heq⟩ | ⟨hei, -⟩ := behindEi_cases m
  · rw [dropped_of_some hei] at h
    obtain ⟨_, -, -, -, hnext, -⟩ := charged_nextEnabled m₁
    obtain ⟨c, -, hcharge, hafter⟩ := chargedAfter_of_some hei
    obtain ⟨hlater, hbudget⟩ := hafter _ rfl
    rw [heq] at hspeeds ⊢
    rw [hbudget (by omega), z80ICount_next Cpu.eiEnabled h, hcharge]
    simp
  · rw [dropped_of_none hei] at h
    rw [z80ICount_next Cpu.ei h, chargedAfter_of_none hei]
    rfl

/-- `ei` is charged at most an accepted interrupt after the instruction it
runs. -/
theorem chargedAfter_bounds (m : Machine) :
    0 ≤ (chargedAfter m).toInt ∧ (chargedAfter m).toInt ≤ 344 := by
  cases hei : behindEi m with
  | none =>
      rw [chargedAfter_of_none hei]
      decide
  | some m₁ =>
      obtain ⟨c, hc, hcharge, -⟩ := chargedAfter_of_some hei
      rw [hcharge, Int32.toInt_ofNat_of_lt (by omega)]
      omega

/-- Only what is left of a budget is dropped. -/
theorem dropped_nonneg (m : Machine) : 0 ≤ (dropped m).toInt := by
  have hhalt (m : Machine) : 0 ≤ (haltDrop m).toInt := by
    rw [haltDrop]
    split
    · rename_i hpos
      exact Int.le_of_lt (Int32.lt_iff_toInt_lt.mp hpos)
    · exact Int.le_refl 0
  simp only [dropped, nextDrop]
  split
  · exact hhalt _
  · exact Int.le_refl 0

end M5Z80
