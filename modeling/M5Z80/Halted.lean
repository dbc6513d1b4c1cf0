import M5Z80.Containers
import M5Z80.Lib.Run
import M5Z80.Passes

/-!
# M5Z80.Halted

The `HALT` flag.  `halt` sets it and steps back onto its instruction, and
`Interrupt` clears it and steps over that instruction.  In between the CPU
executes the same `HALT` again and again, so that an interrupt resumes
behind it, unless the `HALT` was read from an MMIO register or a load has
moved the program counter away from it.
-/

namespace M5Z80

/-! ## stopped on a HALT -/

/-- The byte of memory that the CPU sees at an address; none where it sees
MMIO registers or nothing at all. -/
def Machine.peek (m : Machine) (x : UInt32) : Option UInt8 :=
  if h : (x >>> 11).toNat < 32 then
    let i : Fin 32 := ⟨(x >>> 11).toNat, h⟩
    if (m.hw700.memctrl i).attr &&& 2 ≠ 0 then none
    else some (m.deref (m.memptr i) (x &&& 0x7FF).toNat)
  else none

/-- The program counter addresses a `HALT`. -/
def AtHalt (m : Machine) : Prop := m.peek m.r.pc.d = some 0x76

instance (m : Machine) : Decidable (AtHalt m) := inferInstanceAs (Decidable (_ = _))

/-- `R.HALT` is set only if the program counter addresses a `HALT`. -/
def OnHalt (m : Machine) : Prop := m.r.halt ≠ 0 → AtHalt m

/-- The address of the instruction that would run next: the one behind the
`HALT` that the CPU is stopped on, or else the one at the program counter. -/
def Machine.nextInstruction (m : Machine) : Pair :=
  if m.r.halt ≠ 0 ∧ AtHalt m then { m.r.pc with wl := m.r.pc.wl + 1 } else m.r.pc

/-- Memory is as it was but for an address that has been pushed. -/
def Pushes (m m' : Machine) (a : Pair) : Prop :=
  ∃ s : Machine, s.r.sp = m.r.sp ∧ s.r.pc = a ∧ SameMemory m s ∧
    SameMemory (Cpu.push (·.pc) s).2 m'

/-- If the check at `m` accepts an interrupt, it pushes the address of the
instruction that would run next. -/
def PushesNext (m : Machine) : Prop :=
  Accepted m (Cpu.z80Interrupt m).2 → Pushes m (Cpu.z80Interrupt m).2 m.nextInstruction

/-- A processor that is not halted is on no HALT. -/
theorem onHalt_of_zero {m : Machine} (h : m.r.halt = 0) : OnHalt m := fun hne => absurd h hne

/-- A processor that is not halted continues at the program counter. -/
theorem nextInstruction_of_zero {m : Machine} (h : m.r.halt = 0) : m.nextInstruction = m.r.pc := by
  rw [Machine.nextInstruction, if_neg (fun hor => hor.1 h)]

/-- A processor on a HALT continues behind it. -/
theorem OnHalt.nextInstruction {m : Machine} (h : OnHalt m) : m.nextInstruction = m.r.next := by
  by_cases hhalt : m.r.halt = 0
  · rw [nextInstruction_of_zero hhalt, Z80Regs.next, if_neg (not_not_intro hhalt)]
  · rw [Machine.nextInstruction, if_pos ⟨hhalt, h hhalt⟩, Z80Regs.next, if_pos hhalt]

/-- An accepted interrupt resumes where the program left off. -/
theorem OnHalt.pushesNext {m : Machine} (h : OnHalt m) : PushesNext m := by
  rintro ⟨s, hs, hmem, -, hpush⟩
  refine ⟨s, ?_, ?_, hmem, hpush⟩
  · rw [hs]
    rfl
  · rw [hs, h.nextInstruction]
    rfl

/-! ## what the CPU sees -/

theorem peek_congr {m m' : Machine} {R : Z80Regs} {flag : UInt32} {files : String → Option (List UInt8)}
    (h : m'.core = { m.core with r := R, intflag := flag, files := files }) (x : UInt32) :
    m'.peek x = m.peek x := by
  have hctrl : m'.hw700.memctrl = m.hw700.memctrl := congrArg Core.memctrl h
  simp only [Machine.peek, deref_congr h, hctrl]

/-- A byte of memory is what the CPU reads. -/
theorem z80Rdmem_of_peek {m : Machine} {x : UInt32} {b : UInt8} (h : m.peek x = some b) :
    (z80Rdmem x m).1 = b.toUInt32 := by
  by_cases hpage : (x >>> 11).toNat < 32
  · let i : Fin 32 := ⟨(x >>> 11).toNat, hpage⟩
    let m₁ := readWait (m.hw700.memctrl i).attr (m.use .memctrl i)
    have hcore : m₁.core = { m.core with r := m.r, intflag := m.z80Intflag } := core_readWait _ _
    rw [Machine.peek, dif_pos hpage] at h
    by_cases hmmio : (m.hw700.memctrl i).attr &&& 2 ≠ 0
    · rw [if_pos hmmio] at h
      cases h
    · rw [if_neg hmmio, Option.some.injEq] at h
      rw [z80Rdmem_eq (i := i) rfl]
      dsimp only
      rw [if_neg hmmio, deref_congr hcore i, h]
  · rw [Machine.peek, dif_neg hpage] at h
    cases h

/-- What the CPU reads is a byte of memory, unless it is an MMIO register
or nothing. -/
theorem peek_of_z80Rdmem {m : Machine} {x : UInt32} {b : UInt8}
    (h : (z80Rdmem x m).1 = b.toUInt32) (hpeek : m.peek x ≠ none) : m.peek x = some b := by
  obtain ⟨b', hb'⟩ := Option.ne_none_iff_exists'.mp hpeek
  rw [z80Rdmem_of_peek hb', UInt32.ext_iff, UInt8.toNat_toUInt32, UInt8.toNat_toUInt32] at h
  rw [hb', UInt8.toNat_inj.mp h]

/-- Whether the program counter is at a HALT depends on the bytes and on the program counter
only. -/
theorem atHalt_congr {m m' : Machine} {R : Z80Regs} {flag : UInt32} {files : String → Option (List UInt8)}
    (h : m'.core = { m.core with r := R, intflag := flag, files := files }) (hpc : R.pc = m.r.pc) :
    AtHalt m' ↔ AtHalt m := by
  have hr : m'.r = R := congrArg Core.r h
  rw [AtHalt, AtHalt, peek_congr h, hr, hpc]

/-! ## one instruction -/

/-- The instruction at the program counter is a `HALT` that is not in
memory. -/
def HaltsUnseen (m : Machine) : Prop :=
  (Cpu.rdmemOpcode m).1 = 0x76 ∧ m.peek m.r.pc.d = none

instance (m : Machine) : Decidable (HaltsUnseen m) := inferInstanceAs (Decidable (_ ∧ _))

/-- The opcode fetch moves the program counter, and nothing else of the core. -/
theorem core_rdmemOpcode (m : Machine) : (Cpu.rdmemOpcode m).2.core =
    { m.core with r := { m.r with pc.wl := m.r.pc.wl + 1 } } := by
  let q := z80Rdmem m.r.pc.d m
  have hcore : q.2.core = m.core := core_z80Rdmem _ m
  have hr : q.2.r = m.r := congrArg Core.r hcore
  calc (Cpu.rdmemOpcode m).2.core
      = { q.2.core with r := { q.2.r with pc.wl := q.2.r.pc.wl + 1 } } := rfl
    _ = { m.core with r := { m.r with pc.wl := m.r.pc.wl + 1 } } := by rw [hcore, hr]

/-- A `HALT` sets the flag and stays where it is. -/
theorem core_instruction_halt {m : Machine} (h : (Cpu.rdmemOpcode m).1 = 0x76) :
    (Cpu.instruction Cpu.eiEnabled m).2.core = { m.core with r := { m.r with halt := 1 } } := by
  have hfetch := core_rdmemOpcode m
  simp only [Cpu.instruction, Cpu.bind_apply]
  generalize Cpu.rdmemOpcode m = q at h hfetch ⊢
  obtain ⟨opcode, m₁⟩ := q
  subst h
  have hentry : Op.dispatch cyclesMain (Op.opcodeMain Cpu.eiEnabled) 0x76 m₁ =
      Op.halt (mCstate 4 m₁) := Op.dispatch_apply (by decide) (by decide) rfl m₁
  have hhalt (m : Machine) : (Op.halt m).2.core =
      { m.core with r := { m.r with pc.wl := m.r.pc.wl - 1, halt := 1 } } := rfl
  have hr : m₁.r = { m.r with pc.wl := m.r.pc.wl + 1 } := congrArg Core.r hfetch
  rw [hentry, hhalt, core_mCstate, r_mCstate, hfetch, hr]
  simp only [UInt16.add_sub_cancel]

/-- A program made of primitives leaves the flag alone. -/
theorem halt_built {α : Type} {n : Nat} (x : Cpu α) [hx : Cpu.Built x n] (m : Machine) :
    (x m).2.r.halt = m.r.halt := by
  have htrans {s t u : Machine} (h : t.r.halt = s.r.halt) (h' : u.r.halt = t.r.halt) :
      u.r.halt = s.r.halt := h'.trans h
  refine hx.made.keeps (R := fun m m' => m'.r.halt = m.r.halt) (fun _ => rfl) htrans ?_ m
  intro α n x hx m
  cases hx with
  | reg f => rfl
  | pairs f => rfl
  | control f h => rfl
  | doOut lo hi v =>
      change (z80Out _ v m).unbanked.r.halt = m.r.halt
      rw [unbanked_z80Out]
      rfl
  | wild i => rfl
  | rdmem a => exact congrArg (fun c => c.r.halt) (core_z80Rdmem a m)
  | wrmem a v => exact congrArg Z80Regs.halt (r_z80Wrmem a v m)
  | cstate h => exact congrArg Z80Regs.halt (r_mCstate _ m)

/-- Every other instruction leaves the flag alone. -/
theorem halt_instruction {m : Machine} (h : (Cpu.rdmemOpcode m).1 ≠ 0x76) :
    (Cpu.instruction Cpu.eiEnabled m).2.r.halt = m.r.halt := by
  have hfetch : (Cpu.rdmemOpcode m).2.r.halt = m.r.halt := halt_built Cpu.rdmemOpcode m
  by_cases hei : (Cpu.rdmemOpcode m).1 = 0xFB
  · have hset (m : Machine) : (Cpu.eiEnabled m).2.r.halt = m.r.halt := rfl
    rw [instruction_ei _ hei, hset, r_mCstate, hfetch]
  · simp only [Cpu.instruction, Cpu.bind_apply]
    have hcycles : ∀ n ∈ cyclesMain, n ≤ 23 := by decide +kernel
    have hbuilt := Op.built_dispatch hcycles Op.built_of_mem_opcodePlain (Cpu.rdmemOpcode m).1
    rw [Op.dispatch_plain h hei, halt_built, hfetch]

/-- An instruction leaves the flag set on a `HALT` only, unless it is one
that is not in memory. -/
theorem onHalt_instruction_iff {m : Machine} (h : OnHalt m) :
    OnHalt (Cpu.instruction Cpu.eiEnabled m).2 ↔ ¬ HaltsUnseen m := by
  by_cases hhalt : (Cpu.rdmemOpcode m).1 = 0x76
  · have hcore := core_instruction_halt hhalt
    have hat : AtHalt (Cpu.instruction Cpu.eiEnabled m).2 ↔ AtHalt m := atHalt_congr hcore rfl
    have hflag : (Cpu.instruction Cpu.eiEnabled m).2.r.halt ≠ 0 := by
      have hone : (Cpu.instruction Cpu.eiEnabled m).2.r.halt = 1 :=
        congrArg (fun c => c.r.halt) hcore
      rw [hone]
      decide
    have hread : (z80Rdmem m.r.pc.d m).1 = (0x76 : UInt8).toUInt32 := hhalt
    constructor
    · intro hon hunseen
      have hmem : m.peek m.r.pc.d = some 0x76 := hat.mp (hon hflag)
      rw [hunseen.2] at hmem
      cases hmem
    · intro hseen _
      exact hat.mpr (peek_of_z80Rdmem hread fun hnone => hseen ⟨hhalt, hnone⟩)
  · refine iff_of_true (onHalt_of_zero ?_) (fun hunseen => hhalt hunseen.1)
    rw [halt_instruction hhalt]
    by_contra hflag
    exact hhalt (z80Rdmem_of_peek (h hflag))

/-! ## one pass -/

/-- To take a request out does not look at the halt flag. -/
theorem halt_takeRequest (bit : UInt32) (m : Machine) :
    (Cpu.takeRequest bit m).2.r.halt = m.r.halt := by
  unfold Cpu.takeRequest
  split <;> rfl

/-- An acceptance in IM 2 reads a vector and pushes; the halt flag stays. -/
theorem halt_interruptIm2 (j : Int32) (m : Machine) :
    (Cpu.interruptIm2 j m).2.r.halt = m.r.halt := by
  obtain ⟨x, hx, heq⟩ := built_interruptIm2 j m
  rw [heq, halt_built x, halt_takeRequest]

/-- An acceptance in IM 1 restarts; the halt flag stays. -/
theorem halt_interruptIm1 (ei : Cpu Unit) (m : Machine) :
    (Cpu.interruptIm1 ei m).2.r.halt = m.r.halt := by
  obtain ⟨x, hx, heq⟩ := built_interruptIm1 ei m
  rw [heq, halt_built x, halt_takeRequest]

/-- A check that does not clear the flag leaves registers and memory
alone. -/
theorem halt_z80Interrupt (m : Machine) : (Cpu.z80Interrupt m).2.r.halt = 0 ∨
    ∃ flag, (Cpu.z80Interrupt m).2.core = { m.core with r := m.r, intflag := flag } := by
  obtain ⟨-, heq⟩ | ⟨-, heq⟩ | ⟨-, heq⟩ := z80Interrupt_cases m
  · rw [heq]
    exact .inr ⟨m.z80Intflag, rfl⟩
  · rw [heq]
    exact .inr ⟨m.z80Intflag, core_pitCount _⟩
  · have hcore := core_requested m
    rw [heq]
    by_cases hiff : (requested m).r.iff1 = 0
    · rw [interrupt_of_disabled _ hiff]
      exact .inr ⟨_, hcore⟩
    · left
      rw [interrupt_zero _ hiff]
      split
      · exact (halt_interruptIm2 0 _).trans rfl
      split
      · exact (halt_interruptIm1 _ _).trans rfl
      · rw [interruptIm0_zero]
        rfl

/-- An interrupt check clears the halt flag or leaves the instruction under the program
counter. -/
theorem OnHalt.z80Interrupt {m : Machine} (h : OnHalt m) : OnHalt (Cpu.z80Interrupt m).2 := by
  obtain hzero | ⟨flag, hcore⟩ := halt_z80Interrupt m
  · exact onHalt_of_zero hzero
  · have hr : (Cpu.z80Interrupt m).2.r = m.r := congrArg Core.r hcore
    intro hflag
    rw [hr] at hflag
    exact (atHalt_congr hcore rfl).mpr (h hflag)

/-- Where a pass executes its instruction, or `ei` the one that follows. -/
def executing (m : Machine) : Machine := (behindEi (fetching m)).getD (fetching m)

/-- The interrupts that a pass accepts push the address of the instruction
that would run next, and the flag is set on a `HALT` only, also behind the
instruction that an `EI` runs itself. -/
structure PassResumes (m : Machine) : Prop where
  start : PushesNext (startCheck m)
  ei : ∀ s, eiCheck m = some s → OnHalt s ∧ PushesNext s
  onHalt : OnHalt (pass m)

/-- So does the check at the start of a pass. -/
theorem OnHalt.startCheck {m : Machine} (h : OnHalt m) : OnHalt (startCheck m) := by
  have hcore : (M5Z80.startCheck m).core =
      { m.core with r := { m.r with r := m.r.r + 1 }, intflag := m.z80Intflag } := rfl
  exact fun hflag => (atHalt_congr hcore rfl).mpr (h hflag)

/-- A pass resumes where it left off unless it executes a `HALT` that is
not in memory. -/
theorem passResumes_iff {m : Machine} (h : OnHalt m) :
    PassResumes m ↔ ¬ HaltsUnseen (executing m) := by
  have hfetching : OnHalt (fetching m) := h.startCheck.z80Interrupt
  cases hbehind : behindEi (fetching m) with
  | none =>
      have hcheck : eiCheck m = none := by rw [eiCheck, hbehind]; rfl
      have hnone (s : Machine) : eiCheck m ≠ some s := by rw [hcheck]; exact nofun
      rw [executing, hbehind, Option.getD_none, ← onHalt_instruction_iff hfetching,
        ← pass_of_none hcheck]
      exact ⟨fun hpass => hpass.onHalt,
        fun hon => ⟨h.startCheck.pushesNext, fun s hs => absurd hs (hnone s), hon⟩⟩
  | some m₁ =>
      let s := (Cpu.instruction Cpu.eiEnabled m₁).2
      have hcheck : eiCheck m = some s := by rw [eiCheck, hbehind]; rfl
      obtain ⟨hei, hm₁⟩ := behindEi_some hbehind
      have hzero : m₁.r.halt = 0 := by
        have henabled (m : Machine) : (enabled m).r.halt = m.r.halt := rfl
        rw [hm₁, henabled, r_mCstate, halt_built Cpu.rdmemOpcode]
        by_contra hflag
        have hread : (z80Rdmem (fetching m).r.pc.d (fetching m)).1 = 0xFB := hei
        rw [z80Rdmem_of_peek (hfetching hflag)] at hread
        exact absurd hread (by decide)
      rw [executing, hbehind, Option.getD_some, ← onHalt_instruction_iff (onHalt_of_zero hzero)]
      constructor
      · intro hpass
        exact (hpass.ei s hcheck).1
      · intro hon
        refine ⟨h.startCheck.pushesNext, fun s' hs' => ?_, ?_⟩
        · rw [hcheck, Option.some.injEq] at hs'
          rw [← hs']
          exact ⟨hon, hon.pushesNext⟩
        · rw [pass_of_some hcheck]
          exact hon.z80Interrupt

/-! ## loading -/

/-- The core without the files, to one of which a tape is written when it is
mounted. -/
def Core.fileless (c : Core) : Core := { c with files := fun _ => none }

/-- To start a tape changes the files at most. -/
theorem core_startTape (mztFile : String) (m : Machine) :
    (startTape mztFile m).core.fileless = m.core.fileless := by
  obtain ⟨_, _, _, _, _, h⟩ := offTape_startTape mztFile m
  change (startTape mztFile m).offTape.core.fileless = m.core.fileless
  rw [h]
  rfl

/-- A load that leaves everything but the files. -/
theorem core_of_fileless {m m' : Machine} (h : m'.core.fileless = m.core.fileless) :
    m'.core = { m.core with files := m'.files } :=
  congrArg (fun c => { c with files := m'.files }) h

/-- The registers that the last record of a file finds. -/
def foundRegs (startRegs : Nat → Z80Regs) (fd : List UInt8) (m : Machine) : Z80Regs :=
  if IsMz20 fd then startRegs ((storedRecords fd).length - 1) else m.r

/-- Records behind the first one that is no machine code are not loaded. -/
theorem loadPlain_takeWhile (mztFile : String) (rs : List LoadRecord) (m : Machine) :
    (loadPlain mztFile rs m).core.fileless =
      (loadPlain mztFile (rs.takeWhile (·.mode = 1)) m).core.fileless := by
  induction rs generalizing m with
  | nil => rfl
  | cons r rs ih =>
      by_cases hmode : r.mode = 1
      · rw [List.takeWhile_cons_of_pos (by simpa using hmode), loadPlain, loadPlain,
          if_neg (not_not_intro hmode), if_neg (not_not_intro hmode), ih]
      · have hmount : loadPlain mztFile (r :: rs) m = startTape mztFile m := by
          rw [loadPlain, if_pos hmode]
        rw [List.takeWhile_cons_of_neg (by simpa using hmode), hmount, core_startTape, loadPlain]

section

variable (startRegs : Nat → Z80Regs) {mztFile : String} {m : Machine} {fd : List UInt8}
  (h : m.files (mztPath mztFile) = some fd)
include h

/-- A load is that of the records it reads to RAM. -/
theorem core_setMztToMemory : (setMztToMemory startRegs mztFile m).2.core.fileless =
    (if IsMz20 fd then loadContained startRegs 0 (storedRecords fd) m
      else loadPlain mztFile (storedRecords fd) m).core.fileless := by
  rw [setMztToMemory_eq startRegs h, storedRecords]
  split
  · rfl
  · exact loadPlain_takeWhile mztFile _ m

/-- A load that reads no record leaves registers and memory alone. -/
theorem core_load_of_nil (hnil : storedRecords fd = []) :
    (setMztToMemory startRegs mztFile m).2.core.fileless = m.core.fileless := by
  rw [core_setMztToMemory startRegs h, hnil]
  split <;> rfl

/-- A load sets `PC` to the execution address of the last record. -/
theorem r_load (hne : storedRecords fd ≠ []) : (setMztToMemory startRegs mztFile m).2.r =
    { foundRegs startRegs fd m with
      pc := Pair.ofD ((storedRecords fd).getLast hne).addr.toUInt32 } := by
  have hcore := congrArg Core.r (core_setMztToMemory startRegs h)
  refine hcore.trans ?_
  rw [foundRegs]
  split
  · exact (r_loadContained startRegs 0 hne m).trans (by rw [Nat.zero_add])
  · rename_i hplain
    refine r_loadPlain mztFile hne (fun r hr => ?_) m
    rw [storedRecords, if_neg hplain] at hr
    simpa using List.mem_takeWhile_imp hr

end

/-- A load leaves the flag set on a `HALT` only, and the instruction that
would run next is at the execution address of the last record it has read. -/
structure LoadResumes (startRegs : Nat → Z80Regs) (mztFile : String) (m : Machine) : Prop where
  onHalt : OnHalt (setMztToMemory startRegs mztFile m).2
  next : ∀ fd r, m.files (mztPath mztFile) = some fd → (storedRecords fd).getLast? = some r →
    (setMztToMemory startRegs mztFile m).2.nextInstruction = Pair.ofD r.addr.toUInt32

/-- The last record that the load reads finds the flag clear. -/
def FindsClear (startRegs : Nat → Z80Regs) (mztFile : String) (m : Machine) : Prop :=
  ∀ fd, m.files (mztPath mztFile) = some fd → storedRecords fd ≠ [] →
    (foundRegs startRegs fd m).halt = 0

/-- The program starts at its execution address exactly when the load finds
the flag clear. -/
theorem loadResumes_iff (startRegs : Nat → Z80Regs) (mztFile : String) {m : Machine}
    (h : OnHalt m) : LoadResumes startRegs mztFile m ↔ FindsClear startRegs mztFile m := by
  constructor
  · intro hload fd hfd hne
    have hr := r_load startRegs hfd hne
    by_contra hflag
    have hnext := hload.next fd _ hfd (List.getLast?_eq_some_getLast hne)
    rw [hload.onHalt.nextInstruction, hr, Z80Regs.next, if_pos hflag] at hnext
    have hstep (x : UInt16) : x + 1 ≠ x := by grind
    exact hstep _ (congrArg Pair.wl hnext)
  · intro hclear
    cases hfd : m.files (mztPath mztFile) with
    | none =>
        have hsame : (setMztToMemory startRegs mztFile m).2 = m := by
          simp only [setMztToMemory, hfd]
        refine ⟨by rwa [hsame], fun fd r hfd' => ?_⟩
        rw [hfd] at hfd'
        cases hfd'
    | some fd =>
        by_cases hnil : storedRecords fd = []
        · have hcore := core_of_fileless (core_load_of_nil startRegs hfd hnil)
          have hr : (setMztToMemory startRegs mztFile m).2.r = m.r := congrArg Core.r hcore
          refine ⟨fun hflag => ?_, fun fd' r hfd' hlast => ?_⟩
          · rw [hr] at hflag
            exact (atHalt_congr hcore rfl).mpr (h hflag)
          · rw [hfd, Option.some.injEq] at hfd'
            rw [← hfd', hnil] at hlast
            cases hlast
        · have hr := r_load startRegs hfd hnil
          have hzero : (setMztToMemory startRegs mztFile m).2.r.halt = 0 := by
            rw [hr]
            exact hclear fd hfd hnil
          refine ⟨onHalt_of_zero hzero, fun fd' r hfd' hlast => ?_⟩
          rw [hfd, Option.some.injEq] at hfd'
          rw [← hfd', List.getLast?_eq_some_getLast hnil, Option.some.injEq] at hlast
          rw [nextInstruction_of_zero hzero, hr, hlast]

/-! ## every run -/

/-- A step: a pass of the CPU's loop, which runs instructions and
interrupts, the end of a frame, a reset, or a load from the menu. -/
inductive HaltStep
  | pass
  | refresh
  | reset (rand : UInt32)
  | load (startRegs : Nat → Z80Regs) (mztFile : String)

namespace HaltStep

/-- The machine after a step. -/
def apply : HaltStep → Machine → Machine
  | .pass, m => M5Z80.pass m
  | .refresh, m => M5Z80.refresh m
  | .reset rand, m => mzReset rand m
  | .load startRegs mztFile, m => (setMztToMemory startRegs mztFile m).2

/-- The step resumes where the program left off. -/
def Resumes (m : Machine) : HaltStep → Prop
  | .pass => PassResumes m
  | .refresh => OnHalt (M5Z80.refresh m)
  | .reset rand => OnHalt (mzReset rand m)
  | .load startRegs mztFile => LoadResumes startRegs mztFile m

/-- A pass executes no `HALT` that is not in memory, and a load finds the
flag clear. -/
def KeepsHalt (m : Machine) : HaltStep → Prop
  | .pass => ¬ HaltsUnseen (executing m)
  | .load startRegs mztFile => FindsClear startRegs mztFile m
  | _ => True

/-- On a HALT, to resume is to keep the instruction there. -/
theorem resumes_iff {m : Machine} (h : OnHalt m) (o : HaltStep) : Resumes m o ↔ KeepsHalt m o := by
  cases o with
  | pass => exact passResumes_iff h
  | refresh => exact iff_of_true h trivial
  | reset rand => exact iff_of_true (onHalt_of_zero rfl) trivial
  | load startRegs mztFile => exact loadResumes_iff startRegs mztFile h

/-- A step that resumes ends in a state that can resume again. -/
theorem Resumes.onHalt {m : Machine} {o : HaltStep} (h : Resumes m o) : OnHalt (o.apply m) := by
  cases o with
  | pass => exact PassResumes.onHalt h
  | refresh => exact h
  | reset rand => exact h
  | load startRegs mztFile => exact LoadResumes.onHalt h

end HaltStep

/-- From a reset on, every step of a run resumes where the program left off
exactly when the run executes no `HALT` that is not in memory and loads with
the flag clear. -/
theorem resumption_iff (rand : UInt32) (m : Machine) (ops : List HaltStep) :
    Run.Along HaltStep.apply HaltStep.Resumes ops (mzReset rand m) ↔
      Run.Along HaltStep.apply HaltStep.KeepsHalt ops (mzReset rand m) :=
  Run.along_congr (fun _ o h => HaltStep.resumes_iff h o) (fun _ _ _ h => h.onHalt) ops
    (onHalt_of_zero rfl)

/-! ### a program loaded over a HALT -/

/-- A machine whose ROM starts with a `HALT`, and a program for `1200` in
every file. -/
def haltRom : Machine :=
  { Machine.cold with
    mem := fun a => if a = romStart then 0x76 else 0x00
    files := fun _ => some (plainFile [bareRecord]) }

/-- A program that is loaded while the CPU is stopped on the `HALT` finds
the flag set. -/
theorem not_resumption : ¬ ∀ (rand : UInt32) (m : Machine) (ops : List HaltStep),
    Run.Along HaltStep.apply HaltStep.Resumes ops (mzReset rand m) := by
  intro h
  let m := pass (mzReset 0 haltRom)
  obtain ⟨hpass, hload, -⟩ := h 0 haltRom [.pass, .load (fun _ => Z80Regs.zero) "A.MZT"]
  have hfile : m.files (mztPath "A.MZT") = some (plainFile [bareRecord]) := by decide +kernel
  have hne : storedRecords (plainFile [bareRecord]) ≠ [] := by
    rw [storedRecords_plainFile (by simp)]
    simp
  have hclear := (loadResumes_iff _ "A.MZT" (PassResumes.onHalt hpass)).mp hload _ hfile hne
  have hflag : m.r.halt ≠ 0 := by decide +kernel
  rw [foundRegs, if_neg (not_isMz20_plainFile (by simp))] at hclear
  exact hflag hclear

end M5Z80
