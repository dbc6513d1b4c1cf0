import M5Z80.Frame
import M5Z80.Z80.Execute

/-!
# M5Z80.Interrupts

Raising the interrupt of the 8253.  `Interrupt` clears `IFF1` and leaves a
`HALT` before it looks at the interrupt mode, so that a request is accepted
in mode 1, and in mode 2 when its request bit is set; otherwise interrupts
are off afterwards and no handler runs.
-/

namespace M5Z80

/-! ## registers and memory -/

/-- A store to memory leaves the registers. -/
theorem r_store (m : Machine) (p : Ptr) (ofs : Nat) (v : UInt8) : (m.store p ofs v).r = m.r := by
  unfold Machine.store
  split <;> rfl

/-- A write leaves the registers alone. -/
theorem r_z80Wrmem (x y : UInt32) (m : Machine) : (z80Wrmem x y m).r = m.r := by
  unfold z80Wrmem
  dsimp only
  split
  · split
    · exact congrArg Core.r (core_mmioOut x y _)
    split
    · split
      · rw [r_mCstate, r_store]
        rfl
      · rw [r_store]
        rfl
    · rfl
  · rfl

/-- The two machines have the same memory and the same banks. -/
def SameMemory (m m' : Machine) : Prop :=
  { m'.core with r := m.r, intflag := m.z80Intflag } = m.core

/-- A push: the stack pointer goes down by two, and nothing else happens to
the registers. -/
theorem r_push (get : Z80Regs → Pair) (m : Machine) :
    (Cpu.push get m).2.r = { m.r with sp.wl := m.r.sp.wl - 2 } := by
  let m₁ : Machine := { m with r.sp.wl := m.r.sp.wl - 2 }
  let m₂ := z80Wrmem m₁.r.sp.d (get m₁.r).d m₁
  calc (Cpu.push get m).2.r =
        (z80Wrmem ((m₂.r.sp.d + 1) &&& 65535) ((get m₂.r).d >>> 8) m₂).r := rfl
    _ = m₁.r := by rw [r_z80Wrmem, r_z80Wrmem]

/-! ## acceptance -/

/-- The address of the instruction that would run next. -/
def Z80Regs.next (R : Z80Regs) : Pair :=
  if R.halt ≠ 0 then { R.pc with wl := R.pc.wl + 1 } else R.pc

/-- The registers when an interrupt is acknowledged: `IFF1` is cleared and
a halted CPU has left its `HALT`. -/
def Z80Regs.acknowledged (R : Z80Regs) : Z80Regs :=
  { R with iff1 := 0, halt := 0, pc := R.next }

/-- Where the handler of a mode is. -/
def handler (m : Machine) : UInt32 :=
  if m.r.im = 2 then (Cpu.rdmemWord (m.r.i <<< 8) m).1 else 0x38

/-- The interrupt is accepted: from the acknowledged registers the program
counter is pushed, and the handler comes next. -/
def Accepted (m m' : Machine) : Prop :=
  ∃ s : Machine, s.r = m.r.acknowledged ∧ SameMemory m s ∧
    m'.r = { (Cpu.push (·.pc) s).2.r with pc := Pair.ofD (handler (Cpu.push (·.pc) s).2) } ∧
    SameMemory (Cpu.push (·.pc) s).2 m'

/-- `Z80_Interrupt` raises the interrupt: a tick is due, and channel 2 puts
out a pulse. -/
structure Raises (m : Machine) : Prop where
  due : Cpu.tickDue m = true
  pulse : (pitCount (Cpu.countTick m)).1 ≠ 0
  out : ((pitCount (Cpu.countTick m)).2.stat8253 2).counterOut ≠ 0

/-- The machine after the tick, with the request set. -/
def requested (m : Machine) : Machine := Cpu.request (pitCount (Cpu.countTick m)).2

/-- The machine when the request is acknowledged. -/
def acknowledged (m : Machine) : Machine := { m with r := m.r.acknowledged }

/-- A request is a bit of the flag. -/
theorem core_requested (m : Machine) :
    (requested m).core = { m.core with intflag := m.z80Intflag ||| 1 } := by
  have hcore : (pitCount (Cpu.countTick m)).2.core = m.core := core_pitCount _
  have hflag : (pitCount (Cpu.countTick m)).2.z80Intflag = m.z80Intflag :=
    congrArg Core.intflag hcore
  calc (requested m).core
      = { (pitCount (Cpu.countTick m)).2.core with
          intflag := (pitCount (Cpu.countTick m)).2.z80Intflag ||| 1 } := rfl
    _ = { m.core with intflag := m.z80Intflag ||| 1 } := by rw [hcore, hflag]

/-- Without a tick due the check does nothing. -/
theorem z80Interrupt_of_not_due {m : Machine} (h : Cpu.tickDue m = false) :
    Cpu.z80Interrupt m = ((), m) := by
  simp only [Cpu.z80Interrupt, Cpu.bind_apply, Cpu.get_apply, h, Bool.false_eq_true, if_false,
    Cpu.pure_apply]

/-- What `Z80_Interrupt` does: nothing before a tick is due, then a tick,
and with it an interrupt. -/
theorem z80Interrupt_cases (m : Machine) :
    Cpu.tickDue m = false ∧ Cpu.z80Interrupt m = ((), m) ∨
      ¬ Raises m ∧ Cpu.z80Interrupt m = ((), (pitCount (Cpu.countTick m)).2) ∨
      Raises m ∧ Cpu.z80Interrupt m = Cpu.interrupt Cpu.eiEnabled 0 (requested m) := by
  cases hdue : Cpu.tickDue m with
  | false => exact .inl ⟨rfl, z80Interrupt_of_not_due hdue⟩
  | true =>
      right
      by_cases hpulse : (pitCount (Cpu.countTick m)).1 = 0
      · refine .inl ⟨fun h => h.pulse hpulse, ?_⟩
        simp only [Cpu.z80Interrupt, Cpu.bind_apply, Cpu.get_apply, Cpu.modify_apply, Cpu.tick,
          hdue, hpulse, ne_eq, not_true_eq_false, if_true, if_false, Cpu.pure_apply]
      by_cases hout : ((pitCount (Cpu.countTick m)).2.stat8253 2).counterOut = 0
      · refine .inl ⟨fun h => h.out hout, ?_⟩
        simp only [Cpu.z80Interrupt, Cpu.bind_apply, Cpu.get_apply, Cpu.modify_apply, Cpu.tick,
          hdue, hpulse, hout, ne_eq, not_true_eq_false, not_false_eq_true, if_true, if_false,
          Cpu.pure_apply]
      · refine .inr ⟨⟨hdue, hpulse, hout⟩, ?_⟩
        simp only [Cpu.z80Interrupt, Cpu.bind_apply, Cpu.get_apply, Cpu.modify_apply, Cpu.tick,
          hdue, hpulse, hout, Cpu.raise, ne_eq, not_false_eq_true, if_true]
        rfl

/-- At a tick with both pulses the check makes the request and looks at it. -/
theorem z80Interrupt_of_raises {m : Machine} (h : Raises m) :
    Cpu.z80Interrupt m = Cpu.interrupt Cpu.eiEnabled 0 (requested m) := by
  obtain ⟨hdue, -⟩ | ⟨hraises, -⟩ | ⟨-, heq⟩ := z80Interrupt_cases m
  · exact absurd h.due (by rw [hdue]; decide)
  · exact absurd h hraises
  · exact heq

/-- An acceptance clears IFF1 and wakes a halted processor. -/
theorem resume_control (m : Machine) :
    Cpu.resume ((Cpu.control fun R => { R with iff1 := 0 }) m).2 = ((), acknowledged m) := by
  by_cases hhalt : m.r.halt = 0
  · simp only [Cpu.resume, Cpu.control, hhalt, ne_eq, not_true_eq_false, if_false, acknowledged,
      Z80Regs.acknowledged, Z80Regs.next]
  · simp only [Cpu.resume, Cpu.control, hhalt, ne_eq, not_false_eq_true, if_true, acknowledged,
      Z80Regs.acknowledged, Z80Regs.next]

/-- With interrupts disabled the request is not looked at. -/
theorem interrupt_of_disabled (ei : Cpu Unit) {m : Machine} (h : m.r.iff1 = 0) :
    Cpu.interrupt ei 0 m = ((), m) := by
  have hignore : ¬ (0 : Int32) = Cpu.ignoreInt := by decide
  have hnmi : ¬ (0 : Int32) = Cpu.nmiInt := by decide
  simp only [Cpu.interrupt, if_neg hignore, Cpu.bind_apply, Cpu.reg_apply, hnmi, h,
    ne_eq, not_true_eq_false, or_self, if_false, Cpu.pure_apply]

/-- With interrupts enabled the mode decides what is done. -/
theorem interrupt_zero (ei : Cpu Unit) {m : Machine} (h : m.r.iff1 ≠ 0) :
    Cpu.interrupt ei 0 m =
      if m.r.im = 2 then Cpu.interruptIm2 0 (acknowledged m)
      else if m.r.im = 1 then Cpu.interruptIm1 ei (acknowledged m)
      else Cpu.interruptIm0 ei 0 (acknowledged m) := by
  have hignore : ¬ (0 : Int32) = Cpu.ignoreInt := by decide
  have hnmi : ¬ (0 : Int32) = Cpu.nmiInt := by decide
  simp only [Cpu.interrupt, if_neg hignore, Cpu.bind_apply, Cpu.reg_apply,
    hnmi, h, ne_eq, not_false_eq_true, false_or, if_true]
  rw [resume_control]
  have him : (acknowledged m).r.im = m.r.im := rfl
  simp only [if_false, Cpu.bind_apply, Cpu.reg_apply, him]
  split
  · rfl
  · simp only [Cpu.bind_apply, Cpu.reg_apply, him]
    split <;> rfl

/-! ## the three modes -/

/-- Registers and the flag are not memory. -/
theorem sameMemory_of_core {m m' : Machine} {R : Z80Regs} {flag : UInt32}
    (h : m'.core = { m.core with r := R, intflag := flag }) : SameMemory m m' := by
  rw [SameMemory, h]
  rfl

/-- A request that is there is taken. -/
theorem takeRequest_of_set {bit : UInt32} {m : Machine} (h : m.z80Intflag &&& bit ≠ 0) :
    Cpu.takeRequest bit m = (true, { m with z80Intflag := m.z80Intflag &&& ~~~bit }) := by
  rw [Cpu.takeRequest, if_pos h]

/-- A request that is not there is not taken. -/
theorem takeRequest_of_clear {bit : UInt32} {m : Machine} (h : m.z80Intflag &&& bit = 0) :
    Cpu.takeRequest bit m = (false, m) := by
  rw [Cpu.takeRequest, if_neg (not_not_intro h)]

theorem core_rdmemWord (a : UInt32) (m : Machine) : (Cpu.rdmemWord a m).2.core = m.core := by
  calc (Cpu.rdmemWord a m).2.core
      = (z80Rdmem ((a + 1) &&& 0xFFFF) (z80Rdmem a m).2).2.core := rfl
    _ = m.core := by rw [core_z80Rdmem, core_z80Rdmem]

/-- Mode 1 with a request: `RST 38`. -/
theorem interruptIm1_spec (ei : Cpu Unit) {m : Machine} (h : m.z80Intflag &&& 1 ≠ 0) :
    ∃ s : Machine, s.r = m.r ∧ SameMemory m s ∧
      (Cpu.interruptIm1 ei m).2.r = { (Cpu.push (·.pc) s).2.r with pc := Pair.ofD 0x38 } ∧
      SameMemory (Cpu.push (·.pc) s).2 (Cpu.interruptIm1 ei m).2 := by
  obtain ⟨s, hs⟩ : ∃ s, s = mCstate 11 { m with z80Intflag := m.z80Intflag &&& ~~~1 } := ⟨_, rfl⟩
  have hcore : s.core = { m.core with r := m.r, intflag := m.z80Intflag &&& ~~~1 } := by
    rw [hs]
    exact core_mCstate _ _
  have hrst : (Cpu.interruptIm1 ei m).2 = (Cpu.setPC 0x38 (Cpu.push (·.pc) s).2).2 := by
    have hentry (m' : Machine) :
        Op.dispatch cyclesMain (Op.opcodeMain ei) 0xFF m' = Cpu.rst 0x38 (mCstate 11 m') :=
      Op.dispatch_apply (by decide) (by decide) rfl m'
    simp only [Cpu.interruptIm1, Cpu.bind_apply, takeRequest_of_set h, if_true, hentry, Cpu.rst, hs]
  refine ⟨s, congrArg Core.r hcore, sameMemory_of_core hcore, ?_, ?_⟩
  · rw [hrst]
    rfl
  · rw [hrst]
    exact sameMemory_of_core rfl

/-- Mode 2 with a request: a call through the table at `I`. -/
theorem interruptIm2_spec {m : Machine} (h : m.z80Intflag &&& 2 ≠ 0) :
    ∃ s : Machine, s.r = m.r ∧ SameMemory m s ∧
      (Cpu.interruptIm2 0 m).2.r = { (Cpu.push (·.pc) s).2.r with
        pc := Pair.ofD (Cpu.rdmemWord (m.r.i <<< 8) (Cpu.push (·.pc) s).2).1 } ∧
      SameMemory (Cpu.push (·.pc) s).2 (Cpu.interruptIm2 0 m).2 := by
  let s : Machine := { m with z80Intflag := m.z80Intflag &&& ~~~2 }
  let p := (Cpu.push (·.pc) s).2
  have hcore : s.core = { m.core with r := m.r, intflag := m.z80Intflag &&& ~~~2 } := rfl
  have hr : p.r = { s.r with sp.wl := s.r.sp.wl - 2 } := r_push (·.pc) s
  have hi : p.r.i = m.r.i := by rw [hr]
  have hcall : (Cpu.interruptIm2 0 m).2 = (Cpu.setPC (Cpu.rdmemWord (m.r.i <<< 8) p).1
      (Cpu.rdmemWord (m.r.i <<< 8) p).2).2 := by
    have hvector : ((0 : Int32).toUInt32 &&& (255 : UInt32)) ||| (p.r.i <<< 8) = m.r.i <<< 8 := by
      rw [hi]
      exact UInt32.zero_or
    simp only [Cpu.interruptIm2, Cpu.bind_apply, takeRequest_of_set h, if_true, Cpu.reg_apply]
    rw [← hvector]
  let q := Cpu.rdmemWord (m.r.i <<< 8) p
  have hword : q.2.core = p.core := core_rdmemWord _ p
  have hqr : q.2.r = p.r := congrArg Core.r hword
  rw [hcall]
  refine ⟨s, rfl, sameMemory_of_core hcore, ?_, ?_⟩
  · change ({ q.2.r with pc := Pair.ofD q.1 } : Z80Regs) = { p.r with pc := Pair.ofD q.1 }
    rw [hqr]
  · have hset : (Cpu.setPC q.1 q.2).2.core =
        { p.core with r := (Cpu.setPC q.1 q.2).2.r, intflag := p.z80Intflag } := by
      calc (Cpu.setPC q.1 q.2).2.core = { q.2.core with r := (Cpu.setPC q.1 q.2).2.r } := rfl
        _ = _ := by rw [hword]; rfl
    exact sameMemory_of_core hset

/-- Mode 0 runs the opcode `00`. -/
theorem interruptIm0_apply (ei : Cpu Unit) (m : Machine) :
    Cpu.interruptIm0 ei 0 m = ((), mCstate 4 m) := by
  have hcall : ¬ (0 : Int32).toUInt32 &&& 0xFF0000 = 0xCD := by decide
  have hjump : ¬ (0 : Int32).toUInt32 &&& 0xFF0000 = 0xC3 := by decide
  rw [Cpu.interruptIm0, if_neg hcall, if_neg hjump]
  exact Op.dispatch_apply (by decide) (by decide) rfl m

/-- In IM 0 the 0 on the bus is a `NOP`, and nothing but the acknowledgement is seen. -/
theorem interruptIm0_zero (ei : Cpu Unit) (m : Machine) :
    (Cpu.interruptIm0 ei 0 m).2.r = m.r := by
  rw [interruptIm0_apply]
  exact r_mCstate 4 m

/-! ## all or nothing -/

/-- An accepted interrupt has pushed something. -/
theorem Accepted.sp {m m' : Machine} (h : Accepted m m') : m'.r.sp.wl = m.r.sp.wl - 2 := by
  obtain ⟨s, hs, -, hr, -⟩ := h
  rw [hr, r_push, hs]
  rfl

theorem SameMemory.trans {m m₁ m₂ : Machine} (h : SameMemory m m₁) (h' : SameMemory m₁ m₂) :
    SameMemory m m₂ := by
  calc ({ m₂.core with r := m.r, intflag := m.z80Intflag } : Core)
      = { ({ m₂.core with r := m₁.r, intflag := m₁.z80Intflag } : Core) with
          r := m.r, intflag := m.z80Intflag } := rfl
    _ = { m₁.core with r := m.r, intflag := m.z80Intflag } := by rw [h']
    _ = m.core := h

/-- The request does not touch the bit that IM 2 looks at. -/
theorem or_one_and_two (x : UInt32) : (x ||| 1) &&& 2 = x &&& 2 := by
  rw [← UInt32.toNat_inj, UInt32.toNat_and, UInt32.toNat_or, UInt32.toNat_and,
    Nat.and_or_distrib_right]
  exact Nat.or_zero _

/-- The request is there after it is made. -/
theorem or_one_and_one (x : UInt32) : (x ||| 1) &&& 1 = 1 := by
  rw [← UInt32.toNat_inj, UInt32.toNat_and, UInt32.toNat_or]
  change (x.toNat ||| 1) &&& 1 = 1
  rw [Nat.and_or_distrib_right, Nat.and_one_is_mod]
  obtain h | h := Nat.mod_two_eq_zero_or_one x.toNat <;> rw [h] <;> rfl

/-- A call from the acknowledged machine accepts the request. -/
theorem accepted_of_call {m m₀ m' : Machine} (hr₀ : m₀.r = m.r.acknowledged)
    (hmem₀ : SameMemory m m₀) {h : Machine → UInt32}
    (hhandler : ∀ s : Machine, s.r = m.r.acknowledged →
      handler (Cpu.push (·.pc) s).2 = h (Cpu.push (·.pc) s).2)
    (hcall : ∃ s : Machine, s.r = m₀.r ∧ SameMemory m₀ s ∧
      m'.r = { (Cpu.push (·.pc) s).2.r with pc := Pair.ofD (h (Cpu.push (·.pc) s).2) } ∧
      SameMemory (Cpu.push (·.pc) s).2 m') : Accepted m m' := by
  obtain ⟨s, hr, hmem, hpc, hmem'⟩ := hcall
  have hsr : s.r = m.r.acknowledged := hr.trans hr₀
  refine ⟨s, hsr, hmem₀.trans hmem, ?_, hmem'⟩
  rw [hhandler s hsr]
  exact hpc

/-- Without a push nothing was accepted. -/
theorem not_accepted_of_sp {m m' : Machine} (h : m'.r.sp = m.r.sp) : ¬ Accepted m m' := by
  intro hacc
  have hsp : m.r.sp.wl = m.r.sp.wl - 2 := by
    have hpush := hacc.sp
    rwa [h] at hpush
  have hnat := congrArg UInt16.toNat hsp
  rw [UInt16.toNat_sub] at hnat
  have hlt := m.r.sp.wl.toNat_lt
  simp only [UInt16.reduceToNat] at hnat
  omega

/-- A request that is acknowledged and not taken is neither accepted nor
without effect. -/
theorem not_allOrNothing {m m' : Machine} (hiff : m.r.iff1 ≠ 0) (hr : m'.r = m.r.acknowledged) :
    ¬ (Accepted m m' ∨ m'.r = m.r) := by
  rintro (hacc | hsame)
  · exact not_accepted_of_sp (by rw [hr]; rfl) hacc
  · rw [hr] at hsame
    exact hiff (congrArg Z80Regs.iff1 hsame).symm

/-- The registers are those of the acknowledgement. -/
theorem r_acknowledged (m : Machine) : (acknowledged (requested m)).r = m.r.acknowledged := by
  have hr : (requested m).r = m.r := congrArg Core.r (core_requested m)
  rw [acknowledged, hr]

/-- The acknowledgement leaves the request flag. -/
theorem intflag_acknowledged (m : Machine) :
    (acknowledged (requested m)).z80Intflag = m.z80Intflag ||| 1 :=
  congrArg Core.intflag (core_requested m)

/-- The request and its acknowledgement leave memory. -/
theorem sameMemory_acknowledged (m : Machine) : SameMemory m (acknowledged (requested m)) := by
  refine SameMemory.trans (sameMemory_of_core (R := m.r) (core_requested m)) ?_
  exact sameMemory_of_core rfl

section

variable {m : Machine} (hiff : m.r.iff1 ≠ 0) (h : Raises m)
include hiff h

/-- A raised interrupt is acknowledged, and then it is up to the mode. -/
theorem z80Interrupt_of_enabled : Cpu.z80Interrupt m =
    if m.r.im = 2 then Cpu.interruptIm2 0 (acknowledged (requested m))
    else if m.r.im = 1 then Cpu.interruptIm1 Cpu.eiEnabled (acknowledged (requested m))
    else Cpu.interruptIm0 Cpu.eiEnabled 0 (acknowledged (requested m)) := by
  have hr : (requested m).r = m.r := congrArg Core.r (core_requested m)
  rw [z80Interrupt_of_raises h, interrupt_zero _ (hr ▸ hiff), hr]

/-- In IM 1 the acceptance is whole. -/
theorem accepted_mode1 (him : m.r.im = 1) : Accepted m (Cpu.z80Interrupt m).2 := by
  have hset : (acknowledged (requested m)).z80Intflag &&& 1 ≠ 0 := by
    rw [intflag_acknowledged, or_one_and_one]
    decide
  have h2 : ¬ m.r.im = 2 := by rw [him]; decide
  rw [z80Interrupt_of_enabled hiff h, if_neg h2, if_pos him]
  refine accepted_of_call (h := fun _ => 0x38) (r_acknowledged m) (sameMemory_acknowledged m) ?_
    (interruptIm1_spec _ hset)
  intro s hs
  have him' : (Cpu.push (·.pc) s).2.r.im = m.r.im := by rw [r_push, hs]; rfl
  rw [handler, him', if_neg h2]

/-- In IM 2 it is whole if bit 1 of the flag is set, which is the one it looks at. -/
theorem accepted_mode2 (him : m.r.im = 2) (hbit : m.z80Intflag &&& 2 ≠ 0) :
    Accepted m (Cpu.z80Interrupt m).2 := by
  have hset : (acknowledged (requested m)).z80Intflag &&& 2 ≠ 0 := by
    rw [intflag_acknowledged, or_one_and_two]
    exact hbit
  rw [z80Interrupt_of_enabled hiff h, if_pos him]
  have hspec := interruptIm2_spec hset
  have hi₀ : (acknowledged (requested m)).r.i = m.r.i := by rw [r_acknowledged]; rfl
  rw [hi₀] at hspec
  refine accepted_of_call (h := fun p => (Cpu.rdmemWord (m.r.i <<< 8) p).1) (r_acknowledged m)
    (sameMemory_acknowledged m) ?_ hspec
  intro s hs
  have him' : (Cpu.push (·.pc) s).2.r.im = m.r.im := by rw [r_push, hs]; rfl
  have hi : (Cpu.push (·.pc) s).2.r.i = m.r.i := by rw [r_push, hs]; rfl
  rw [handler, him', if_pos him, hi]

/-- In the other modes the request is acknowledged and not taken. -/
theorem r_z80Interrupt_of_untaken (h1 : ¬ m.r.im = 1)
    (h2 : m.r.im = 2 → m.z80Intflag &&& 2 = 0) : (Cpu.z80Interrupt m).2.r = m.r.acknowledged := by
  rw [z80Interrupt_of_enabled hiff h]
  by_cases him : m.r.im = 2
  · have hclear : (acknowledged (requested m)).z80Intflag &&& 2 = 0 := by
      rw [intflag_acknowledged, or_one_and_two, h2 him]
    have hnone : Cpu.interruptIm2 0 (acknowledged (requested m)) =
        ((), acknowledged (requested m)) := by
      simp only [Cpu.interruptIm2, Cpu.bind_apply, takeRequest_of_clear hclear,
        Bool.false_eq_true, if_false, Cpu.pure_apply]
    rw [if_pos him, hnone]
    exact r_acknowledged m
  · rw [if_neg him, if_neg h1, interruptIm0_zero, r_acknowledged]

end

/-- The interrupt of the 8253 is accepted, or nothing of the CPU's state
changes, exactly in mode 1, and in mode 2 with a request of its own. -/
theorem acceptance_iff (m : Machine) (hiff : m.r.iff1 ≠ 0) (h : Raises m) :
    (Accepted m (Cpu.z80Interrupt m).2 ∨ (Cpu.z80Interrupt m).2.r = m.r) ↔
      m.r.im = 1 ∨ m.r.im = 2 ∧ m.z80Intflag &&& 2 ≠ 0 := by
  by_cases h1 : m.r.im = 1
  · exact iff_of_true (.inl (accepted_mode1 hiff h h1)) (.inl h1)
  by_cases h2 : m.r.im = 2 ∧ m.z80Intflag &&& 2 ≠ 0
  · exact iff_of_true (.inl (accepted_mode2 hiff h h2.1 h2.2)) (.inr h2)
  · refine iff_of_false (not_allOrNothing hiff ?_) (fun hor => hor.elim h1 h2)
    refine r_z80Interrupt_of_untaken hiff h h1 fun him => ?_
    by_contra hbit
    exact h2 ⟨him, hbit⟩

/-- A machine in interrupt mode `im` whose next check raises the interrupt:
both counters are at their last tick. -/
def dueMachine (im : UInt32) : Machine :=
  { Machine.cold with
    r := { Z80Regs.zero with iff1 := 1, im := im, sp := Pair.ofD 0xF000 }
    ts700 := { T700Ts.zero with cpuTstates := cval }
    stat8253 := fun no =>
      if no = 1 then { T8253Stat.zero with running := 1, mode := 2, counter := 1, counterBase := 1 }
      else { T8253Stat.zero with running := 1 } }

/-- A tick is due, and both channels are at their last count. -/
theorem raises_dueMachine (im : UInt32) : Raises (dueMachine im) :=
  ⟨(by decide : Cpu.tickDue (dueMachine 0) = true),
    (by decide : (pitCount (Cpu.countTick (dueMachine 0))).1 ≠ 0),
    (by decide : ((pitCount (Cpu.countTick (dueMachine 0))).2.stat8253 2).counterOut ≠ 0)⟩

/-- An acceptance in IM 1. -/
theorem acceptance_mode1 :
    Accepted (dueMachine 1) (Cpu.z80Interrupt (dueMachine 1)).2 ∨
      (Cpu.z80Interrupt (dueMachine 1)).2.r = (dueMachine 1).r :=
  (acceptance_iff (dueMachine 1) (by decide) (raises_dueMachine 1)).mpr (.inl rfl)

/-- In mode 0, the mode after a reset, the request turns interrupts off. -/
theorem not_acceptance : ¬ ∀ m : Machine, m.r.iff1 ≠ 0 → Raises m →
    Accepted m (Cpu.z80Interrupt m).2 ∨ (Cpu.z80Interrupt m).2.r = m.r := by
  intro h
  have hiff : (dueMachine 0).r.iff1 ≠ 0 := by decide
  have hraises := raises_dueMachine 0
  refine not_allOrNothing hiff ?_ (h (dueMachine 0) hiff hraises)
  have hr : (requested (dueMachine 0)).r = (dueMachine 0).r :=
    congrArg Core.r (core_requested (dueMachine 0))
  rw [z80Interrupt_of_raises hraises, interrupt_zero _ (hr ▸ hiff), hr, if_neg (by decide),
    if_neg (by decide), interruptIm0_zero, acknowledged, hr]

/-! ## the table entry of `EI` -/

/-- `Interrupt(0)` does not run the entry of `ei`. -/
theorem interrupt_zero_congr (ei ei' : Cpu Unit) :
    Cpu.interrupt ei 0 = Cpu.interrupt ei' 0 := by
  have him1 : Cpu.interruptIm1 ei = Cpu.interruptIm1 ei' := by
    rw [Cpu.interruptIm1, Cpu.interruptIm1, Op.dispatch_of_ne (by decide) ei ei']
  have him0 : Cpu.interruptIm0 ei 0 = Cpu.interruptIm0 ei' 0 := by
    simp only [Cpu.interruptIm0]
    rw [Op.dispatch_of_ne (by decide) ei ei']
  simp only [Cpu.interrupt, him1, him0]

/-- While interrupts are enabled the entry of `ei` only sets `IFF2`. -/
theorem dispatch_ei {m : Machine} (h : m.r.iff1 ≠ 0) (opcode : UInt32) :
    Op.dispatch cyclesMain (Op.opcodeMain Cpu.eiEnabled) opcode m =
      Op.dispatch cyclesMain (Op.opcodeMain Cpu.ei) opcode m := by
  by_cases hop : opcode = 0xFB
  · subst hop
    have hentry (ei : Cpu Unit) :
        Op.dispatch cyclesMain (Op.opcodeMain ei) 0xFB m = ei (mCstate 4 m) :=
      Op.dispatch_apply (by decide) (by decide) rfl m
    have hiff : (mCstate 4 m).r.iff1 ≠ 0 := by rwa [r_mCstate]
    rw [hentry, hentry, Cpu.ei, Cpu.bind_apply, Cpu.reg_apply, if_neg hiff]
  · rw [Op.dispatch_of_ne hop]

/-- The opcode fetch leaves IFF1. -/
theorem iff1_rdmemOpcode (m : Machine) : (Cpu.rdmemOpcode m).2.r.iff1 = m.r.iff1 := by
  have hr : (z80Rdmem m.r.pc.d m).2.r = m.r := congrArg Core.r (core_z80Rdmem _ m)
  calc (Cpu.rdmemOpcode m).2.r.iff1 = (z80Rdmem m.r.pc.d m).2.r.iff1 := rfl
    _ = m.r.iff1 := by rw [hr]

/-- `ei` runs the next instruction through the table it is in itself: when
that is another `EI`, interrupts are enabled by then. -/
theorem ei_eq : Cpu.ei = (do
    if (← Cpu.reg (·.iff1)) = 0 then
      Cpu.control fun R => { R with iff1 := 1, iff2 := 1 }
      Op.incR
      Cpu.instruction Cpu.ei
      Cpu.z80Interrupt
    else Cpu.eiEnabled) := by
  funext m
  conv => lhs; rw [Cpu.ei]
  by_cases hiff : m.r.iff1 = 0
  · simp only [Cpu.bind_apply, Cpu.reg_apply, hiff, if_true, Cpu.instruction]
    rw [dispatch_ei]
    rw [iff1_rdmemOpcode]
    exact (by decide : (1 : UInt32) ≠ 0)
  · have hreg (P Q : Cpu Unit) :
        ((do if (← Cpu.reg (·.iff1)) = 0 then P else Q) : Cpu Unit) m = Q m := by
      rw [Cpu.bind_apply, Cpu.reg_apply, if_neg hiff]
    rw [hreg, hreg]

end M5Z80
