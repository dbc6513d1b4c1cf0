import M5Z80.Passes

/-!
# M5Z80.Pending

A request for an interrupt that comes while interrupts are disabled.  It
stays in `Z80_intflag` for as long as they are, but `Z80_Interrupt` looks at
it only when the 8253 puts out another pulse, so that enabling interrupts
does not make the CPU take it.
-/

namespace M5Z80

/-! ## pulses -/

/-- The channel is at its last count: the next tick of its clock makes it
put out a pulse. -/
def T8253Stat.Expires (st : T8253Stat) : Prop :=
  st.running ≠ 0 ∧ (st.mode = 0 ∧ st.counter ≤ 0 ∨ (st.mode = 2 ∨ st.mode = 4) ∧ st.counter ≤ 1)

/-- A count puts out a pulse exactly when the channel is at its last count. -/
theorem T8253Stat.pitcountJob_one (st : T8253Stat) :
    st.Expires ∧ (st.pitcountJob 1).1 = 1 ∧ (st.pitcountJob 1).2.counterOut = 1 ∨
      ¬ st.Expires ∧ (st.pitcountJob 1).1 = 0 := by
  have hone : UInt16.ofInt 1 = 1 := rfl
  simp only [pitcountJob, Expires]
  grind

/-- A tick of the 8253 is due, and its channels 1 and 2 are at their last
count. -/
structure PulseDue (m : Machine) : Prop where
  due : cval ≤ m.ts700.cpuTstates - m.ts700.pitTstates
  channel1 : (m.stat8253 1).Expires
  channel2 : (m.stat8253 2).Expires

/-- `Z80_Interrupt` raises the interrupt exactly when a pulse is due. -/
theorem raises_iff (m : Machine) : Raises m ↔ PulseDue m := by
  have hdue : Cpu.tickDue m = true ↔ cval ≤ m.ts700.cpuTstates - m.ts700.pitTstates :=
    decide_eq_true_iff
  have hstat (m : Machine) (no : Fin 3) :
      (pitcountJob no 1 m).1 = ((m.stat8253 no).pitcountJob 1).1 ∧
        ((pitcountJob no 1 m).2.stat8253 no) = ((m.stat8253 no).pitcountJob 1).2 :=
    ⟨rfl, Function.update_self ..⟩
  let m₁ := (pitcountJob 1 1 (Cpu.countTick m)).2
  have hchannel2 : m₁.stat8253 2 = m.stat8253 2 := by
    change Function.update m.stat8253 1 ((m.stat8253 1).pitcountJob 1).2 2 = m.stat8253 2
    exact Function.update_of_ne (by decide) _ _
  have h1 := hstat (Cpu.countTick m) 1
  have h2 := hstat m₁ 2
  rw [hchannel2] at h2
  have hcount : pitCount (Cpu.countTick m) =
      if ((m.stat8253 1).pitcountJob 1).1 ≠ 0 then pitcountJob 2 1 m₁ else (0, m₁) := rfl
  obtain ⟨hexpires1, hout1, -⟩ | ⟨hstays1, hout1⟩ := (m.stat8253 1).pitcountJob_one
  · rw [hout1, if_pos (by decide)] at hcount
    obtain ⟨hexpires2, hout2, hcounter2⟩ | ⟨hstays2, hout2⟩ := (m.stat8253 2).pitcountJob_one
    · constructor
      · intro h
        exact ⟨hdue.mp h.due, hexpires1, hexpires2⟩
      · intro h
        refine ⟨hdue.mpr h.due, ?_, ?_⟩
        · rw [hcount, h2.1, hout2]
          decide
        · rw [hcount, h2.2, hcounter2]
          decide
    · refine iff_of_false (fun h => h.pulse ?_) (fun h => hstays2 h.channel2)
      rw [hcount, h2.1, hout2]
  · rw [hout1, if_neg (by decide)] at hcount
    refine iff_of_false (fun h => h.pulse ?_) (fun h => hstays1 h.channel1)
    rw [hcount]

/-! ## entering the handler -/

/-- The check at `m` makes the CPU enter `RST 38`: the interrupt is accepted,
and the handler at `0038` comes next. -/
def EntersRst38 (m : Machine) : Prop :=
  Accepted m (Cpu.z80Interrupt m).2 ∧ (Cpu.z80Interrupt m).2.r.pc = Pair.ofD 0x38

/-- Interrupts are enabled, and a pulse is due. -/
def Strikes (m : Machine) : Prop := m.r.iff1 ≠ 0 ∧ PulseDue m

/-- A check that does not strike leaves the registers alone. -/
theorem r_z80Interrupt {m : Machine} (h : ¬ Strikes m) : (Cpu.z80Interrupt m).2.r = m.r := by
  have htick : (pitCount (Cpu.countTick m)).2.r = m.r :=
    congrArg Core.r (core_pitCount (Cpu.countTick m))
  obtain ⟨-, heq⟩ | ⟨-, heq⟩ | ⟨hraises, heq⟩ := z80Interrupt_cases m
  · rw [heq]
  · rw [heq]
    exact htick
  · have hr : (requested m).r = m.r := htick
    have hiff : (requested m).r.iff1 = 0 := by
      by_contra hne
      exact h ⟨hr ▸ hne, (raises_iff m).mp hraises⟩
    rw [heq, interrupt_of_disabled _ hiff]
    exact hr

/-- The CPU enters `RST 38` only at a check that strikes, in whatever mode. -/
theorem EntersRst38.strikes {m : Machine} (h : EntersRst38 m) : Strikes m := by
  by_contra hnot
  exact not_accepted_of_sp (by rw [r_z80Interrupt hnot]) h.1

/-- In mode 1 the CPU enters `RST 38` exactly at a check that strikes. -/
theorem entersRst38_iff {m : Machine} (him : m.r.im = 1) : EntersRst38 m ↔ Strikes m := by
  constructor
  · exact EntersRst38.strikes
  · intro h
    have hacc := accepted_mode1 h.1 ((raises_iff m).mpr h.2) him
    refine ⟨hacc, ?_⟩
    obtain ⟨s, hs, -, hr, -⟩ := hacc
    have him' : ¬ (Cpu.push (·.pc) s).2.r.im = 2 := by
      have hpush : (Cpu.push (·.pc) s).2.r.im = m.r.im := by rw [r_push, hs]; rfl
      rw [hpush, him]
      decide
    rw [hr, handler, if_neg him']

/-! ## waiting -/

/-- The request bit of the 8253 is set. -/
def Pending (m : Machine) : Prop := m.z80Intflag &&& 1 ≠ 0

instance (m : Machine) : Decidable (Pending m) := inferInstanceAs (Decidable (_ ≠ _))

/-- Pending is a matter of the flag. -/
theorem Pending.congr {m m' : Machine} (h : Pending m) (heq : m'.z80Intflag = m.z80Intflag) :
    Pending m' := by
  rwa [Pending, heq]

/-- Only requests and `Interrupt` change the request bits. -/
theorem keeps_intflag : Cpu.Keeps fun m m' => m'.z80Intflag = m.z80Intflag where
  refl _ := rfl
  trans h h' := h'.trans h
  regs _ _ := rfl
  budget _ _ := rfl
  use _ _ _ := rfl
  store m p ofs v := by
    unfold Machine.store
    split <;> rfl
  mCstate n m := congrArg Core.intflag (core_mCstate n m)
  mmioIn addr m := congrArg Core.intflag (core_mmioIn addr m)
  mmioOut addr val m := congrArg Core.intflag (core_mmioOut addr val m)
  z80Out port value m := by
    calc (z80Out port value m).z80Intflag = (z80Out port value m).unbanked.z80Intflag := rfl
      _ = m.z80Intflag := by rw [unbanked_z80Out]; rfl

/-- A check leaves the request pending while interrupts are disabled. -/
theorem pending_z80Interrupt {m : Machine} (h : Pending m) (hiff : m.r.iff1 = 0) :
    Pending (Cpu.z80Interrupt m).2 := by
  have htick : (pitCount (Cpu.countTick m)).2.core = m.core := core_pitCount _
  obtain ⟨-, heq⟩ | ⟨-, heq⟩ | ⟨-, heq⟩ := z80Interrupt_cases m
  · rw [heq]
    exact h
  · rw [heq]
    exact h.congr (congrArg Core.intflag htick)
  · have hiff' : (requested m).r.iff1 = 0 := by
      have hr : (requested m).r = m.r := congrArg Core.r (core_requested m)
      rw [hr, hiff]
    rw [heq, interrupt_of_disabled _ hiff']
    have hflag : (requested m).z80Intflag = m.z80Intflag ||| 1 :=
      congrArg Core.intflag (core_requested m)
    rw [Pending, hflag, or_one_and_one]
    decide

/-- The request is still pending where an `EI` checks for it. -/
theorem pending_eiCheck {m s : Machine} (h : Pending (fetching m)) (hs : eiCheck m = some s) :
    Pending s := by
  obtain ⟨m₁, hbehind, rfl⟩ := Option.map_eq_some_iff.mp hs
  have hfetch : (Cpu.rdmemOpcode (fetching m)).2.z80Intflag = (fetching m).z80Intflag :=
    keeps_intflag.built Cpu.rdmemOpcode (fetching m)
  have henabled (m : Machine) : (enabled m).z80Intflag = m.z80Intflag := rfl
  have hm₁ : m₁.z80Intflag = (fetching m).z80Intflag := by
    rw [(behindEi_some hbehind).2, henabled, keeps_intflag.mCstate 4, hfetch]
  exact h.congr ((keeps_intflag.nextEnabled m₁).trans hm₁)

/-- The first check of a pass leaves the request pending. -/
theorem pending_fetching {m : Machine} (h : Pending m) (hiff : m.r.iff1 = 0) :
    Pending (fetching m) := by
  have hstart : Pending (startCheck m) := h
  exact pending_z80Interrupt hstart hiff

/-- A pass that executes no `EI` leaves the request pending, and so does the
first check of the next one. -/
theorem pending_pass {m : Machine} (h : Pending (fetching m)) (hei : eiCheck m = none)
    (hiff : (pass m).r.iff1 = 0) : Pending (fetching (pass m)) := by
  rw [pass_of_none hei] at hiff ⊢
  exact pending_fetching (h.congr (keeps_intflag.nextEnabled (fetching m))) hiff

/-! ## every run -/

/-- A request is set while interrupts are disabled, `n` passes go by with
interrupts disabled and without an `EI`, and the next pass executes an `EI`
that checks for interrupts at `s`, behind the instruction that follows it,
in interrupt mode 1. -/
structure HeldBack (m : Machine) (n : Nat) (s : Machine) : Prop where
  pending : Pending (fetching m)
  disabled : ∀ k ≤ n, (pass^[k] m).r.iff1 = 0
  noEi : ∀ k < n, eiCheck (pass^[k] m) = none
  ei : eiCheck (pass^[n] m) = some s
  mode : s.r.im = 1

/-- The CPU enters `RST 38` at the boundary behind the instruction that
follows the `EI`: at the check of `ei` itself, or at that of the next pass. -/
def EnteredInTime (m : Machine) (n : Nat) (s : Machine) : Prop :=
  EntersRst38 s ∨ EntersRst38 (startCheck (pass^[n + 1] m))

/-- It does so at a check where no further pulse of the 8253 is due. -/
def TakenInTime (m : Machine) (n : Nat) (s : Machine) : Prop :=
  EntersRst38 s ∧ ¬ PulseDue s ∨
    EntersRst38 (startCheck (pass^[n + 1] m)) ∧ ¬ PulseDue (startCheck (pass^[n + 1] m))

/-- No pass on the way takes the request, since interrupts are disabled. -/
theorem HeldBack.pending_fetching {m s : Machine} {n : Nat} (h : HeldBack m n s) {k : Nat}
    (hk : k ≤ n) : Pending (fetching (pass^[k] m)) := by
  induction k with
  | zero => exact h.pending
  | succ k ih =>
      have hiff := h.disabled (k + 1) hk
      rw [Function.iterate_succ_apply'] at hiff ⊢
      exact pending_pass (ih (by omega)) (h.noEi k (by omega)) hiff

/-- Without a further pulse no held-back request is taken. -/
theorem not_takenInTime (m : Machine) (n : Nat) (s : Machine) : ¬ TakenInTime m n s := by
  rintro (⟨henters, hpulse⟩ | ⟨henters, hpulse⟩)
  · exact hpulse henters.strikes.2
  · exact hpulse henters.strikes.2

/-- With interrupts in mode 1, `RST 38` is entered at that boundary exactly when
one of its two checks strikes. -/
theorem HeldBack.entered_iff {m s : Machine} {n : Nat} (h : HeldBack m n s) :
    EnteredInTime m n s ↔ Strikes s ∨ Strikes (startCheck (pass^[n + 1] m)) := by
  have hpass : pass^[n + 1] m = (Cpu.z80Interrupt s).2 := by
    rw [Function.iterate_succ_apply', pass_of_some h.ei]
  rw [EnteredInTime, entersRst38_iff h.mode]
  by_cases hstrikes : Strikes s
  · exact iff_of_true (.inl hstrikes) (.inl hstrikes)
  · -- the registers are as `ei` found them, and so is the mode
    have hmode : (startCheck (pass^[n + 1] m)).r.im = 1 := by
      have hr : (startCheck (pass^[n + 1] m)).r.im = (pass^[n + 1] m).r.im := rfl
      rw [hr, hpass, r_z80Interrupt hstrikes, h.mode]
    rw [entersRst38_iff hmode]

/-- A request that was held back is still there behind the `EI`, and it is never
taken in time: `RST 38` is entered at that boundary exactly when interrupts are
enabled and a further pulse of the 8253 is due at one of its two checks. -/
theorem heldBack_iff {m s : Machine} {n : Nat} (h : HeldBack m n s) :
    Pending s ∧ ¬ TakenInTime m n s ∧
      (EnteredInTime m n s ↔ Strikes s ∨ Strikes (startCheck (pass^[n + 1] m))) :=
  ⟨pending_eiCheck (h.pending_fetching (Nat.le_refl n)) h.ei, not_takenInTime m n s, h.entered_iff⟩

/-! ### a request that is lost -/

instance (st : T8253Stat) : Decidable st.Expires := inferInstanceAs (Decidable (_ ∧ _))

instance (m : Machine) : Decidable (Strikes m) :=
  decidable_of_iff (m.r.iff1 ≠ 0 ∧ cval ≤ m.ts700.cpuTstates - m.ts700.pitTstates ∧
    (m.stat8253 1).Expires ∧ (m.stat8253 2).Expires)
    ⟨fun h => ⟨h.1, h.2.1, h.2.2.1, h.2.2.2⟩, fun h => ⟨h.1, h.2.due, h.2.channel1, h.2.channel2⟩⟩

/-- RAM with a `NOP`, an `EI` and more `NOP`s, interrupts disabled in mode 1,
three ticks of the 8253 due, and a pulse at the first of them; the next one
comes `base` ticks later. -/
def lostMachine (base : UInt16) : Machine :=
  { ramMachine 0x00 with
    mem := fun a => if a = ramStart + 1 then 0xFB else 0x00
    r := { Z80Regs.zero with im := 1, sp := Pair.ofD 0xF000 }
    ts700 := { T700Ts.zero with cpuTstates := 3 * cval }
    stat8253 := fun no =>
      if no = 1 then
        { T8253Stat.zero with running := 1, mode := 2, counter := 1, counterBase := base }
      else { T8253Stat.zero with running := 1 } }

/-- Where the `EI` of the second pass checks. -/
def lostCheck (base : UInt16) : Machine :=
  (eiCheck (pass (lostMachine base))).getD (lostMachine base)

/-- The two passes of the lost request. -/
theorem heldBack_lostMachine {base : UInt16}
    (h : Pending (fetching (lostMachine base)) ∧ (pass (lostMachine base)).r.iff1 = 0 ∧
      (eiCheck (lostMachine base)).isNone ∧ (eiCheck (pass (lostMachine base))).isSome ∧
      (lostCheck base).r.im = 1) : HeldBack (lostMachine base) 1 (lostCheck base) := by
  obtain ⟨hpending, hdisabled, hnoEi, hei, hmode⟩ := h
  refine ⟨hpending, fun k hk => ?_, fun k hk => ?_, ?_, hmode⟩
  · obtain rfl | rfl : k = 0 ∨ k = 1 := by omega
    · rfl
    · exact hdisabled
  · obtain rfl : k = 0 := by omega
    exact Option.isNone_iff_eq_none.mp hnoEi
  · obtain ⟨s, hs⟩ := Option.isSome_iff_exists.mp hei
    change eiCheck (pass (lostMachine base)) = some (lostCheck base)
    rw [lostCheck, hs, Option.getD_some]

/-- A second pulse, two ticks after the first, makes the CPU enter the handler;
without it the request would wait. -/
theorem heldBack_pulse : Pending (lostCheck 2) ∧ ¬ TakenInTime (lostMachine 2) 1 (lostCheck 2) ∧
    EnteredInTime (lostMachine 2) 1 (lostCheck 2) := by
  have hheld : HeldBack (lostMachine 2) 1 (lostCheck 2) :=
    heldBack_lostMachine ⟨by decide +kernel, by decide +kernel, by decide +kernel,
      by decide +kernel, by decide +kernel⟩
  obtain ⟨hpending, htaken, hentered⟩ := heldBack_iff hheld
  exact ⟨hpending, htaken, hentered.mpr (.inl (by decide +kernel))⟩

/-- With the second pulse 65535 ticks away, the request waits for it. -/
theorem not_heldBack : ¬ ∀ (m s : Machine) (n : Nat), HeldBack m n s → TakenInTime m n s := by
  intro h
  have hheld : HeldBack (lostMachine 0xFFFF) 1 (lostCheck 0xFFFF) :=
    heldBack_lostMachine ⟨by decide +kernel, by decide +kernel, by decide +kernel,
      by decide +kernel, by decide +kernel⟩
  have hfirst : ¬ Strikes (lostCheck 0xFFFF) := by decide +kernel
  have hsecond : ¬ Strikes (startCheck (pass^[2] (lostMachine 0xFFFF))) := by decide +kernel
  obtain ⟨htaken, -⟩ | ⟨htaken, -⟩ := h _ _ 1 hheld
  · exact hfirst htaken.strikes
  · exact hsecond htaken.strikes

end M5Z80
