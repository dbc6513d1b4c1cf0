import M5Z80.Lib.Counter
import M5Z80.Lib.Run
import M5Z80.System

/-!
# M5Z80.Timing

The four T-state counters, which wrap after some ten minutes, against
counters that do not.  The code only looks at how far `cpu_tstates` is
ahead of the other three, so that the wrap cannot be seen as long as it is
ahead by less than `2^31`.
-/

namespace M5Z80

/-! ## the counters -/

/-- The four counters, and the two bits that are brought up to them. -/
structure Timing (κ : Type) where
  cpu : κ
  tempo : κ
  vsync : κ
  pit : κ
  tempoStrobe : UInt8
  retrace : UInt8
deriving DecidableEq

namespace Timing

variable {κ : Type} [Counter κ]

/-- `M_CSTATE`. -/
def charge (n : Nat) (t : Timing κ) : Timing κ :=
  let t := { t with cpu := Counter.advance t.cpu n }
  let t :=
    if Counter.elapsed tempoTstatesPeriod.toNatClampNeg t.cpu t.tempo then
      { t with
        tempo := Counter.advance t.tempo tempoTstatesPeriod.toNatClampNeg
        tempoStrobe := t.tempoStrobe ^^^ 1 }
    else t
  if Counter.elapsed (59666 - vblankTstates).toNatClampNeg t.cpu t.vsync then
    { t with retrace := 0 }
  else t

/-- A charge, field by field. -/
theorem charge_eq (n : Nat) (t : Timing κ) : t.charge n =
    let cpu := Counter.advance t.cpu n
    let toggles := Counter.elapsed tempoTstatesPeriod.toNatClampNeg cpu t.tempo
    let ends := Counter.elapsed (59666 - vblankTstates).toNatClampNeg cpu t.vsync
    { cpu := cpu
      tempo := if toggles then Counter.advance t.tempo tempoTstatesPeriod.toNatClampNeg else t.tempo
      vsync := t.vsync
      pit := t.pit
      tempoStrobe := if toggles then t.tempoStrobe ^^^ 1 else t.tempoStrobe
      retrace := if ends then 0 else t.retrace } := by
  simp only [charge]
  split <;> split <;> simp_all

/-- Is a tick of the 8253 due? -/
def due (t : Timing κ) : Bool := Counter.elapsed cval.toNatClampNeg t.cpu t.pit

/-- The tick in `Z80_Interrupt`. -/
def check (t : Timing κ) : Timing κ :=
  if t.due then { t with pit := Counter.advance t.pit cval.toNatClampNeg } else t

end Timing

/-- The counters of the machine. -/
def Machine.timing (m : Machine) : Timing Int32 :=
  ⟨m.ts700.cpuTstates, m.ts700.tempoTstates, m.ts700.vsyncTstates, m.ts700.pitTstates,
    m.hw700.tempoStrobe, m.hw700.retrace⟩

/-- A charge moves the counters as the model of the clock does. -/
theorem timing_mCstate (n : Nat) (m : Machine) : (mCstate n m).timing = m.timing.charge n := by
  have htempo : Int32.ofNat tempoTstatesPeriod.toNatClampNeg = tempoTstatesPeriod :=
    Int32.ofNat_toNatClampNeg _ (by decide)
  have hvblank : Int32.ofNat (59666 - vblankTstates).toNatClampNeg = 59666 - vblankTstates :=
    Int32.ofNat_toNatClampNeg _ (by decide)
  simp only [mCstate, Timing.charge, Counter.elapsed, Counter.advance, htempo, hvblank,
    Machine.timing, decide_eq_true_eq]
  split <;> split <;> simp_all

/-! ## what leaves them alone -/

theorem timing_offMmio (m : Machine) : m.offMmio.timing = m.timing := rfl

/-- Reads of registers do not move them. -/
theorem timing_mmioIn (addr : UInt32) (m : Machine) : (mmioIn addr m).2.timing = m.timing := by
  rw [← timing_offMmio, offMmio_mmioIn, timing_offMmio]

/-- Writes of registers do not, either. -/
theorem timing_mmioOut (addr val : UInt32) (m : Machine) :
    (mmioOut addr val m).timing = m.timing := by
  rw [← timing_offMmio, offMmio_mmioOut, timing_offMmio]

theorem timing_pitCount (m : Machine) : (pitCount m).2.timing = m.timing := by
  rw [← timing_offMmio, offMmio_pitCount, timing_offMmio]

theorem timing_store (m : Machine) (p : Ptr) (ofs : Nat) (v : UInt8) :
    (m.store p ofs v).timing = m.timing := by
  unfold Machine.store
  split <;> rfl

/-- Nor do the bank commands. -/
theorem timing_z80Out (port value : UInt16) (m : Machine) :
    (z80Out port value m).timing = m.timing := by
  calc (z80Out port value m).timing = (z80Out port value m).unbanked.timing := rfl
    _ = m.timing := by rw [unbanked_z80Out]; rfl

/-! ## calls -/

/-- What the code does to the counters: a charge, the check of
`Z80_Interrupt`, `vblnk_start`, and the screen that sets the retrace bit. -/
inductive ClockCall
  | charge (n : Nat)
  | check
  | vblank
  | retrace

/-- What can be seen of a call: does it call `pit_count`, and what are the
tempo bit and the retrace bit afterwards? -/
structure ClockOutput where
  pitCount : Bool
  tempoStrobe : UInt8
  retrace : UInt8
deriving DecidableEq

namespace ClockCall

/-- The machine after a call. -/
def apply : ClockCall → Machine → Machine
  | .charge n, m => mCstate n m
  | .check, m => checkPit m
  | .vblank, m => vblnkStart m
  | .retrace, m => { m with hw700.retrace := 1 }

/-- What the machine shows of a call. -/
def output (m : Machine) (o : ClockCall) : ClockOutput :=
  ⟨match o with
    | .check => Cpu.tickDue m
    | _ => false, (o.apply m).hw700.tempoStrobe, (o.apply m).hw700.retrace⟩

variable {κ : Type} [Counter κ]

/-- Counters of any kind after a call. -/
def run : ClockCall → Timing κ → Timing κ
  | .charge n, t => t.charge n
  | .check, t => t.check
  | .vblank, t => { t with vsync := t.cpu }
  | .retrace, t => { t with retrace := 1 }

/-- What counters of any kind show of a call. -/
def shows (t : Timing κ) (o : ClockCall) : ClockOutput :=
  ⟨match o with
    | .check => t.due
    | _ => false, (o.run t).tempoStrobe, (o.run t).retrace⟩

/-- A call does to the counters of the machine what it does to counters. -/
theorem timing_apply (o : ClockCall) (m : Machine) : (o.apply m).timing = o.run m.timing := by
  cases o with
  | charge n => exact timing_mCstate n m
  | check =>
      have hdue : m.timing.due = Cpu.tickDue m := rfl
      have htick : (Cpu.countTick m).timing =
          { m.timing with pit := Counter.advance m.timing.pit cval.toNatClampNeg } := rfl
      rw [apply, run, checkPit, Timing.check, hdue]
      split
      · rw [timing_pitCount, htick]
      · rfl
  | vblank => rfl
  | retrace => rfl

/-- A call shows what its counters show. -/
theorem output_eq (o : ClockCall) (m : Machine) : o.output m = o.shows m.timing := by
  have heq := timing_apply o m
  have hstrobe : (o.apply m).hw700.tempoStrobe = (o.run m.timing).tempoStrobe :=
    congrArg Timing.tempoStrobe heq
  have hretrace : (o.apply m).hw700.retrace = (o.run m.timing).retrace :=
    congrArg Timing.retrace heq
  unfold output shows
  rw [hstrobe, hretrace]
  cases o <;> rfl

end ClockCall

/-- The machine makes the calls `os` on its way from `m` to `m'`, which show
`outs`; what it does in between leaves the counters alone. -/
inductive ClockRun : Machine → List ClockCall → List ClockOutput → Machine → Prop
  | done (m : Machine) : ClockRun m [] [] m
  | other {m m₁ m' : Machine} {os : List ClockCall} {outs : List ClockOutput}
      (h : m₁.timing = m.timing) (hrun : ClockRun m₁ os outs m') : ClockRun m os outs m'
  | call {m m' : Machine} (o : ClockCall) {os : List ClockCall} {outs : List ClockOutput}
      (hrun : ClockRun (o.apply m) os outs m') : ClockRun m (o :: os) (o.output m :: outs) m'

namespace ClockRun

variable {m m₁ m' : Machine} {os os' : List ClockCall} {outs outs' : List ClockOutput}

/-- What the machine shows is what its counters show. -/
theorem outs_eq (h : ClockRun m os outs m') :
    outs = Run.trace ClockCall.run (fun t o => o.shows t) os m.timing := by
  induction h with
  | done m => rfl
  | other heq _ ih => rw [ih, heq]
  | call o _ ih => rw [ih, Run.trace, ClockCall.output_eq, ClockCall.timing_apply]

/-- One run of the clock behind another. -/
theorem append (h : ClockRun m os outs m₁) (h' : ClockRun m₁ os' outs' m') :
    ClockRun m (os ++ os') (outs ++ outs') m' := by
  induction h with
  | done m => exact h'
  | other heq _ ih => exact .other heq (ih h')
  | call o _ ih => exact .call o (ih h')

theorem of_timing (h : m'.timing = m.timing) : ClockRun m [] [] m' := .other h (.done m')

/-- A single call. -/
theorem one (o : ClockCall) (m : Machine) : ClockRun m [o] [o.output m] (o.apply m) :=
  .call o (.done _)

end ClockRun

/-- The machine gets from `m` to `m'` by calls that meet `ok`. -/
def Clocked (ok : ClockCall → Prop) (m m' : Machine) : Prop :=
  ∃ os outs, (∀ o ∈ os, ok o) ∧ ClockRun m os outs m'

section

variable {ok : ClockCall → Prop} {m m' : Machine}

/-- What leaves the counters alone is no call. -/
theorem Clocked.of_timing (h : m'.timing = m.timing) : Clocked ok m m' :=
  ⟨[], [], nofun, .of_timing h⟩

/-- A call that is allowed. -/
theorem Clocked.of_call {o : ClockCall} (ho : ok o) (m : Machine) : Clocked ok m (o.apply m) := by
  refine ⟨[o], _, ?_, .one o m⟩
  intro o' ho'
  rwa [List.mem_singleton.mp ho']

/-- One part of a program behind another. -/
theorem Clocked.trans {m₁ : Machine} (h : Clocked ok m m₁) (h' : Clocked ok m₁ m') :
    Clocked ok m m' := by
  obtain ⟨os, outs, hok, hrun⟩ := h
  obtain ⟨os', outs', hok', hrun'⟩ := h'
  refine ⟨os ++ os', outs ++ outs', ?_, hrun.append hrun'⟩
  intro o ho
  obtain ho | ho := List.mem_append.mp ho
  · exact hok o ho
  · exact hok' o ho

/-- Instructions charge, and leave the counters alone otherwise. -/
theorem keepsFlag_clocked (hcharge : ∀ n, ok (.charge n)) : Cpu.KeepsFlag (Clocked ok) where
  refl _ := .of_timing rfl
  trans := .trans
  regs _ _ := .of_timing rfl
  budget _ _ := .of_timing rfl
  use _ _ _ := .of_timing rfl
  store m p ofs v := .of_timing (timing_store m p ofs v)
  mCstate n m := .of_call (hcharge n) m
  mmioIn addr m := .of_timing (timing_mmioIn addr m)
  mmioOut addr val m := .of_timing (timing_mmioOut addr val m)
  z80Out port value m := .of_timing (timing_z80Out port value m)
  intflag _ _ := .of_timing rfl

/-- A program that charges and checks is a run of the clock. -/
theorem keepsAll_clocked (hcharge : ∀ n, ok (.charge n)) (hcheck : ok .check) :
    Cpu.KeepsAll (Clocked ok) where
  toKeepsFlag := keepsFlag_clocked hcharge
  tick m hdue := by
    have heq : (ClockCall.check).apply m = (pitCount (Cpu.countTick m)).2 := if_pos hdue
    rw [← heq]
    exact .of_call hcheck m

end

/-- `Z80_Interrupt` makes one check, and then the charges of the handler. -/
theorem clockRun_z80Interrupt (m : Machine) : ∃ os outs, (∀ o ∈ os, ∃ n, o = .charge n) ∧
    ClockRun m (.check :: os) (ClockCall.output m .check :: outs) (Cpu.z80Interrupt m).2 := by
  have hflag : Cpu.KeepsFlag (Clocked fun o => ∃ n, o = .charge n) :=
    keepsFlag_clocked fun n => ⟨n, rfl⟩
  obtain ⟨os, outs, hok, hrun⟩ := hflag.checked m
  exact ⟨os, outs, hok, .call .check hrun⟩

/-- A pass of the CPU's loop makes charges and checks, and no other calls. -/
theorem clocked_pass (m : Machine) :
    Clocked (fun o => o = .check ∨ ∃ n, o = .charge n) m (pass m) :=
  (keepsAll_clocked (fun n => .inr ⟨n, rfl⟩) (.inl rfl)).pass m

/-- The screen sets the retrace bit and calls `vblnk_start`. -/
theorem clockRun_scrnDraw (m : Machine) : ∃ outs, ClockRun m [.retrace, .vblank] outs (scrnDraw m) :=
  ⟨_, .call .retrace (.call .vblank (.done _))⟩

/-! ## counters that do not wrap -/

namespace Timing

/-- Counters cut off to 32 bits. -/
def wrapped (t : Timing Int) : Timing Int32 :=
  ⟨Int32.ofInt t.cpu, Int32.ofInt t.tempo, Int32.ofInt t.vsync, Int32.ofInt t.pit, t.tempoStrobe,
    t.retrace⟩

/-- The CPU's counter is not behind the others. -/
structure Ahead (t : Timing Int) : Prop where
  tempo : 0 ≤ t.cpu - t.tempo
  vsync : 0 ≤ t.cpu - t.vsync
  pit : 0 ≤ t.cpu - t.pit

/-- The backlogs of the CPU's counter over the others are below `2^31`. -/
structure Small (t : Timing Int) : Prop where
  tempo : t.cpu - t.tempo < 2 ^ 31
  vsync : t.cpu - t.vsync < 2 ^ 31
  pit : t.cpu - t.pit < 2 ^ 31

/-- The counters when the clock is `n` T-states on, and nothing has been
brought up to it. -/
def later (n : Nat) (t : Timing Int) : Timing Int := { t with cpu := t.cpu + n }

variable {t : Timing Int}

/-- Time does not overtake the other counters. -/
theorem Ahead.later (h : t.Ahead) (n : Nat) : (t.later n).Ahead := by
  obtain ⟨htempo, hvsync, hpit⟩ := h
  refine ⟨?_, ?_, ?_⟩ <;> dsimp only [Timing.later] <;> omega

/-- Cut off or not, a charge does the same while the backlogs are small. -/
theorem wrapped_charge {n : Nat} (h : t.Ahead) (hsmall : (t.later n).Small) :
    (t.charge n).wrapped = t.wrapped.charge n := by
  have hlater := h.later n
  have hcpu : Counter.advance t.wrapped.cpu n = Int32.ofInt (t.later n).cpu :=
    (Counter.ofInt_advance t.cpu n).symm
  have htoggles : Counter.elapsed tempoTstatesPeriod.toNatClampNeg (Int32.ofInt (t.later n).cpu)
      t.wrapped.tempo = Counter.elapsed tempoTstatesPeriod.toNatClampNeg (t.later n).cpu t.tempo :=
    Counter.elapsed_ofInt (by decide) hlater.tempo hsmall.tempo
  have hends : Counter.elapsed (59666 - vblankTstates).toNatClampNeg (Int32.ofInt (t.later n).cpu)
      t.wrapped.vsync = Counter.elapsed (59666 - vblankTstates).toNatClampNeg (t.later n).cpu t.vsync :=
    Counter.elapsed_ofInt (by decide) hlater.vsync hsmall.vsync
  have htempo : Int32.ofInt (Counter.advance t.tempo tempoTstatesPeriod.toNatClampNeg) =
      Counter.advance t.wrapped.tempo tempoTstatesPeriod.toNatClampNeg := Counter.ofInt_advance _ _
  have hexact : Counter.advance t.cpu n = (t.later n).cpu := rfl
  rw [charge_eq, charge_eq]
  dsimp only
  rw [hcpu, htoggles, hends, ← htempo, hexact]
  simp only [wrapped, apply_ite Int32.ofInt]

/-- A charge toggles the tempo bit at most once, and leaves the CPU's
counter ahead. -/
theorem Ahead.charge {n : Nat} (h : t.Ahead) : (t.charge n).Ahead := by
  obtain ⟨htempo, hvsync, hpit⟩ := h.later n
  rw [charge_eq]
  refine ⟨?_, hvsync, hpit⟩
  dsimp only
  split
  · rename_i htoggles
    have hperiod : (tempoTstatesPeriod.toNatClampNeg : Int) ≤ (t.later n).cpu - t.tempo :=
      of_decide_eq_true htoggles
    change 0 ≤ (t.later n).cpu - (t.tempo + tempoTstatesPeriod.toNatClampNeg)
    omega
  · exact htempo

/-- Cut off or not, the same ticks are due. -/
theorem wrapped_due (h : t.Ahead) (hsmall : t.Small) : t.wrapped.due = t.due :=
  Counter.elapsed_ofInt (by decide) h.pit hsmall.pit

/-- Cut off or not, a check does the same. -/
theorem wrapped_check (h : t.Ahead) (hsmall : t.Small) :
    t.check.wrapped = t.wrapped.check := by
  rw [check, check, wrapped_due h hsmall]
  split
  · have hpit := Counter.ofInt_advance t.pit cval.toNatClampNeg
    simp only [wrapped, hpit]
  · rfl

/-- A check takes a tick off only if it is due. -/
theorem Ahead.check (h : t.Ahead) : t.check.Ahead := by
  rw [Timing.check]
  split
  · rename_i hdue
    have hticks : (cval.toNatClampNeg : Int) ≤ t.cpu - t.pit := of_decide_eq_true hdue
    refine ⟨h.tempo, h.vsync, ?_⟩
    change 0 ≤ t.cpu - (t.pit + cval.toNatClampNeg)
    omega
  · exact h

end Timing

/-- The backlogs are below `2^31` where the call looks at them. -/
def ClockCall.Small (t : Timing Int) : ClockCall → Prop
  | .charge n => (t.later n).Small
  | _ => t.Small

/-- `t` are the counters of the machine before they were cut off to 32
bits. -/
structure Exact (m : Machine) (t : Timing Int) : Prop where
  wrapped : t.wrapped = m.timing
  ahead : t.Ahead

/-- Cut off or not, counters with small backlogs do the same. -/
theorem wrapped_run (t : Timing Int) (o : ClockCall) (h : t.Ahead) (hsmall : o.Small t) :
    (o.run t).wrapped = o.run t.wrapped ∧ (o.run t).Ahead := by
  cases o with
  | charge n => exact ⟨t.wrapped_charge h hsmall, h.charge⟩
  | check => exact ⟨t.wrapped_check h hsmall, h.check⟩
  | vblank =>
      refine ⟨rfl, h.tempo, ?_, h.pit⟩
      change 0 ≤ t.cpu - t.cpu
      omega
  | retrace => exact ⟨rfl, h.tempo, h.vsync, h.pit⟩

/-- Cut off or not, a call shows the same. -/
theorem shows_wrapped (t : Timing Int) (o : ClockCall) (h : t.Ahead) (hsmall : o.Small t) :
    o.shows t.wrapped = o.shows t := by
  have hrun := (wrapped_run t o h hsmall).1
  have hstrobe := congrArg Timing.tempoStrobe hrun
  have hretrace := congrArg Timing.retrace hrun
  unfold ClockCall.shows
  rw [← hstrobe, ← hretrace]
  cases o with
  | check =>
      dsimp only
      rw [t.wrapped_due h hsmall]
      rfl
  | _ => rfl

/-- The wrap cannot be seen: in a run whose backlogs stay below `2^31`, the
machine shows what counters that do not wrap show. -/
theorem wrap_invisible {m m' : Machine} {os : List ClockCall} {outs : List ClockOutput}
    {t : Timing Int} (hrun : ClockRun m os outs m') (h : Exact m t)
    (hsmall : Run.Along ClockCall.run ClockCall.Small os t) :
    outs = Run.trace ClockCall.run (fun t o => o.shows t) os t := by
  rw [hrun.outs_eq]
  refine Run.trace_eq (R := fun s t => t.wrapped = s ∧ t.Ahead) ?_ ?_ hsmall ⟨h.wrapped, h.ahead⟩
  · rintro s t o ⟨rfl, hahead⟩ hok
    exact wrapped_run t o hahead hok
  · rintro s t o ⟨rfl, hahead⟩ hok
    exact shows_wrapped t o hahead hok

/-- Counters after a reset. -/
def Timing.reset : Timing Int := ⟨0, 0, 0, 0, 1, 1⟩

/-- A reset clears the counters. -/
theorem exact_mzReset (rand : UInt32) (m : Machine) : Exact (mzReset rand m) Timing.reset := by
  refine ⟨?_, ⟨by decide, by decide, by decide⟩⟩
  have htiming : (mzReset rand m).timing =
      { Timing.reset.wrapped with
        cpu := (mzReset rand m).ts700.cpuTstates
        tempo := (mzReset rand m).ts700.tempoTstates
        vsync := (mzReset rand m).ts700.vsyncTstates
        pit := (mzReset rand m).ts700.pitTstates } := rfl
  rw [htiming, ts700_mzReset]
  rfl

/-- A machine whose counters are just below `2^31`. -/
def lateMachine : Machine :=
  let m := mzReset 0 Machine.cold
  { m with ts700 := { m.ts700 with
      cpuTstates := 0x7FFFFFCE
      tempoTstates := 0x7FFFFFCE
      vsyncTstates := 0x7FFFFFCE
      pitTstates := 0x7FFFFFCE } }

/-- Its counters. -/
def Timing.late : Timing Int := ⟨0x7FFFFFCE, 0x7FFFFFCE, 0x7FFFFFCE, 0x7FFFFFCE, 1, 1⟩

/-- Below `2^31` nothing is cut off yet. -/
theorem exact_lateMachine : Exact lateMachine Timing.late where
  wrapped := rfl
  ahead := ⟨by decide, by decide, by decide⟩

/-- The counter of the processor wraps in the first charge.  Behind it a tick is due, and
in the second one the tempo bit toggles and the retrace ends. -/
theorem wrap_invisible_late :
    [ClockCall.output lateMachine (.charge 114),
      ClockCall.output (mCstate 114 lateMachine) .check,
      ClockCall.output (ClockCall.check.apply (mCstate 114 lateMachine)) (.charge 60000)] =
      Run.trace ClockCall.run (fun t o => o.shows t) [.charge 114, .check, .charge 60000]
        Timing.late :=
  wrap_invisible (.call (.charge 114) (.call .check (.call (.charge 60000) (.done _))))
    exact_lateMachine
    ⟨⟨by decide, by decide, by decide⟩, ⟨by decide, by decide, by decide⟩,
      ⟨by decide, by decide, by decide⟩, trivial⟩

end M5Z80
