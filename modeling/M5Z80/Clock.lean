import M5Z80.Machine

/-!
# M5Z80.Clock

The T-state clock: `M_CSTATE` (`Z80Codes.h`), which every instruction and
every wait state goes through, `vblnk_start` (`MZhw.cpp`) and
`setup_cpuspeed` (`Mzmain.cpp`), which sets the budget of a frame.
-/

namespace M5Z80

/-! ## charging T-states -/

/-- `M_CSTATE`: take `codest` T-states off the budget and put them on the
clock, then bring the tempo bit and the retrace bit up to the clock. -/
def mCstate (codest : Nat) (m : Machine) : Machine :=
  let n := Int32.ofNat codest
  let m := { m with z80ICount := m.z80ICount - n, ts700.cpuTstates := m.ts700.cpuTstates + n }
  let m :=
    if tempoTstatesPeriod ≤ m.ts700.cpuTstates - m.ts700.tempoTstates then
      { m with
        ts700.tempoTstates := m.ts700.tempoTstates + tempoTstatesPeriod
        hw700.tempoStrobe := m.hw700.tempoStrobe ^^^ 1 }
    else m
  if 59666 - vblankTstates ≤ m.ts700.cpuTstates - m.ts700.vsyncTstates then
    { m with hw700.retrace := 0 }
  else m

/-- `vblnk_start`: the vertical blanking period starts now. -/
def vblnkStart (m : Machine) : Machine :=
  { m with ts700.vsyncTstates := m.ts700.cpuTstates }

/-! ## the speed of the CPU -/

/-- `CpuSpeed`, in percent. -/
def cpuSpeed : Int32 := 100

/-- `IFreq`: frames a second. -/
def iFreq : Int32 := 60

/-- The T-states of a frame at `mul` times the normal speed. -/
def period (mul : Int32) : Int32 :=
  let iperiod := cpuSpeedHz * cpuSpeed * mul / (100 * iFreq)
  (iperiod * 256) >>> (8 : Int32)

/-- `setup_cpuspeed`: set the budget of a frame, and refill the budget of
the frame that is running. -/
def setupCpuspeed (mul : Int32) (m : Machine) : Machine :=
  { m with
    z80IPeriod := period mul
    z80ICount := period mul
    trace.speeds := m.trace.speeds + 1 }

example : period 1 = 59666 := by decide
example : period 5 = 298333 := by decide

/-! ## what charging changes -/

/-- Everything a charge changes: the budget, the clock, and the two bits
derived from the clock.  The retrace bit can only go to `0`. -/
theorem mCstate_eq (n : Nat) (m : Machine) : ∃ tempo strobe retrace,
    mCstate n m = { m with
      z80ICount := m.z80ICount - Int32.ofNat n
      ts700.cpuTstates := m.ts700.cpuTstates + Int32.ofNat n
      ts700.tempoTstates := tempo
      hw700.tempoStrobe := strobe
      hw700.retrace := retrace } ∧ (retrace = m.hw700.retrace ∨ retrace = 0) := by
  simp only [mCstate]
  split <;> split
  · exact ⟨_, _, _, rfl, .inr rfl⟩
  · exact ⟨_, _, _, rfl, .inl rfl⟩
  · exact ⟨m.ts700.tempoTstates, m.hw700.tempoStrobe, _, rfl, .inr rfl⟩
  · exact ⟨m.ts700.tempoTstates, m.hw700.tempoStrobe, _, rfl, .inl rfl⟩

/-- The budget goes down by the charge. -/
@[simp] theorem z80ICount_mCstate (n : Nat) (m : Machine) :
    (mCstate n m).z80ICount = m.z80ICount - Int32.ofNat n := by
  obtain ⟨_, _, _, h, -⟩ := mCstate_eq n m; rw [h]

/-- The clock goes up by the charge. -/
@[simp] theorem cpuTstates_mCstate (n : Nat) (m : Machine) :
    (mCstate n m).ts700.cpuTstates = m.ts700.cpuTstates + Int32.ofNat n := by
  obtain ⟨_, _, _, h, -⟩ := mCstate_eq n m; rw [h]

@[simp] theorem trace_mCstate (n : Nat) (m : Machine) : (mCstate n m).trace = m.trace := by
  obtain ⟨_, _, _, h, -⟩ := mCstate_eq n m; rw [h]

@[simp] theorem r_mCstate (n : Nat) (m : Machine) : (mCstate n m).r = m.r := by
  obtain ⟨_, _, _, h, -⟩ := mCstate_eq n m; rw [h]

end M5Z80
