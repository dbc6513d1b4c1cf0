import M5Z80.Frame
import M5Z80.Lib.Run

/-!
# M5Z80.Speed

The CPU runs five times as fast while the tape deck runs.  The speed is in
`Z80_IPeriod` and the state of the deck in `ts700.cmt_tstates`, and every
function that starts or stops the deck sets both, except `mz_reset`, which
stops the deck and leaves the speed.
-/

namespace M5Z80

/-- The speed and the state of the deck. -/
def Machine.speed (m : Machine) : Int32 × Int32 := (m.z80IPeriod, m.ts700.cmtTstates)

/-- Five times the speed exactly while the deck runs, the normal speed
exactly while it does not. -/
def SpeedFollows (m : Machine) : Prop :=
  (m.z80IPeriod = period 5 ↔ m.ts700.cmtTstates = 1) ∧
    (m.z80IPeriod = period 1 ↔ m.ts700.cmtTstates = 0)

/-- The two settings the deck and the CPU take together. -/
def InStep (m : Machine) : Prop := m.speed = (period 5, 1) ∨ m.speed = (period 1, 0)

/-- In step, the speed is that of the deck. -/
theorem InStep.speedFollows {m : Machine} (h : InStep m) : SpeedFollows m := by
  simp only [InStep, Machine.speed, Prod.mk.injEq] at h
  obtain ⟨hp, hc⟩ | ⟨hp, hc⟩ := h <;> simp only [SpeedFollows, hp, hc] <;> decide

/-- Only the deck and the speed count. -/
theorem InStep.congr {m m' : Machine} (h : InStep m) (hs : m'.speed = m.speed) : InStep m' := by
  rwa [InStep, hs]

/-! ## the functions that move the deck -/

/-- Time does not change the speed. -/
@[simp] theorem speed_mCstate (n : Nat) (m : Machine) : (mCstate n m).speed = m.speed := by
  obtain ⟨_, _, _, h, -⟩ := mCstate_eq n m
  rw [h]
  rfl

@[simp] theorem speed_setMotor (v : UInt8) (m : Machine) : (setMotor v m).speed = m.speed := rfl

@[simp] theorem speed_setLatches (v w : UInt8) (m : Machine) :
    (setLatches v w m).speed = m.speed := rfl

@[simp] theorem speed_setLed (v : UInt8) (m : Machine) : (setLed v m).speed = m.speed := by
  simp only [setLed]
  split <;> rfl

/-- The motor line starts a deck that can play, stops one that runs, and
leaves the speed alone otherwise. -/
theorem speed_motorEdge (m : Machine) :
    (motorEdge m).speed = m.speed ∨ InStep (motorEdge m) := by
  simp only [motorEdge]
  split
  · split
    · exact .inr (.inl rfl)
    · exact .inl rfl
  · exact .inr (.inr rfl)

/-- A poll stops the deck at the end of the tape. -/
theorem speed_cmtRead (m : Machine) :
    (cmtRead m).2.speed = m.speed ∨ InStep (cmtRead m).2 := by
  simp only [cmtRead]
  split
  · exact .inl rfl
  split
  · exact .inr (.inr rfl)
  · left
    simp only [seekTword, showPercent]
    split <;> split <;> rfl

/-- A tape that is started sets both. -/
theorem inStep_startTape (file : String) (m : Machine) : InStep (startTape file m) := .inl rfl

/-- A reset stops the deck and leaves the speed. -/
theorem speed_mzReset (rand : UInt32) (m : Machine) :
    (mzReset rand m).speed = (m.z80IPeriod, 0) := by
  rw [Machine.speed, z80IPeriod_mzReset, ts700_mzReset]
  rfl

/-! ## what moves the deck -/

/-- A motor write, a selection of a tape from the menu, a poll of the tape
signal, a reset from the menu, and time that passes. -/
inductive DeckStep
  | portC (val : UInt32)
  | portCBit (val : UInt32)
  | select (file : String)
  | poll
  | reset (rand : UInt32)
  | clock (n : Nat)

namespace DeckStep

/-- The machine after a step. -/
def apply : DeckStep → Machine → Machine
  | .portC val, m => mmioOut 0xE002 val m
  | .portCBit val, m => mmioOut 0xE003 val m
  | .select file, m => startTape file m
  | .poll, m => (cmtRead m).2
  | .reset rand, m => mzReset rand m
  | .clock n, m => mCstate n m

/-- A reset has to find the deck stopped. -/
def DeckStopped (m : Machine) : DeckStep → Prop
  | .reset _ => m.ts700.cmtTstates = 0
  | _ => True

/-- The motor line sets both or none. -/
theorem inStep_motorEdge (m : Machine) (h : InStep m) : InStep (motorEdge m) := by
  obtain h' | h' := speed_motorEdge m
  · exact h.congr h'
  · exact h'

/-- A write to port C is a motor edge or nothing. -/
theorem inStep_writePortC (val : UInt32) (m : Machine) (h : InStep m) :
    InStep (writePortC val m) := by
  simp only [writePortC, InStep, speed_setMotor]
  split
  · refine inStep_motorEdge _ (h.congr ?_)
    rw [speed_setLed, speed_setLatches]
  · refine h.congr ?_
    rw [speed_setLed, speed_setLatches]

/-- A bit command is a motor line or something else. -/
theorem inStep_writePortCBit (val : UInt32) (m : Machine) (h : InStep m) :
    InStep (writePortCBit val m) := by
  simp only [writePortCBit]
  repeat' split
  all_goals first
    | exact h
    | exact h.congr (speed_setLed _ m)
    | exact h.congr (speed_setLatches _ _ m)
    | exact h.congr (speed_setMotor _ m)
    | exact (inStep_motorEdge m h).congr (speed_setMotor _ _)

/-- A step keeps speed and deck together, unless it is a reset that finds
the deck running. -/
theorem inStep_apply (m : Machine) (o : DeckStep) (h : InStep m) (ho : DeckStopped m o) :
    InStep (o.apply m) := by
  cases o with
  | portC val => exact inStep_writePortC val m h
  | portCBit val => exact inStep_writePortCBit val m h
  | select file => exact inStep_startTape file m
  | poll =>
      obtain h' | h' := speed_cmtRead m
      · exact h.congr h'
      · exact h'
  | reset rand =>
      simp only [InStep, Machine.speed, Prod.mk.injEq] at h
      obtain ⟨hp, hc⟩ | ⟨hp, hc⟩ := h
      · exact absurd (hc.symm.trans ho) (by decide)
      · right
        simp only [apply, speed_mzReset, hp]
  | clock n => exact h.congr (speed_mCstate n m)

/-- A reset that finds the deck running leaves a stopped deck and a fast
CPU. -/
theorem speedFollows_apply_iff (m : Machine) (o : DeckStep) (h : InStep m) :
    SpeedFollows (o.apply m) ↔ DeckStopped m o := by
  refine ⟨fun hs => ?_, fun ho => (inStep_apply m o h ho).speedFollows⟩
  cases o with
  | reset rand =>
      simp only [InStep, Machine.speed, Prod.mk.injEq] at h
      obtain ⟨hp, hc⟩ | ⟨hp, hc⟩ := h
      · have h0 : (mzReset rand m).z80IPeriod = period 5 := by rw [z80IPeriod_mzReset, hp]
        have h1 : (mzReset rand m).ts700.cmtTstates = 1 := hs.1.mp h0
        rw [ts700_mzReset] at h1
        exact absurd h1 (by decide)
      · exact hc
  | _ => trivial

end DeckStep

/-! ## every run -/

/-- The machine `mainloop` starts from. -/
def mainloopStart (rand : UInt32) (m : Machine) : Machine := setupCpuspeed 1 (mzReset rand m)

/-- The CPU's speed follows the deck in every state of a run exactly when
every reset of the run finds the deck stopped. -/
theorem speedFollows_run_iff (rand : UInt32) (m : Machine) (ops : List DeckStep) :
    (∀ pre, pre <+: ops → SpeedFollows (Run.exec DeckStep.apply pre (mainloopStart rand m))) ↔
      Run.Along DeckStep.apply DeckStep.DeckStopped ops (mainloopStart rand m) := by
  have hstart : InStep (mainloopStart rand m) := .inr rfl
  rw [← Run.along_step_iff, and_iff_right hstart.speedFollows]
  have hstep (s : Machine) (o : DeckStep) (h : InStep s) (ho : SpeedFollows (o.apply s)) :
      InStep (o.apply s) :=
    DeckStep.inStep_apply s o h ((DeckStep.speedFollows_apply_iff s o h).mp ho)
  exact Run.along_congr DeckStep.speedFollows_apply_iff hstep ops hstart

/-- A reset while the deck runs leaves it stopped and the CPU fast. -/
theorem not_speedFollows_run : ¬ ∀ (rand : UInt32) (m : Machine) (ops : List DeckStep),
    SpeedFollows (Run.exec DeckStep.apply ops (mainloopStart rand m)) := by
  intro h
  have hfinal := h 0 Machine.cold [.select "", .reset 0]
  let playing := startTape "" (mainloopStart 0 Machine.cold)
  have hfast : (mzReset 0 playing).z80IPeriod = period 5 := z80IPeriod_mzReset 0 playing
  have hcmt : (mzReset 0 playing).ts700.cmtTstates = 1 := hfinal.1.mp hfast
  rw [ts700_mzReset] at hcmt
  exact absurd hcmt (by decide)

end M5Z80
