import M5Z80.KeySources
import M5Z80.Lib.Run

/-!
# M5Z80.SerialPolls

How often `checkSerialKey` reports the key of a burst.  Its result is the
global `serialKeyCode`, which only a poll that finds bytes assigns: an empty
poll returns the key of the last burst again.
-/

namespace M5Z80

/-! ## bursts -/

/-- A burst without a key: a zero, or an escape that stands for a break or
begins no key that is known. -/
def Keyless (burst : List UInt8) : Prop :=
  burst.getD 0 255 = 0 ∨
    burst.getD 0 255 = 27 ∧ (burst.getD 1 255 = 0 ∨ burst.getD 1 255 = 255 ∨
      burst.getD 1 255 = 91 ∧ burst.getD 2 255 ∉ [(65 : UInt8), 66, 67, 68, 49, 52, 50])

namespace SerialLine

/-- A line without bytes keeps its key. -/
theorem checkSerialKey_of_empty {line : SerialLine} (h : line.serial = []) :
    line.checkSerialKey = line := by
  rw [checkSerialKey, if_pos h]

/-- A burst is reported by the poll that finds it, if it has a key. -/
theorem checkSerialKey_eq_zero_iff_keyless {line : SerialLine} (h : line.serial ≠ []) :
    line.checkSerialKey.serialKeyCode = 0 ↔ Keyless line.serial := by
  rw [checkSerialKey_eq_zero_iff, Silent, if_neg h]
  rfl

/-- A poll leaves no byte. -/
theorem serial_checkSerialKey (line : SerialLine) : line.checkSerialKey.serial = [] := by
  by_cases h : line.serial = []
  · rw [checkSerialKey_of_empty h, h]
  · rw [checkSerialKey, if_neg h]

end SerialLine

/-! ## schedules -/

/-- Bytes arrive on the serial line, or `checkSerialKey` is called. -/
inductive SerialStep
  | arrive (bytes : List UInt8)
  | poll

namespace SerialStep

/-- The serial line after a step. -/
def apply (o : SerialStep) (line : SerialLine) : SerialLine :=
  match o with
  | .arrive bytes => { line with serial := line.serial ++ bytes }
  | .poll => line.checkSerialKey

/-- The key that a step reports. -/
def key (line : SerialLine) : SerialStep → UInt8
  | .arrive _ => 0
  | .poll => line.checkSerialKey.serialKeyCode

/-- A burst is received. -/
def isBurst : SerialStep → Bool
  | .arrive bytes => !bytes.isEmpty
  | .poll => false

end SerialStep

/-- The number of polls that report a key. -/
def reports (ops : List SerialStep) (line : SerialLine) : Nat :=
  (Run.trace SerialStep.apply SerialStep.key ops line).countP (· ≠ 0)

/-- The number of bursts. -/
def bursts (ops : List SerialStep) : Nat := ops.countP SerialStep.isBurst

/-- The line as `mz80c_main` starts it. -/
def SerialLine.start : SerialLine where
  serial := []
  serialKeyCode := 0
  sendBreakFlag := false

/-- The sources that `keyCheck` asks when the serial line has no key. -/
def KeyInput.otherKeys (w : KeyWorld) (s : KeyInput) : UInt8 × KeyInput :=
  let r := s.checkI2cKeyboard w
  if r.1 ≠ 0 then r
  else if r.2.wonderHouseMode then r.2.wonderHouseKey w.nowMillis
  else r

/-- An empty poll reports no key, and `keyCheck` goes on to the other
sources. -/
def EmptyPollOk (line : SerialLine) (o : SerialStep) : Prop :=
  o = .poll → line.serial = [] → line.checkSerialKey.serialKeyCode = 0 ∧
    ∀ (w : KeyWorld) (s : KeyInput), s.toSerialLine = line →
      s.pollKeys w = { s with toSerialLine := s.checkSerialKey }.otherKeys w

/-- No key is reported twice. -/
structure NotRepeated (ops : List SerialStep) : Prop where
  emptyPolls : Run.Along SerialStep.apply EmptyPollOk ops .start
  reports_le : reports ops .start ≤ bursts ops

/-- A poll of an empty line has to find no key of an earlier burst. -/
theorem emptyPollOk_iff (line : SerialLine) (o : SerialStep) :
    EmptyPollOk line o ↔ (o = .poll → line.serial = [] → line.serialKeyCode = 0) := by
  rw [EmptyPollOk]
  refine forall_congr' fun _ => forall_congr' fun hempty => ?_
  rw [line.checkSerialKey_of_empty hempty]
  refine ⟨fun h => h.1, fun hzero => ⟨hzero, ?_⟩⟩
  rintro w s rfl
  rw [KeyInput.pollKeys, s.checkSerialKey_of_empty hempty]
  exact if_neg (not_not.mpr hzero)

/-! ### counting -/

/-- If no empty poll reports a key, each key that is reported uses up a
burst. -/
theorem reports_le_of_along {ops : List SerialStep} {line : SerialLine}
    (h : Run.Along SerialStep.apply
      (fun line o => o = .poll → line.serial = [] → line.serialKeyCode = 0) ops line) :
    reports ops line ≤ (if line.serial = [] then 0 else 1) + bursts ops := by
  induction ops generalizing line with
  | nil => exact Nat.zero_le _
  | cons o ops ih =>
      have hrest := ih h.2
      rw [reports, Run.trace, List.countP_cons, bursts, List.countP_cons]
      change reports ops _ + _ ≤ _ + (bursts ops + _)
      cases o with
      | arrive bytes =>
          by_cases hbytes : bytes = []
          · subst hbytes
            simpa [SerialStep.key, SerialStep.isBurst, SerialStep.apply] using hrest
          · have hserial : line.serial ++ bytes ≠ [] := by simp [hbytes]
            simp [SerialStep.key, SerialStep.isBurst, SerialStep.apply, hbytes] at hrest ⊢
            omega
      | poll =>
          have hserial : (SerialStep.poll.apply line).serial = [] := line.serial_checkSerialKey
          rw [if_pos hserial, Nat.zero_add] at hrest
          by_cases hempty : line.serial = []
          · have hzero : SerialStep.poll.key line = 0 := by
              rw [SerialStep.key, line.checkSerialKey_of_empty hempty]
              exact h.1 rfl hempty
            simp [hzero, SerialStep.isBurst]
            omega
          · have hone : (if decide (SerialStep.key line .poll ≠ 0) = true then 1 else 0) ≤ 1 := by
              split <;> decide
            rw [if_neg hempty]
            omega

/-! ### the last burst -/

/-- The bytes that wait and the last burst that a poll found. -/
structure Bursts where
  waiting : List UInt8
  last : List UInt8

namespace Bursts

/-- The bursts after a step. -/
def step (o : SerialStep) (b : Bursts) : Bursts :=
  match o with
  | .arrive bytes => { b with waiting := b.waiting ++ bytes }
  | .poll => if b.waiting = [] then b else ⟨[], b.waiting⟩

/-- An empty poll comes before the first burst or after one without a key. -/
def Spent (b : Bursts) (o : SerialStep) : Prop :=
  o = .poll → b.waiting = [] → b.last = [] ∨ Keyless b.last

end Bursts

/-- The line has the bytes that wait, and its key is the one of the last
burst. -/
structure Remembers (line : SerialLine) (b : Bursts) : Prop where
  serial : line.serial = b.waiting
  serialKeyCode : line.serialKeyCode = 0 ↔ b.last = [] ∨ Keyless b.last

/-- What is remembered moves on with each step. -/
theorem Remembers.step {line : SerialLine} {b : Bursts} (h : Remembers line b) (o : SerialStep) :
    Remembers (o.apply line) (b.step o) := by
  cases o with
  | arrive bytes => exact ⟨congrArg (· ++ bytes) h.serial, h.serialKeyCode⟩
  | poll =>
      by_cases hempty : line.serial = []
      · have hwaiting : b.waiting = [] := h.serial.symm.trans hempty
        rw [SerialStep.apply, Bursts.step, line.checkSerialKey_of_empty hempty]
        rw [if_pos hwaiting]
        exact h
      · have hwaiting : b.waiting ≠ [] := h.serial ▸ hempty
        rw [SerialStep.apply, Bursts.step]
        rw [if_neg hwaiting]
        refine ⟨line.serial_checkSerialKey, ?_⟩
        rw [SerialLine.checkSerialKey_eq_zero_iff_keyless hempty, h.serial]
        exact (or_iff_right hwaiting).symm

/-- Along a schedule, the empty polls report no key exactly when each comes
before the first burst or after one without a key. -/
theorem along_emptyPollOk_iff (ops : List SerialStep) :
    Run.Along SerialStep.apply EmptyPollOk ops .start ↔
      Run.Along Bursts.step Bursts.Spent ops ⟨[], []⟩ := by
  have hstart : Remembers .start ⟨[], []⟩ := ⟨rfl, iff_of_true rfl (.inl rfl)⟩
  refine Run.along_related (fun _ _ o h => h.step o) (fun line b o h => ?_) ops hstart
  rw [emptyPollOk_iff, Bursts.Spent, h.serial, h.serialKeyCode]

/-- Serial input is not repeated along a schedule exactly when every poll that
finds no byte comes before the first burst, or the last burst that was polled
had no key. -/
theorem notRepeated_iff (ops : List SerialStep) :
    NotRepeated ops ↔ Run.Along Bursts.step Bursts.Spent ops ⟨[], []⟩ := by
  rw [← along_emptyPollOk_iff]
  refine ⟨fun h => h.emptyPolls, fun h => ⟨h, ?_⟩⟩
  have hle := reports_le_of_along ((Run.along_congr (P := fun _ => True)
    (fun line o _ => emptyPollOk_iff line o) (fun _ _ _ _ => trivial) ops trivial).mp h)
  have hnone : SerialLine.start.serial = [] := rfl
  rw [if_pos hnone, Nat.zero_add] at hle
  exact hle

/-- An `A` and two polls: the second finds nothing and reports the `A`
again. -/
theorem not_notRepeated_twice : ¬ NotRepeated [.arrive [0x41], .poll, .poll] := by
  intro h
  have hle := h.reports_le
  revert hle
  decide

end M5Z80
