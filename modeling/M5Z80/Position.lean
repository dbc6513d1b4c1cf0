import M5Z80.Bounds
import M5Z80.Lib.Run
import M5Z80.Mounting
import M5Z80.TapePlay

/-!
# M5Z80.Position

The position of the tape.  While the deck runs it is the time since the
start stamp plus the time that was accumulated before; a pause moves the
former into the latter.  Over any run of motor edges, redundant writes,
polls and time that passes, it is the time the deck has run.
-/

namespace M5Z80

/-! ## the deck on its own -/

namespace T700Ts

/-- The rising edge of the motor line, as far as the deck goes. -/
def edge (t : T700Ts) : T700Ts :=
  if t.cmtTstates = 0 then
    if t.cmtPlay ≠ 0 then { t with mztStart := t.cpuTstates, cmtTstates := 1 } else t
  else { t with cmtTstates := 0, mztElapse := t.mztElapse + (t.cpuTstates - t.mztStart) }

/-- The deck has played for `p` T-states, counted as the counters count:
while it runs the start stamp and the accumulated time give `p`, and while
it is paused the accumulated time does. -/
structure At (t : T700Ts) (p : Int32) : Prop where
  play : t.cmtPlay ≠ 0
  position : t.cmtTstates = 1 ∧ t.cpuTstates - t.mztStart + t.mztElapse = p ∨
    t.cmtTstates = 0 ∧ t.mztElapse = p

/-- An edge starts or pauses the deck where it is. -/
theorem At.edge {t : T700Ts} {p : Int32} (h : t.At p) : t.edge.At p := by
  obtain ⟨hplay, ⟨hcmt, hp⟩ | ⟨hcmt, hp⟩⟩ := h
  · have hpaused : t.edge = { t with
        cmtTstates := 0, mztElapse := t.mztElapse + (t.cpuTstates - t.mztStart) } := by
      rw [T700Ts.edge, if_neg (by rw [hcmt]; decide)]
    rw [hpaused]
    refine ⟨hplay, .inr ⟨rfl, ?_⟩⟩
    rw [← hp, Int32.add_comm]
  · have hstarted : t.edge = { t with mztStart := t.cpuTstates, cmtTstates := 1 } := by
      rw [T700Ts.edge, if_pos hcmt, if_pos hplay]
    rw [hstarted]
    refine ⟨hplay, .inl ⟨rfl, ?_⟩⟩
    rw [← hp, Int32.sub_self, Int32.zero_add]

end T700Ts

/-- The motor line moves the deck only. -/
theorem ts700_motorEdge (m : Machine) : (motorEdge m).ts700 = m.ts700.edge := by
  unfold motorEdge T700Ts.edge
  split
  · split <;> rfl
  · rfl

/-- The LED is not part of the deck. -/
theorem ts700_setLed (v : UInt8) (m : Machine) : (setLed v m).ts700 = m.ts700 := by
  unfold setLed
  split <;> rfl

/-- A write to `E002` is an edge for the deck, or nothing. -/
theorem ts700_writePortC (val : UInt32) (m : Machine) :
    (writePortC val m).ts700 = m.ts700 ∨
      val &&& 0x08 ≠ 0 ∧ (writePortC val m).ts700 = m.ts700.edge := by
  simp only [writePortC, setMotor]
  split
  · next h =>
      refine .inr ⟨h.2, ?_⟩
      rw [ts700_motorEdge, ts700_setLed]
      rfl
  · left
    rw [ts700_setLed]
    rfl

/-- A write to `E003` is an edge for the deck, or nothing. -/
theorem ts700_writePortCBit (val : UInt32) (m : Machine) :
    (writePortCBit val m).ts700 = m.ts700 ∨
      val &&& 1 ≠ 0 ∧ (writePortCBit val m).ts700 = m.ts700.edge := by
  unfold writePortCBit
  dsimp only
  split
  · next hset =>
      repeat' split
      all_goals first
        | exact .inl rfl
        | exact .inl (ts700_setLed _ m)
        | exact .inr ⟨hset, ts700_motorEdge m⟩
  · repeat' split
    all_goals first
      | exact .inl rfl
      | exact .inl (ts700_setLed _ m)

/-- A poll before the end of the tape leaves the deck alone. -/
theorem ts700_cmtRead {m : Machine}
    (h : m.ts700.cmtTstates = 0 ∨ twordOf m.mzMode (elapsed m) < m.ts700.mztBsize) :
    (cmtRead m).2.ts700 = m.ts700 := by
  obtain hcmt | hbefore := h
  · rw [cmtRead_of_stopped hcmt]
  · unfold cmtRead
    dsimp only
    split
    · rfl
    · rw [if_neg (Int.not_le.mpr hbefore)]
      simp only [seekTword, showPercent]
      split <;> split <;> rfl

/-! ## what happens to a tape -/

/-- Time that passes, a motor write through `E002` or `E003`, and a poll of
the tape signal. -/
inductive TapeStep
  | clock (n : Nat)
  | portC (val : UInt32)
  | portCBit (val : UInt32)
  | poll

namespace TapeStep

/-- The machine after a step. -/
def apply : TapeStep → Machine → Machine
  | .clock n, m => mCstate n m
  | .portC val, m => mmioOut 0xE002 val m
  | .portCBit val, m => mmioOut 0xE003 val m
  | .poll, m => (cmtRead m).2

/-- A poll comes before the end of the tape. -/
def BeforeEnd (m : Machine) : TapeStep → Prop
  | .poll => m.ts700.cmtTstates = 0 ∨ twordOf m.mzMode (elapsed m) < m.ts700.mztBsize
  | _ => True

/-- A write that puts the motor line to zero. -/
def MotorOff : TapeStep → Prop
  | .portC val => val &&& 0x08 = 0
  | .portCBit val => (val >>> 1) &&& 7 = 3 ∧ val &&& 1 = 0
  | _ => False

/-- The T-states of a step that the deck runs for. -/
def playTime (m : Machine) : TapeStep → Nat
  | .clock n => if m.ts700.cmtTstates = 1 then n else 0
  | _ => 0

end TapeStep

/-- The T-states with `cmt_tstates = 1` in a run. -/
def playedTime : List TapeStep → Machine → Nat
  | [], _ => 0
  | o :: ops, m => o.playTime m + playedTime ops (o.apply m)

/-- The time played in two runs. -/
theorem playedTime_append (ops ops' : List TapeStep) (m : Machine) :
    playedTime (ops ++ ops') m =
      playedTime ops m + playedTime ops' (Run.exec TapeStep.apply ops m) := by
  induction ops generalizing m with
  | nil => exact (Nat.zero_add _).symm
  | cons o ops ih =>
      rw [List.cons_append, playedTime, playedTime, ih, Run.exec_cons, Nat.add_assoc]

/-! ## every step -/

/-- A step moves the tape by the time it plays. -/
theorem at_apply {m : Machine} {p : Int32} (h : m.ts700.At p) {o : TapeStep}
    (ho : o.BeforeEnd m) : (o.apply m).ts700.At (p + Int32.ofNat (o.playTime m)) := by
  have hstill : p + Int32.ofNat 0 = p := Int32.add_zero p
  cases o with
  | clock n =>
      obtain ⟨_, _, _, heq, -⟩ := mCstate_eq n m
      rw [TapeStep.apply, heq]
      obtain ⟨hplay, ⟨hcmt, hp⟩ | ⟨hcmt, hp⟩⟩ := h
      · refine ⟨hplay, .inl ⟨hcmt, ?_⟩⟩
        rw [TapeStep.playTime, if_pos hcmt, ← hp]
        grind
      · refine ⟨hplay, .inr ⟨hcmt, ?_⟩⟩
        rw [TapeStep.playTime, if_neg (by rw [hcmt]; decide), hstill]
        exact hp
  | portC val =>
      change (TapeStep.apply (.portC val) m).ts700.At (p + Int32.ofNat 0)
      rw [hstill]
      obtain hsame | ⟨-, hedge⟩ := ts700_writePortC val m
      · exact hsame ▸ h
      · exact hedge ▸ h.edge
  | portCBit val =>
      change (TapeStep.apply (.portCBit val) m).ts700.At (p + Int32.ofNat 0)
      rw [hstill]
      obtain hsame | ⟨-, hedge⟩ := ts700_writePortCBit val m
      · exact hsame ▸ h
      · exact hedge ▸ h.edge
  | poll =>
      change (TapeStep.apply .poll m).ts700.At (p + Int32.ofNat 0)
      rw [hstill]
      exact (ts700_cmtRead ho) ▸ h

/-- A run moves the tape by the time it plays. -/
theorem at_exec (ops : List TapeStep) {m : Machine} {p : Int32} (h : m.ts700.At p)
    (hops : Run.Along TapeStep.apply (fun m o => o.BeforeEnd m) ops m) :
    (Run.exec TapeStep.apply ops m).ts700.At (p + Int32.ofNat (playedTime ops m)) := by
  induction ops generalizing m p with
  | nil =>
      rw [playedTime]
      exact (Int32.add_zero p).symm ▸ h
  | cons o ops ih =>
      have hrest := ih (at_apply h hops.1) hops.2
      rw [Int32.add_assoc, ← Int32.ofNat_add] at hrest
      exact hrest

/-! ## every run -/

/-- A mounted tape starts at its beginning. -/
theorem at_startTape {mztFile : String} {m : Machine} (h : (setMztData mztFile m).1 = true) :
    (startTape mztFile m).ts700.At 0 := by
  cases hfile : m.files (mztPath mztFile) with
  | none =>
      rw [setMztData, hfile] at h
      cases h
  | some fd =>
      have helapse : (setMztData mztFile m).2.ts700.mztElapse = 0 := by
        change (setMztData mztFile m).2.offTape.ts700.mztElapse = 0
        rw [offTape_setMztData hfile]
        rfl
      refine ⟨by change ¬ (1 : Int32) = 0; decide, .inl ⟨rfl, ?_⟩⟩
      change (setMztData mztFile m).2.ts700.cpuTstates - (setMztData mztFile m).2.ts700.cpuTstates +
        (setMztData mztFile m).2.ts700.mztElapse = 0
      rw [helapse, Int32.sub_self]
      rfl

/-- A deck that runs is where the time it has played puts it. -/
theorem T700Ts.At.elapsed {m : Machine} {n : Nat} (h : m.ts700.At (Int32.ofNat n))
    (hplay : m.ts700.cmtTstates = 1) (hn : n < 2 ^ 31) : M5Z80.elapsed m = n := by
  obtain ⟨-, ⟨-, hp⟩ | ⟨hcmt, -⟩⟩ := h
  · rw [M5Z80.elapsed, hp, Int32.toInt_ofNat_of_lt hn]
  · rw [hcmt] at hplay
    cases hplay

/-- In every run of a mounted tape before its end, the position of a deck
that runs is the time it has run.  So the position does not go back, the
time of a pause does not count, and turning the motor off moves nothing. -/
theorem tapePosition (mztFile : String) (m : Machine) (hmount : (setMztData mztFile m).1 = true)
    (ops : List TapeStep)
    (hbefore : Run.Along TapeStep.apply (fun m o => o.BeforeEnd m) ops (startTape mztFile m))
    (hshort : playedTime ops (startTape mztFile m) < 2 ^ 31) :
    let s := Run.exec TapeStep.apply ops (startTape mztFile m)
    (s.ts700.cmtTstates = 1 → elapsed s = playedTime ops (startTape mztFile m)) ∧
      (∀ pre, pre <+: ops →
        let s' := Run.exec TapeStep.apply pre (startTape mztFile m)
        s'.ts700.cmtTstates = 1 → s.ts700.cmtTstates = 1 → elapsed s' ≤ elapsed s) ∧
      ∀ o : TapeStep, o.MotorOff → (o.apply s).ts700 = s.ts700 := by
  intro s
  have hat (pre : List TapeStep)
      (hpre : Run.Along TapeStep.apply (fun m o => o.BeforeEnd m) pre (startTape mztFile m)) :
      (Run.exec TapeStep.apply pre (startTape mztFile m)).ts700.At
        (Int32.ofNat (playedTime pre (startTape mztFile m))) := by
    have h := at_exec pre (at_startTape hmount) hpre
    rwa [Int32.zero_add] at h
  refine ⟨fun hplay => (hat ops hbefore).elapsed hplay hshort, ?_, ?_⟩
  · rintro pre ⟨post, rfl⟩ s' hplay' hplay
    have hmore : playedTime pre (startTape mztFile m) ≤
        playedTime (pre ++ post) (startTape mztFile m) := by
      rw [playedTime_append]
      exact Nat.le_add_right _ _
    rw [(hat pre ((Run.along_append pre post _).mp hbefore).1).elapsed hplay' (by omega),
      (hat _ hbefore).elapsed hplay hshort]
    exact Int.ofNat_le.mpr hmore
  · intro o hoff
    cases o with
    | portC val =>
        obtain hsame | ⟨hon, -⟩ := ts700_writePortC val s
        · exact hsame
        · exact absurd hoff hon
    | portCBit val =>
        obtain hsame | ⟨hon, -⟩ := ts700_writePortCBit val s
        · exact hsame
        · exact absurd hoff.2 hon
    | clock n => exact hoff.elim
    | poll => exact hoff.elim

/-- 1000 T-states to a poll, a pause of 500, and 200 more to the next poll. -/
def pausedRun : List TapeStep :=
  [.clock 1000, .poll, .portCBit 7, .clock 500, .portCBit 6, .portCBit 7, .clock 200, .poll]

/-- The tape of an empty file does not move in the pause. -/
theorem tapePosition_paused :
    elapsed (Run.exec TapeStep.apply pausedRun (startTape "A.MZT" emptyFile)) = 1200 := by
  have hbefore : Run.Along TapeStep.apply (fun m o => o.BeforeEnd m) pausedRun
      (startTape "A.MZT" emptyFile) :=
    ⟨trivial, .inr (by decide +kernel), trivial, trivial, trivial, trivial, trivial,
      .inr (by decide +kernel), trivial⟩
  have htime : playedTime pausedRun (startTape "A.MZT" emptyFile) = 1200 := by decide +kernel
  have hposition := (tapePosition "A.MZT" emptyFile rfl pausedRun hbefore
    (by rw [htime]; decide)).1 (by decide +kernel)
  rw [hposition, htime]
  rfl

end M5Z80
