import M5Z80.Bus
import M5Z80.KeySources
import M5Z80.KeyUses

/-!
# M5Z80.KeyRange

Which key input stays inside the tables and the matrix.  `keyboard` hands the
`FF` of a key without a code to `mz_keydown_sub` and tests its codes against
232, where the tables have 174 entries; `keyCheck` looks a byte up in
`ak_tbl` without a test.  Every other use is in range in every run.
-/

namespace M5Z80

/-! ## calls -/

namespace KeyInput

/-- What the key input remembers: codes of the matrix and characters. -/
structure Sound (s : KeyInput) : Prop where
  preKeyCode : ∀ code ∈ s.preKeyCode, MatrixCode code
  delayInputKeyCode : MatrixCode s.delayInputKeyCode
  serialKeyCode : s.serialKeyCode < 128
  inputStringEx : s.Characters

/-- A call from `s` to `s'` whose uses are in range exactly when `ok`. -/
abbrev Guarded (s : KeyInput) (ok : Prop) (s' : KeyInput) : Prop :=
  Run.Guarded (fun s : KeyInput => s.InRange) Sound s ok s'

/-- A change of other variables. -/
theorem guarded_of_eq {s s' : KeyInput} (huses : s'.uses = s.uses)
    (hpre : s'.preKeyCode = s.preKeyCode) (hdelay : s'.delayInputKeyCode = s.delayInputKeyCode)
    (hserial : s'.serialKeyCode = s.serialKeyCode)
    (hqueue : s'.inputStringEx = s.inputStringEx) : Guarded s True s' := by
  refine .skip ?_ fun hi => ⟨?_, ?_, ?_, ?_⟩
  · rw [KeyMatrix.InRange, KeyMatrix.InRange, huses]
  · rw [hpre]
    exact hi.preKeyCode
  · rw [hdelay]
    exact hi.delayInputKeyCode
  · rw [hserial]
    exact hi.serialKeyCode
  · rw [JoyPad.Characters, hqueue]
    exact hi.inputStringEx

section

variable (s : KeyInput)

theorem mode_keydown (code : UInt8) : (s.keydown code).mode = s.mode :=
  s.mode_setKeyport code _

theorem mode_keyup (code : UInt8) : (s.keyup code).mode = s.mode :=
  s.mode_setKeyport code _

theorem entry_keydown (code : UInt8) (t : KeyTable) (i : UInt8) :
    (s.keydown code).entry t i = s.entry t i := by
  have hmode := s.mode_setKeyport code (· &&& ~~~ keyBit code)
  have hpast := s.past_setKeyport code (· &&& ~~~ keyBit code)
  rw [KeyMatrix.entry, KeyMatrix.entry, ← hmode, ← hpast]
  rfl

/-! ### single uses -/

/-- A change of the matrix alone is as safe as it is for the matrix. -/
theorem guarded_onMatrix {ok : Prop} {f : KeyMatrix → KeyMatrix}
    (hf : ∀ k : KeyMatrix, (f k).InRange ↔ ok ∧ k.InRange) : Guarded s ok (s.onMatrix f) where
  back h := ((hf _).mp h).2
  safe_iff _ hs := (hf _).trans (and_iff_left hs)
  keeps hi _ := ⟨hi.preKeyCode, hi.delayInputKeyCode, hi.serialKeyCode, hi.inputStringEx⟩

theorem guarded_keydown (code : UInt8) : Guarded s (MatrixCode code) (s.keydown code) :=
  s.guarded_onMatrix (KeyMatrix.inRange_mzKeydownSub code)

theorem guarded_keyup (code : UInt8) : Guarded s (MatrixCode code) (s.keyup code) :=
  s.guarded_onMatrix (KeyMatrix.inRange_mzKeyupSub code)

theorem guarded_look (t : KeyTable) (i : UInt8) : Guarded s (i.toNat < t.size) (s.look t i) :=
  s.guarded_onMatrix (KeyMatrix.inRange_look t i)

/-- The shift key. -/
theorem guarded_shift : Guarded s True (s.keydown s.shiftCode) :=
  (s.guarded_keydown _).congr fun _ => iff_true_intro (matrixCode_shiftCode _)

/-- A key that is held down and waits for its release. -/
theorem guarded_hold (code : UInt8) : Guarded s (MatrixCode code) (s.hold code) where
  back := (s.guarded_keydown code).back
  safe_iff := (s.guarded_keydown code).safe_iff
  keeps hi hcode := by
    refine ⟨fun c hc => ?_, hi.delayInputKeyCode, hi.serialKeyCode, hi.inputStringEx⟩
    rw [← Option.some.inj hc]
    exact hcode

/-! ### HID keyboard -/

theorem guarded_reportShift (mods : UInt8) : Guarded s True (s.reportShift mods) := by
  rw [reportShift]
  split
  · exact s.guarded_shift
  · exact (s.guarded_keyup _).congr fun _ => iff_true_intro (matrixCode_shiftCode _)

/-- A HID key that `keyboard` leaves alone. -/
theorem hidKeyOk_of_not {key : UInt8} (h : ¬ (0 < key ∧ key < 232)) (mode : MzMode) :
    HidKeyOk mode key := by
  by_cases hzero : 0 < key
  · exact .inr (.inl (UInt8.not_lt.mp fun hlt => h ⟨hzero, hlt⟩))
  · exact .inl (UInt8.le_zero_iff.mp (UInt8.not_lt.mp hzero))

/-- The key of the last report is looked up again to be released. -/
theorem guarded_releaseLast : Guarded s (HidKeyOk s.mode s.lastKey) s.releaseLast := by
  rw [releaseLast]
  split
  next hlast =>
    exact ((s.guarded_look _ _).trans (guarded_keyup _ _)).congr fun _ =>
      KeyMatrix.hidKeyOk_iff hlast
  next hlast =>
    exact (Run.Guarded.refl s).congr fun _ => iff_of_true trivial (hidKeyOk_of_not hlast _)

theorem guarded_pressNew (keyCode : UInt8) :
    Guarded s (HidKeyOk s.mode keyCode) (s.pressNew keyCode) := by
  rw [pressNew]
  split
  next hkey =>
    exact ((s.guarded_look _ _).trans (guarded_keydown _ _)).congr fun _ =>
      KeyMatrix.hidKeyOk_iff hkey
  next hkey =>
    exact (Run.Guarded.refl s).congr fun _ => iff_of_true trivial (hidKeyOk_of_not hkey _)

/-- A report of the HID keyboard that stays in range: the key it changes from
and the key it changes to have codes, or `keyboard` leaves them alone. -/
def ReportOk (keyCode : UInt8) : Prop :=
  keyCode ≠ s.lastKey → HidKeyOk s.mode s.lastKey ∧ HidKeyOk s.mode keyCode

/-- The shift of a report reaches the matrix only. -/
theorem reportShift_eq (mods : UInt8) : ∃ k : KeyMatrix, k.mode = s.mode ∧
    s.reportShift mods = { s with toKeyMatrix := k } := by
  rw [reportShift]
  split
  · exact ⟨_, s.mode_keydown _, rfl⟩
  · exact ⟨_, s.mode_keyup _, rfl⟩

theorem mode_releaseLast : s.releaseLast.mode = s.mode := by
  rw [releaseLast]
  split
  · exact mode_keyup _ _
  · rfl

/-- A report is safe if its key and the one before it can be looked up. -/
theorem guarded_keyboard (mods keyCode : UInt8) :
    Guarded s (s.ReportOk keyCode) (s.keyboard mods keyCode) := by
  have hshift := s.guarded_reportShift mods
  obtain ⟨k, hmode, heq⟩ := s.reportShift_eq mods
  rw [keyboard, ReportOk]
  dsimp only
  rw [heq] at hshift ⊢
  split
  next hnew =>
    rw [forall_prop_of_true hnew]
    refine hshift.after ?_
    have hlast := guarded_releaseLast { s with toKeyMatrix := k }
    have hset : Guarded (releaseLast { s with toKeyMatrix := k }) True
        { releaseLast { s with toKeyMatrix := k } with lastKey := keyCode } :=
      guarded_of_eq rfl rfl rfl rfl rfl
    have hpress := hset.after (guarded_pressNew _ keyCode)
    have hmode' := mode_releaseLast { s with toKeyMatrix := k }
    exact (hlast.trans hpress).congr fun _ => by
      show HidKeyOk k.mode s.lastKey ∧ HidKeyOk (releaseLast _).mode keyCode ↔ _
      rw [hmode', ← hmode]
  next hsame => exact hshift.congr fun _ => iff_of_true trivial fun hne => absurd hne hsame

/-! ### a character -/

/-- The key of a shifted character is left to the next call. -/
theorem guarded_shifted {inKeyCode : UInt8} (hshift : s.entry .akTbl inKeyCode = s.shiftCode) :
    Guarded s (inKeyCode < 128) { s.look .akTblS inKeyCode with
      delayInputKeyCode := s.entry .akTblS inKeyCode
      preKeyCode := some (s.entry .akTblS inKeyCode) } where
  back := (s.guarded_look _ _).back
  safe_iff := (s.guarded_look .akTblS inKeyCode).safe_iff
  keeps hi hlt := by
    have hcode := KeyMatrix.matrixCode_akTblS (UInt8.lt_iff_toNat_lt.mp hlt) hshift
    refine ⟨fun c hc => ?_, hcode, hi.serialKeyCode, hi.inputStringEx⟩
    rw [← Option.some.inj hc]
    exact hcode

/-- A character is safe if the table reaches to it. -/
theorem guarded_typeKey (inKeyCode : UInt8) :
    Guarded s (inKeyCode < 128) (s.typeKey inKeyCode) := by
  have hlook : Guarded s (inKeyCode < 128) (s.look .akTbl inKeyCode) :=
    (s.guarded_look .akTbl inKeyCode).congr fun _ =>
      (UInt8.lt_iff_toNat_lt (a := inKeyCode) (b := 128)).symm
  rw [typeKey]
  dsimp only
  split
  next => exact hlook
  next hmapped =>
    split
    next hshift =>
      have hdown := hlook.trans (guarded_shift (s.look .akTbl inKeyCode))
      have hshift' : ((s.look .akTbl inKeyCode).keydown
          (s.look .akTbl inKeyCode).shiftCode).entry .akTbl inKeyCode =
            ((s.look .akTbl inKeyCode).keydown (s.look .akTbl inKeyCode).shiftCode).shiftCode := by
        rw [entry_keydown, hshift, shiftCode, shiftCode, mode_keydown]
      exact (hdown.trans (guarded_shifted _ hshift')).congr fun _ => by
        rw [and_true, and_self_iff]
    next =>
      refine (hlook.trans (guarded_hold _ _)).congr fun _ => and_iff_left_of_imp fun hlt => ?_
      exact ((s.look .akTbl inKeyCode).matrixCode_entry (UInt8.lt_iff_toNat_lt.mp hlt)).mpr hmapped

/-- `ak_tbl` is looked up first. -/
theorem lt_of_inRange_typeKey {inKeyCode : UInt8} (h : (s.typeKey inKeyCode).InRange) :
    inKeyCode < 128 := by
  have hlook : (s.look .akTbl inKeyCode).InRange := by
    rw [typeKey] at h
    dsimp only at h
    split at h
    · exact h
    · split at h
      · exact (guarded_keydown _ _).back ((guarded_look _ _ _).back h)
      · exact (guarded_hold _ _).back h
  exact UInt8.lt_iff_toNat_lt.mpr ((KeyMatrix.inRange_look _ _ _).mp hlook).1

/-- The key of a source, when it has one. -/
theorem guarded_polled (w : KeyWorld) : Guarded s (s.PollOk w)
    (if (s.pollKeys w).1 = 0 then (s.pollKeys w).2
      else (s.pollKeys w).2.typeKey (s.pollKeys w).1) := by
  obtain ⟨hpad, hpre, hdelay, hserial⟩ := s.pollKeys_snd w
  have huses : (s.pollKeys w).2.InRange ↔ s.InRange := by
    rw [hpad]
  have hlt (hi : Sound s) := pollKeys_lt_iff hi.serialKeyCode w
  have hsound (hi : Sound s) (hok : s.PollOk w) : Sound (s.pollKeys w).2 := by
    refine ⟨?_, ?_, ?_, ?_⟩
    · rw [hpre]
      exact hi.preKeyCode
    · rw [hdelay]
      exact hi.delayInputKeyCode
    · rw [hserial]
      exact (s.toSerialLine.checkSerialKey_lt_iff hi.serialKeyCode).mpr hok.1
    · rw [hpad]
      exact hi.inputStringEx
  split
  next hnone =>
    have hok (hi : Sound s) : s.PollOk w := by
      rw [← hlt hi, hnone]
      decide
    exact {
      back := huses.mp
      safe_iff := fun hi hs => iff_of_true (huses.mpr hs) (hok hi)
      keeps := hsound }
  next =>
    have htype := guarded_typeKey (s.pollKeys w).2 (s.pollKeys w).1
    exact {
      back := fun h => huses.mp (htype.back h)
      safe_iff := fun hi hs => by
        rw [← hlt hi]
        constructor
        · exact lt_of_inRange_typeKey _
        · intro hkey
          exact (htype.safe_iff (hsound hi ((hlt hi).mp hkey)) (huses.mpr hs)).mpr hkey
      keeps := fun hi hok => htype.keeps (hsound hi hok) ((hlt hi).mpr hok) }

/-- The character of a source, or the one that is queued. -/
theorem guarded_takeKey (w : KeyWorld) (inKeyCode : UInt8) :
    Guarded s (if inKeyCode = 0 then s.PollOk w else inKeyCode < 128)
      (s.takeKey w inKeyCode) := by
  rw [takeKey]
  by_cases hnone : inKeyCode = 0
  · rw [if_pos hnone, if_pos hnone]
    exact s.guarded_polled w
  · rw [if_neg hnone, if_neg hnone]
    dsimp only
    rw [if_neg hnone]
    exact s.guarded_typeKey inKeyCode

/-- A queued character comes first, then CR, then the sources. -/
theorem guarded_takeQueued (w : KeyWorld) :
    Guarded s (s.Idle → s.PollOk w) (s.takeQueued w) := by
  rw [takeQueued]
  split
  next c rest hqueue =>
    have hbusy : ¬ s.Idle := fun h => absurd (hqueue.symm.trans h.1) (List.cons_ne_nil c rest)
    have hchar (hi : Sound s) : c ≠ 0 ∧ c < 128 := by
      refine hi.inputStringEx c ?_
      rw [hqueue]
      exact List.mem_cons_self
    have hnext : Guarded s True { s with inputStringEx := rest } := .skip Iff.rfl fun hi => by
      refine ⟨hi.preKeyCode, hi.delayInputKeyCode, hi.serialKeyCode, fun d hd => ?_⟩
      refine hi.inputStringEx d ?_
      rw [hqueue]
      exact List.mem_cons_of_mem c hd
    dsimp only
    split
    · refine (hnext.after (guarded_hold _ 0x86)).congr fun _ => ?_
      exact iff_of_true (by decide) fun h => absurd h hbusy
    · split
      · refine (hnext.after (guarded_hold _ _)).congr fun _ => ?_
        exact iff_of_true (matrixCode_shiftCode _) fun h => absurd h hbusy
      · refine (hnext.after (guarded_takeKey _ w c)).congr fun hi => ?_
        rw [if_neg (hchar hi).1]
        exact iff_of_true (hchar hi).2 fun h => absurd h hbusy
  next hqueue =>
    split
    next hcr =>
      have hbusy : ¬ s.Idle := fun h => by
        rw [h.2] at hcr
        contradiction
      have hnext : Guarded s True { s with inputStringMode := false } :=
        guarded_of_eq rfl rfl rfl rfl rfl
      refine (hnext.after (guarded_takeKey _ w 0x0D)).congr fun _ => ?_
      rw [if_neg (by decide)]
      exact iff_of_true (by decide) fun h => absurd h hbusy
    next hcr =>
      have hidle : s.Idle := ⟨hqueue, Bool.eq_false_iff.mpr hcr⟩
      refine (s.guarded_takeKey w 0).congr fun _ => ?_
      rw [if_pos rfl, forall_prop_of_true hidle]

/-! ### `keyCheck` -/

theorem guarded_sendBreak : Guarded s True s.sendBreak := by
  have hmode := s.mode_keydown s.shiftCode
  have hclear (s' : KeyInput) : Guarded s' True { s' with sendBreakFlag := false } :=
    guarded_of_eq rfl rfl rfl rfl rfl
  rw [sendBreak]
  refine s.guarded_shift.after ?_
  cases hm : (s.keydown s.shiftCode).mode with
  | mode700 =>
      have hbreak := (guarded_hold (s.keydown s.shiftCode) 0x87).trans (hclear _)
      exact hbreak.congr fun _ => iff_of_true ⟨by decide, trivial⟩ trivial
  | mode80 =>
      have hentry : (s.keydown s.shiftCode).entry .akTblS 3 = 0x93 := by
        rw [KeyMatrix.entry, hm]
        rfl
      have hlook := (s.keydown s.shiftCode).guarded_look .akTblS 3
      rw [hentry]
      exact ((hlook.trans (guarded_hold _ 0x93)).trans (hclear _)).congr fun _ =>
        iff_of_true ⟨⟨by decide, by decide⟩, trivial⟩ trivial

/-- With no key held, the sources are asked if nothing is queued. -/
def NextOk (w : KeyWorld) : Prop :=
  s.sendBreakFlag = false → s.Idle → ¬ s.Queues w.joyPad → s.PollOk w

/-- What the next key is depends on the sources only. -/
theorem nextOk_congr {s s' : KeyInput} {w : KeyWorld} (hline : s'.toSerialLine = s.toSerialLine)
    (hidle : s'.Idle ↔ s.Idle) (hqueues : s'.Queues w.joyPad ↔ s.Queues w.joyPad)
    (hcount : s'.i2cCheckCount = s.i2cCheckCount) : s'.NextOk w ↔ s.NextOk w := by
  rw [NextOk, NextOk, PollOk, PollOk, hline, hidle, hqueues, hcount]

/-- The next key is safe if the source it comes from gives a safe one. -/
theorem guarded_nextKey (w : KeyWorld) : Guarded s (s.NextOk w) (s.nextKey w) := by
  rw [nextKey, NextOk]
  split
  next hbreak =>
    refine s.guarded_sendBreak.congr fun _ => iff_of_true trivial fun h => ?_
    rw [h] at hbreak
    contradiction
  next hbreak =>
    rw [forall_prop_of_true (Bool.eq_false_iff.mpr hbreak)]
    have htame := JoyPad.tame_checkJoyPad w.joyPad s.toJoyPad
    have hpad : Guarded s True { s with toJoyPad := s.checkJoyPad w.joyPad } := {
      back := htame.back
      safe_iff := fun hi hs => htame.safe_iff hi.inputStringEx hs
      keeps := fun hi _ => ⟨hi.preKeyCode, hi.delayInputKeyCode, hi.serialKeyCode,
        htame.keeps hi.inputStringEx trivial⟩ }
    refine (hpad.after (guarded_takeQueued _ w)).congr fun _ => ?_
    show ((s.checkJoyPad w.joyPad).Idle → s.PollOk w) ↔ _
    rw [JoyPad.idle_checkJoyPad, and_imp]

theorem guarded_pressDelayed : Guarded s True s.pressDelayed := by
  rw [pressDelayed]
  split
  · have hclear (s' : KeyInput) : Guarded s' True { s' with delayInputKeyCode := 0 } :=
      .skip Iff.rfl fun hi =>
        ⟨hi.preKeyCode, (by decide : MatrixCode 0), hi.serialKeyCode, hi.inputStringEx⟩
    refine ((s.guarded_keydown _).trans (hclear _)).congr fun hi => ?_
    exact iff_of_true ⟨hi.delayInputKeyCode, trivial⟩ trivial
  · exact .refl s

/-- The key that waits reaches the matrix only. -/
theorem pressDelayed_eq : ∃ (k : KeyMatrix) (delay : UInt8), k.mode = s.mode ∧
    s.pressDelayed = { s with toKeyMatrix := k, delayInputKeyCode := delay } := by
  rw [pressDelayed]
  split
  · exact ⟨_, _, s.mode_keydown _, rfl⟩
  · exact ⟨_, _, rfl, rfl⟩

theorem guarded_releaseHeld (code : UInt8) : Guarded s (MatrixCode code) (s.releaseHeld code) := by
  have hclear (s' : KeyInput) :
      Guarded s' True { s' with preKeyCode := none, keyCheckCount := 0 } :=
    .skip Iff.rfl fun hi =>
      ⟨fun _ hc => absurd hc (by simp), hi.delayInputKeyCode, hi.serialKeyCode,
        hi.inputStringEx⟩
  have hshift := guarded_keyup (s.keyup code) s.shiftCode
  exact (((s.guarded_keyup code).trans hshift).trans (hclear _)).congr fun _ =>
    ⟨fun h => h.1.1, fun h => ⟨⟨h, matrixCode_shiftCode _⟩, trivial⟩⟩

/-- The key that is held, if any, is due in this call. -/
def Due : Prop := s.preKeyCode = none ∨ 4 ≤ s.keyCheckCount

/-- A call of `keyCheck` that stays in range. -/
def CheckOk (w : KeyWorld) : Prop := s.Due → s.NextOk w

/-- A call is safe if the key it releases and the one it presses are. -/
theorem guarded_keyCheck (w : KeyWorld) : Guarded s (s.CheckOk w) (s.keyCheck w) := by
  rw [keyCheck, CheckOk, Due]
  split
  next hheld =>
    rw [forall_prop_of_true (.inl hheld)]
    exact s.guarded_nextKey w
  next code hheld =>
    have hcount : Guarded s True { s with keyCheckCount := s.keyCheckCount + 1 } :=
      guarded_of_eq rfl rfl rfl rfl rfl
    have hdelayed := hcount.after (guarded_pressDelayed _)
    obtain ⟨k, delay, hmode, heq⟩ :=
      pressDelayed_eq { s with keyCheckCount := s.keyCheckCount + 1 }
    rw [heq] at hdelayed
    rw [heq]
    dsimp only
    have hnotNone : ¬ s.preKeyCode = none := by
      rw [hheld]
      exact Option.some_ne_none code
    rw [or_iff_right hnotNone]
    split
    next hwait => exact hdelayed.congr fun _ => iff_of_true trivial fun h => by omega
    next hdue =>
      have hnext := (hdelayed.after (guarded_releaseHeld _ code)).trans (guarded_nextKey _ w)
      refine hnext.congr fun hi => ?_
      rw [and_iff_right (hi.preKeyCode code hheld), forall_prop_of_true (by omega)]
      refine nextOk_congr rfl Iff.rfl (JoyPad.queues_congr ?_ ?_ w.joyPad) rfl
      · exact (mode_keyup _ _).trans ((mode_keyup _ _).trans hmode)
      · rfl

end

end KeyInput

/-! ## runs -/

/-- A step that stays in range. -/
def KeyStep.Ok (s : KeyInput) : KeyStep → Prop
  | .report _ keyCode => s.ReportOk keyCode
  | .check w => s.CheckOk w
  | _ => True

/-- A step is safe exactly under its condition. -/
theorem KeyStep.guarded_apply (s : KeyInput) (o : KeyStep) :
    s.Guarded (o.Ok s) (o.apply s) := by
  cases o with
  | report mods keyCode => exact s.guarded_keyboard mods keyCode
  | check w => exact s.guarded_keyCheck w
  | digit d =>
      refine .skip Iff.rfl fun hi =>
        ⟨hi.preKeyCode, hi.delayInputKeyCode, hi.serialKeyCode, fun c hc => ?_⟩
      rw [List.mem_singleton.mp hc]
      cases d <;> decide
  | wonderHouse =>
      rw [apply]
      split
      all_goals exact KeyInput.guarded_of_eq rfl rfl rfl rfl rfl
  | arrive bytes => exact KeyInput.guarded_of_eq rfl rfl rfl rfl rfl
  | load romFile => exact KeyInput.guarded_of_eq rfl rfl rfl rfl rfl
  | cr => exact KeyInput.guarded_of_eq rfl rfl rfl rfl rfl

/-- Every lookup so far was inside its table, every code inside the matrix,
and no key without a code got there. -/
structure KeysInRange (s : KeyInput) : Prop where
  range : ∀ u ∈ s.uses, u.InRange
  unmapped : KeyUse.matrix 0xFF ∉ s.uses

/-- Keys are in range exactly if all uses were. -/
theorem keysInRange_iff_inRange (s : KeyInput) : KeysInRange s ↔ s.InRange := by
  constructor
  · exact KeysInRange.range
  · intro h
    refine ⟨h, fun hmem => ?_⟩
    have hcode : MatrixCode 0xFF := h _ hmem
    revert hcode
    decide

/-- At first no key is held. -/
theorem KeyInput.sound_start (past : KeyTable → Nat → UInt8) (m : Machine) :
    (KeyInput.start past m).Sound where
  preKeyCode _ hc := by contradiction
  delayInputKeyCode := (by decide : MatrixCode 0)
  serialKeyCode := (by decide : (0 : UInt8) < 128)
  inputStringEx _ hc := by contradiction

/-- The key input is in range after a run exactly when every report changed
between keys with codes, or keys that `keyboard` leaves alone, and every
call of `keyCheck` that asked the serial line and the I2C keyboards got a
character. -/
theorem keysInRange_iff (past : KeyTable → Nat → UInt8) (m : Machine) (ops : List KeyStep) :
    KeysInRange (Run.exec KeyStep.apply ops (KeyInput.start past m)) ↔
      Run.Along KeyStep.apply KeyStep.Ok ops (KeyInput.start past m) := by
  have hstart : (KeyInput.start past m).InRange := fun _ hu => absurd hu List.not_mem_nil
  rw [keysInRange_iff_inRange]
  exact (Run.Guarded.exec_iff KeyStep.guarded_apply ops
    (KeyInput.sound_start past m)).trans (and_iff_right hstart)

/-- The key F6 of the MZ-700 has no code: `mz_keydown_sub` gets `FF`, which is
row 15. -/
theorem not_keysInRange : ¬ ∀ (past : KeyTable → Nat → UInt8) (m : Machine)
    (ops : List KeyStep),
    KeysInRange (Run.exec KeyStep.apply ops (KeyInput.start past m)) := by
  intro h
  have hrange := h (fun _ _ => 0) { Machine.cold with mzMode := .mode700 } [.report 0 0x3F]
  exact hrange.unmapped (by decide +kernel)

end M5Z80
