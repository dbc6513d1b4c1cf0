import M5Z80.Bus
import M5Z80.KeyRange
import M5Z80.Lib.Holding
import M5Z80.Pressed

/-!
# M5Z80.TypedStrings

What `keyCheck` makes of a string in `inputStringEx` while nothing else has a
key for it.  Each character is held for five calls; one that needs shift has
shift alone in the first of them.  The code of a key that waits for its shift
is in `delayInputKeyCode`, where zero means that none does: a key with the
code zero never comes.
-/

namespace M5Z80

/-! ## keys of a character -/

/-- Its entry of `ak_tbl`. -/
def akCode (mode : MzMode) (c : UInt8) : UInt8 :=
  ((KeyTable.akTbl.entries mode)[c.toNat]?).getD 0xFF

/-- Its entry of `ak_tbl_s`. -/
def akShiftCode (mode : MzMode) (c : UInt8) : UInt8 :=
  ((KeyTable.akTblS.entries mode)[c.toNat]?).getD 0xFF

/-- `ak_tbl` marks it as shifted. -/
def Shifted (mode : MzMode) (c : UInt8) : Prop := akCode mode c = shiftCode mode

instance (mode : MzMode) (c : UInt8) : Decidable (Shifted mode c) :=
  inferInstanceAs (Decidable (_ = _))

/-- A character with a mapping, other than the two that stand for CTRL and
SHIFT. -/
structure Mapped (mode : MzMode) (c : UInt8) : Prop where
  lt : c < 128
  akCode : akCode mode c ≠ 0xFF
  ctrl : c ≠ 0x43
  shift : c ≠ 0x53

/-- The positions of a character: its own key, or shift and its shifted
key. -/
def charPositions (mode : MzMode) (c : UInt8) : Set Position :=
  if Shifted mode c then positions (shiftCode mode) ∪ positions (akShiftCode mode c)
  else positions (akCode mode c)

/-- A string reaches the matrix, of which `shown n` is down after `n` calls:
its characters appear in order, and in the end every key is up. -/
structure Typed (mode : MzMode) (text : List UInt8) (shown : Nat → Set Position) : Prop where
  appears : ∃ t : Nat → Nat, StrictMono t ∧
    ∀ k c, text[k]? = some c → shown (t k) = charPositions mode c
  released : ∃ N, ∀ n ≥ N, shown n = ∅

/-- A mapped character is not the one that means none. -/
theorem Mapped.ne_zero {mode : MzMode} {c : UInt8} (h : Mapped mode c) : c ≠ 0 := by
  rintro rfl
  exact h.akCode (by cases mode <;> rfl)

/-- The one shifted character whose key has the code zero. -/
theorem akShiftCode_eq_zero_iff {mode : MzMode} {c : UInt8} (hlt : c < 128)
    (hshift : Shifted mode c) : akShiftCode mode c = 0 ↔ mode = .mode80 ∧ c = 0x21 := by
  have hall : ∀ i < 128, Shifted mode (UInt8.ofNat i) →
      (akShiftCode mode (UInt8.ofNat i) = 0 ↔ mode = .mode80 ∧ UInt8.ofNat i = 0x21) := by
    cases mode <;> decide +kernel
  have hc := hall c.toNat (UInt8.lt_iff_toNat_lt.mp hlt)
  rw [UInt8.ofNat_toNat] at hc
  exact hc hshift

/-- The first table at a character is the key of the character. -/
theorem KeyMatrix.entry_akTbl {k : KeyMatrix} {c : UInt8} (hlt : c < 128) :
    k.entry .akTbl c = akCode k.mode c := by
  rw [akCode, k.entry_eq (t := .akTbl) (UInt8.lt_iff_toNat_lt.mp hlt), Option.getD_some]

/-- The second table is the key with shift. -/
theorem KeyMatrix.entry_akTblS {k : KeyMatrix} {c : UInt8} (hlt : c < 128) :
    k.entry .akTblS c = akShiftCode k.mode c := by
  rw [akShiftCode, k.entry_eq (t := .akTblS) (UInt8.lt_iff_toNat_lt.mp hlt), Option.getD_some]

/-! ## a held character -/

/-- The code that is kept for the release. -/
def heldCode (mode : MzMode) (c : UInt8) : UInt8 :=
  if Shifted mode c then akShiftCode mode c else akCode mode c

/-- The code that waits for the next call when the character has been held
for `r` calls. -/
def waitingCode (mode : MzMode) (c : UInt8) (r : Nat) : UInt8 :=
  if Shifted mode c ∧ r = 0 then akShiftCode mode c else 0

/-- What is down when the character has been held for `r` calls. -/
def display (mode : MzMode) (c : UInt8) (r : Nat) : Set Position :=
  if Shifted mode c then
    positions (shiftCode mode) ∪
      if r = 0 ∨ akShiftCode mode c = 0 then ∅ else positions (akShiftCode mode c)
  else positions (akCode mode c)

/-- From the second call on a character is down as it should be, unless its
key has the code zero. -/
theorem display_eq {mode : MzMode} {c : UInt8} {r : Nat} (hr : r ≠ 0)
    (hcode : Shifted mode c → akShiftCode mode c ≠ 0) :
    display mode c r = charPositions mode c := by
  rw [display, charPositions]
  by_cases hshift : Shifted mode c
  · rw [if_pos hshift, if_pos hshift, if_neg (not_or.mpr ⟨hr, hcode hshift⟩)]
  · rw [if_neg hshift, if_neg hshift]

/-- The two codes that go up take everything away. -/
theorem display_released (mode : MzMode) (c : UInt8) (r : Nat) :
    (display mode c r \ positions (heldCode mode c)) \ positions (shiftCode mode) = ∅ := by
  rw [Set.eq_empty_iff_forall_notMem, display, heldCode]
  rintro p ⟨⟨hp, hheld⟩, hshift⟩
  by_cases hshifted : Shifted mode c
  · rw [if_pos hshifted] at hp hheld
    obtain hp | hp := hp
    · exact hshift hp
    · split at hp
      · exact hp
      · exact hheld hp
  · rw [if_neg hshifted] at hp hheld
    exact hheld hp

/-! ## a quiet world -/

/-- A stick at rest, in the band where no direction is pushed. -/
def StickAtRest (stick : UInt8 × UInt8 × UInt8) : Prop :=
  stick.1 = 0 ∨ (80 ≤ stick.1 ∧ stick.1 ≤ 160 ∧ 80 ≤ stick.2.1 ∧ stick.2.1 ≤ 160 ∧ stick.2.2 ≠ 1)

/-- Nothing outside has a key. -/
structure KeyWorld.Quiet (w : KeyWorld) : Prop where
  stick : ∀ stick ∈ w.joyPad.stick, StickAtRest stick
  buttonA : w.joyPad.buttonA ≠ 1
  buttonB : w.joyPad.buttonB ≠ 1
  cardKb : w.cardKb.getD 0 = 0
  facesKb : w.facesKb.getD 0 = 0

/-- Nothing else inside has a key. -/
structure KeyInput.Quiet (s : KeyInput) : Prop where
  joyPadPushed : s.joyPadPushed = fun _ => false
  inputStringMode : s.inputStringMode = false
  serial : s.serial = []
  serialKeyCode : s.serialKeyCode = 0
  sendBreakFlag : s.sendBreakFlag = false
  wonderHouseMode : s.wonderHouseMode = false

/-- Keys of the matrix and of the queue do not matter. -/
theorem KeyInput.Quiet.congr {s s' : KeyInput} (h : s.Quiet)
    (hjoy : s'.joyPadPushed = s.joyPadPushed) (hmode : s'.inputStringMode = s.inputStringMode)
    (hline : s'.toSerialLine = s.toSerialLine) (hwonder : s'.wonderHouseMode = s.wonderHouseMode) :
    s'.Quiet where
  joyPadPushed := hjoy.trans h.joyPadPushed
  inputStringMode := hmode.trans h.inputStringMode
  serial := (congrArg SerialLine.serial hline).trans h.serial
  serialKeyCode := (congrArg SerialLine.serialKeyCode hline).trans h.serialKeyCode
  sendBreakFlag := (congrArg SerialLine.sendBreakFlag hline).trans h.sendBreakFlag
  wonderHouseMode := hwonder.trans h.wonderHouseMode

namespace JoyPad

/-- A direction that is neither held nor pushed does nothing. -/
theorem cursor_atRest {flag : JoyPadFlag} {j : JoyPad} (hpushed : j.joyPadPushed flag = false)
    (code : UInt8) {push : Bool} (hpush : push = false) (release : Bool) :
    cursor flag code push release j = j := by
  rw [cursor, hpushed, hpush]
  simp

/-- A joystick that is left alone does nothing. -/
theorem checkJoyPad_atRest {j : JoyPad} (hpushed : j.joyPadPushed = fun _ => false)
    {w : KeyWorld} (hw : w.Quiet) : checkJoyPad w.joyPad j = j := by
  rw [checkJoyPad]
  split
  · rfl
  · split
    · rfl
    next joyX joyY joyPress hstick =>
      split
      · rfl
      next hpresent =>
        obtain habsent | ⟨hu, hd, hl, hr, hpress⟩ := hw.stick _ hstick
        · exact absurd habsent hpresent
        · rw [cursorU, cursor_atRest (by rw [hpushed]) _ (by simpa using hu),
            cursorD, cursor_atRest (by rw [hpushed]) _ (by simpa using hd),
            cursorL, cursor_atRest (by rw [hpushed]) _ (by simpa using hl),
            cursorR, cursor_atRest (by rw [hpushed]) _ (by simpa using hr)]
          dsimp only at hpress
          simp [pressStick, pressA, pressB, hpushed, hpress, hw.buttonA, hw.buttonB]

end JoyPad

namespace KeyInput

/-- The sources have nothing. -/
theorem pollKeys_quiet {s : KeyInput} (hs : s.Quiet) {w : KeyWorld} (hw : w.Quiet) :
    ∃ count, s.pollKeys w = (0, { s with i2cCheckCount := count }) := by
  have hserial : s.checkSerialKey = s.toSerialLine := by
    rw [SerialLine.checkSerialKey, if_pos hs.serial]
  have hi2c : ∃ count, s.checkI2cKeyboard w = (0, { s with i2cCheckCount := count }) := by
    have hnone : w.facesKb.getD (w.cardKb.getD 0) = 0 := by
      rw [hw.cardKb, hw.facesKb]
    rw [checkI2cKeyboard]
    dsimp only
    by_cases hcount : s.i2cCheckCount + 1 < 50
    · rw [if_pos hcount]
      exact ⟨_, rfl⟩
    · rw [if_neg hcount, if_pos hnone]
      exact ⟨_, rfl⟩
  obtain ⟨count, hi2c⟩ := hi2c
  refine ⟨count, ?_⟩
  rw [pollKeys, hserial]
  dsimp only
  rw [if_neg (not_not.mpr hs.serialKeyCode), hi2c]
  dsimp only
  rw [if_neg (not_not.mpr rfl), if_neg]
  rw [hs.wonderHouseMode]
  exact Bool.false_ne_true

/-! ### the parts of `keyCheck` -/

section

variable (s : KeyInput)

/-- A character with shift presses the shift now, and its key in the next call. -/
theorem typeKey_shifted {c : UInt8} (hlt : c < 128) (hmapped : akCode s.mode c ≠ 0xFF)
    (h : Shifted s.mode c) : ∃ k : KeyMatrix, k.mode = s.mode ∧
      k.pressed = s.pressed ∪ positions (M5Z80.shiftCode s.mode) ∧
      s.typeKey c = { s with
        toKeyMatrix := k
        delayInputKeyCode := akShiftCode s.mode c
        preKeyCode := some (akShiftCode s.mode c) } := by
  have hmode := (s.look .akTbl c).mode_keydown s.shiftCode
  have hcode : (s.look .akTbl c).entry .akTbl c = akCode s.mode c := KeyMatrix.entry_akTbl hlt
  have hcodeS : (((s.look .akTbl c).keydown s.shiftCode).look .akTblS c).entry .akTblS c =
      akShiftCode s.mode c := by
    rw [KeyMatrix.entry_akTblS hlt]
    exact congrArg (akShiftCode · c) hmode
  refine ⟨(((s.look .akTbl c).keydown s.shiftCode).look .akTblS c).toKeyMatrix, hmode,
    pressed_keydown s.shiftCode (s.look .akTbl c), ?_⟩
  rw [typeKey]
  dsimp only
  rw [hcode, if_neg hmapped]
  refine (if_pos h).trans ?_
  exact congrArg (fun code => ({ ((s.look .akTbl c).keydown s.shiftCode).look .akTblS c with
    delayInputKeyCode := code, preKeyCode := some code } : KeyInput)) hcodeS

/-- A character without shift presses its key. -/
theorem typeKey_unshifted {c : UInt8} (hlt : c < 128) (hmapped : akCode s.mode c ≠ 0xFF)
    (h : ¬ Shifted s.mode c) : ∃ k : KeyMatrix, k.mode = s.mode ∧
      k.pressed = s.pressed ∪ positions (akCode s.mode c) ∧
      s.typeKey c = { s with toKeyMatrix := k, preKeyCode := some (akCode s.mode c) } := by
  have hcode : (s.look .akTbl c).entry .akTbl c = akCode s.mode c := KeyMatrix.entry_akTbl hlt
  refine ⟨((s.look .akTbl c).keydown (akCode s.mode c)).toKeyMatrix,
    (s.look .akTbl c).mode_keydown _, pressed_keydown _ (s.look .akTbl c), ?_⟩
  rw [typeKey]
  dsimp only
  rw [hcode, if_neg hmapped]
  exact if_neg h

/-- With no key that waits, nothing; else that key goes down. -/
theorem pressed_pressDelayed : ∃ k : KeyMatrix, k.mode = s.mode ∧
    k.pressed = s.pressed ∪
      (if s.delayInputKeyCode = 0 then ∅ else positions s.delayInputKeyCode) ∧
    s.pressDelayed = { s with toKeyMatrix := k, delayInputKeyCode := 0 } := by
  rw [pressDelayed]
  by_cases hdelay : s.delayInputKeyCode = 0
  · refine ⟨s.toKeyMatrix, rfl, ?_, ?_⟩
    · rw [if_pos hdelay, Set.union_empty]
    · rw [if_neg (not_not.mpr hdelay), ← hdelay]
  · refine ⟨(s.keydown s.delayInputKeyCode).toKeyMatrix, s.mode_keydown _, ?_, ?_⟩
    · rw [if_neg hdelay]
      exact pressed_keydown _ s
    · rw [if_pos hdelay]
      rfl

/-- The key that was held and the shift go up together. -/
theorem pressed_releaseHeld (code : UInt8) : ∃ k : KeyMatrix, k.mode = s.mode ∧
    k.pressed = (s.pressed \ positions code) \ positions (M5Z80.shiftCode s.mode) ∧
    s.releaseHeld code =
      { s with toKeyMatrix := k, preKeyCode := none, keyCheckCount := 0 } := by
  refine ⟨((s.keyup code).keyup s.shiftCode).toKeyMatrix,
    (mode_keyup _ _).trans (s.mode_keyup code), ?_, rfl⟩
  rw [pressed_keyup, pressed_keyup, shiftCode]

end

/-! ### a call of `keyCheck` -/

/-- The key input serves a string: the character it holds and the characters
that wait, with everything else quiet. -/
structure Serves (mode : MzMode) (s : KeyInput) (v : Holding.Server UInt8) : Prop where
  quiet : s.Quiet
  mode_eq : s.mode = mode
  mapped : ∀ c ∈ v.queue, Mapped mode c
  inputStringEx : s.inputStringEx = v.queue
  preKeyCode : s.preKeyCode = v.held.map fun h => heldCode mode h.1
  keyCheckCount : s.keyCheckCount = (v.held.map Prod.snd).getD 0
  delayInputKeyCode : s.delayInputKeyCode = (v.held.map fun h => waitingCode mode h.1 h.2).getD 0
  pressed : s.pressed = (v.held.map fun h => display mode h.1 h.2).getD ∅

/-- A character that is taken from the queue. -/
theorem serves_typeKey {mode : MzMode} {s : KeyInput} {c : UInt8} {rest : List UInt8}
    (h : Serves mode s ⟨none, rest⟩) (hc : Mapped mode c) :
    Serves mode (s.typeKey c) ⟨some (c, 0), rest⟩ := by
  obtain rfl := h.mode_eq
  have hempty : s.pressed = ∅ := h.pressed
  by_cases hshift : Shifted s.mode c
  · obtain ⟨k, hmode, hpressed, heq⟩ := s.typeKey_shifted hc.lt hc.akCode hshift
    rw [heq]
    refine ⟨h.quiet.congr rfl rfl rfl rfl, hmode, h.mapped, h.inputStringEx, ?_,
      h.keyCheckCount, ?_, ?_⟩
    · simp [heldCode, hshift]
    · simp [waitingCode, hshift]
    · refine hpressed.trans ?_
      simp [display, hshift, hempty]
  · obtain ⟨k, hmode, hpressed, heq⟩ := s.typeKey_unshifted hc.lt hc.akCode hshift
    rw [heq]
    refine ⟨h.quiet.congr rfl rfl rfl rfl, hmode, h.mapped, h.inputStringEx, ?_,
      h.keyCheckCount, ?_, ?_⟩
    · simp [heldCode, hshift]
    · refine h.delayInputKeyCode.trans ?_
      simp [waitingCode, hshift]
    · refine hpressed.trans ?_
      simp [display, hshift, hempty]

/-- With nothing held the next character is taken. -/
theorem serves_nextKey {mode : MzMode} {s : KeyInput} {queue : List UInt8}
    (h : Serves mode s ⟨none, queue⟩) {w : KeyWorld} (hw : w.Quiet) :
    Serves mode (s.nextKey w) (.take queue) := by
  have hjoy : s.checkJoyPad w.joyPad = s.toJoyPad :=
    JoyPad.checkJoyPad_atRest h.quiet.joyPadPushed hw
  have hbreak : ¬ s.sendBreakFlag = true := by simp [h.quiet.sendBreakFlag]
  have hqueue : s.inputStringEx = queue := h.inputStringEx
  rw [nextKey, if_neg hbreak, hjoy]
  change Serves mode (s.takeQueued w) _
  rw [takeQueued, hqueue]
  cases queue with
  | nil =>
      obtain ⟨count, hpoll⟩ := pollKeys_quiet h.quiet hw
      have hmode : ¬ s.inputStringMode = true := by simp [h.quiet.inputStringMode]
      dsimp only
      rw [if_neg hmode, takeKey, if_pos rfl, hpoll]
      dsimp only
      rw [if_pos rfl]
      exact ⟨h.quiet.congr rfl rfl rfl rfl, h.mode_eq, h.mapped, h.inputStringEx, h.preKeyCode,
        h.keyCheckCount, h.delayInputKeyCode, h.pressed⟩
  | cons c rest =>
      have hc : Mapped mode c := h.mapped c List.mem_cons_self
      have hrest : ∀ c ∈ rest, Mapped mode c := fun c hc => h.mapped c (List.mem_cons_of_mem _ hc)
      dsimp only
      rw [if_neg hc.ctrl, if_neg hc.shift, takeKey, if_neg hc.ne_zero]
      dsimp only
      rw [if_neg hc.ne_zero]
      exact serves_typeKey ⟨h.quiet.congr rfl rfl rfl rfl, h.mode_eq, hrest, rfl, h.preKeyCode,
        h.keyCheckCount, h.delayInputKeyCode, h.pressed⟩ hc

/-- The key that waited for its shift is down from the second call on. -/
theorem display_succ (mode : MzMode) (c : UInt8) (r : Nat) :
    (display mode c r ∪ if waitingCode mode c r = 0 then ∅ else positions (waitingCode mode c r)) =
      display mode c (r + 1) := by
  rw [display, display, waitingCode]
  by_cases hshift : Shifted mode c
  · by_cases hr : r = 0
    · simp [hshift, hr]
    · simp [hshift, hr]
  · simp [hshift]

/-- While a key is held, a call counts, and releases it at the fifth. -/
theorem keyCheck_of_held {s : KeyInput} {code : UInt8} (h : s.preKeyCode = some code)
    (w : KeyWorld) : s.keyCheck w =
      let s' := { s with keyCheckCount := s.keyCheckCount + 1 }.pressDelayed
      if s'.keyCheckCount < 5 then s' else (s'.releaseHeld code).nextKey w := by
  rw [keyCheck]
  split
  next hnone =>
    rw [hnone] at h
    exact absurd h.symm (Option.some_ne_none code)
  next code' hsome =>
    rw [hsome] at h
    rw [Option.some.inj h]

/-- A call of `keyCheck` is a step of the server that holds each character
for five calls. -/
theorem serves_keyCheck {mode : MzMode} {s : KeyInput} {v : Holding.Server UInt8}
    (h : Serves mode s v) {w : KeyWorld} (hw : w.Quiet) :
    Serves mode (s.keyCheck w) (v.step 4) := by
  obtain ⟨held, queue⟩ := v
  obtain rfl := h.mode_eq
  cases held with
  | none =>
      have hnone : s.preKeyCode = none := h.preKeyCode
      rw [keyCheck, hnone]
      exact serves_nextKey h hw
  | some held =>
      obtain ⟨c, r⟩ := held
      have hcount : s.keyCheckCount = r := h.keyCheckCount
      have hwaiting : s.delayInputKeyCode = waitingCode s.mode c r := h.delayInputKeyCode
      have hpressed : s.pressed = display s.mode c r := h.pressed
      obtain ⟨k, hmode, hk, heq⟩ :=
        pressed_pressDelayed { s with keyCheckCount := s.keyCheckCount + 1 }
      have hdown : k.pressed = display s.mode c (r + 1) := by
        rw [← display_succ, ← hpressed, ← hwaiting]
        exact hk
      rw [keyCheck_of_held h.preKeyCode, heq]
      simp only [Holding.Server.step, hcount]
      by_cases hr : r < 4
      · rw [if_pos (Nat.succ_lt_succ hr), if_pos hr]
        refine ⟨h.quiet.congr rfl rfl rfl rfl, hmode, h.mapped, h.inputStringEx, h.preKeyCode,
          rfl, ?_, hdown⟩
        simp [waitingCode]
      · rw [if_neg fun hlt => hr (Nat.lt_of_succ_lt_succ hlt), if_neg hr]
        refine serves_nextKey ?_ hw
        obtain ⟨k', hmode', hk', heq'⟩ := pressed_releaseHeld
          { s with toKeyMatrix := k, keyCheckCount := r + 1, delayInputKeyCode := 0 }
          (heldCode s.mode c)
        rw [heq']
        have hkmode : k.mode = s.mode := hmode
        refine ⟨h.quiet.congr rfl rfl rfl rfl, hmode'.trans hmode, h.mapped, h.inputStringEx,
          rfl, rfl, rfl, hk'.trans ?_⟩
        change (k.pressed \ _) \ positions (M5Z80.shiftCode k.mode) = ∅
        rw [hdown, hkmode, display_released]

/-! ## strings -/

/-- Between two strings: no key is held and every key is up. -/
structure Resting (s : KeyInput) : Prop where
  quiet : s.Quiet
  preKeyCode : s.preKeyCode = none
  keyCheckCount : s.keyCheckCount = 0
  delayInputKeyCode : s.delayInputKeyCode = 0
  pressed : s.pressed = ∅

/-- The key input after `n` calls of `keyCheck`. -/
def checks (w : Nat → KeyWorld) (s : KeyInput) : Nat → KeyInput
  | 0 => s
  | n + 1 => (checks w s n).keyCheck (w n)

/-- What is down after `n` calls when `text` has been put into the queue. -/
def shown (w : Nat → KeyWorld) (s : KeyInput) (text : List UInt8) (n : Nat) : Set Position :=
  (checks w { s with inputStringEx := text } n).pressed

section

variable {s : KeyInput} {w : Nat → KeyWorld} {text : List UInt8}

/-- By induction on the calls: the queue is served. -/
theorem serves_checks (hs : s.Resting) (hw : ∀ n, (w n).Quiet)
    (htext : ∀ c ∈ text, Mapped s.mode c) (n : Nat) :
    Serves s.mode (checks w { s with inputStringEx := text } n)
      ((Holding.Server.step 4)^[n] ⟨none, text⟩) := by
  induction n with
  | zero =>
      have h := hs.quiet
      exact ⟨⟨h.1, h.2, h.3, h.4, h.5, h.6⟩, rfl, htext, rfl, hs.preKeyCode, hs.keyCheckCount,
        hs.delayInputKeyCode, hs.pressed⟩
  | succ n ih =>
      rw [Function.iterate_succ_apply']
      exact serves_keyCheck ih (hw n)

/-- What is down after a call: each character for five calls, in order. -/
theorem shown_succ (hs : s.Resting) (hw : ∀ n, (w n).Quiet)
    (htext : ∀ c ∈ text, Mapped s.mode c) (n : Nat) :
    shown w s text (n + 1) = (text[n / 5]?.map fun c => display s.mode c (n % 5)).getD ∅ := by
  have hserves := (serves_checks hs hw htext (n + 1)).pressed
  rw [Holding.Server.held_cases, Option.map_map] at hserves
  exact hserves

/-- In the end every key is up. -/
theorem shown_eq_empty (hs : s.Resting) (hw : ∀ n, (w n).Quiet)
    (htext : ∀ c ∈ text, Mapped s.mode c) {n : Nat} (hn : 5 * text.length < n) :
    shown w s text n = ∅ := by
  have hserves := (serves_checks hs hw htext n).pressed
  rw [Holding.Server.held_eq_none 4 text hn] at hserves
  exact hserves

/-- Where the codes of all shifted keys are there, the second call of each
character has it down. -/
theorem typed_of_codes (hs : s.Resting) (hw : ∀ n, (w n).Quiet)
    (htext : ∀ c ∈ text, Mapped s.mode c)
    (hcodes : ∀ c ∈ text, Shifted s.mode c → akShiftCode s.mode c ≠ 0) :
    Typed s.mode text (shown w s text) where
  appears := by
    refine ⟨fun k => 5 * k + 1 + 1, fun k k' hlt => ?_, fun k c hc => ?_⟩
    · dsimp only
      omega
    · have hdiv : (5 * k + 1) / 5 = k := by omega
      have hmod : (5 * k + 1) % 5 = 1 := by omega
      rw [shown_succ hs hw htext, hdiv, hmod, hc, Option.map_some, Option.getD_some]
      exact display_eq Nat.one_ne_zero (hcodes c (List.mem_of_getElem? hc))
  released := ⟨5 * text.length + 1, fun _ hn => shown_eq_empty hs hw htext hn⟩

end

/-- The key with the code zero and shift are never down together. -/
theorem display_ne {mode : MzMode} {c : UInt8} {r : Nat} :
    display mode c r ≠ positions (M5Z80.shiftCode mode) ∪ positions 0 := by
  have hne : (0 : UInt8) ≠ M5Z80.shiftCode mode := by cases mode <;> decide
  have hzero : ((0, 0) : Position) ∈ positions 0 := rfl
  have hshift : ((8, 0) : Position) ∈ positions (M5Z80.shiftCode mode) := by cases mode <;> rfl
  intro heq
  have hmem : ((0, 0) : Position) ∈ display mode c r := by
    rw [heq]
    exact .inr hzero
  have hmem' : ((8, 0) : Position) ∈ display mode c r := by
    rw [heq]
    exact .inl hshift
  rw [display] at hmem hmem'
  by_cases hshifted : Shifted mode c
  · rw [if_pos hshifted] at hmem
    obtain hmem | hmem := hmem
    · exact hne (code_eq_of_mem_positions hzero hmem)
    · split at hmem
      · exact hmem
      next hcode => exact hcode (.inr (code_eq_of_mem_positions hmem hzero))
  · rw [if_neg hshifted] at hmem hmem'
    exact hne ((code_eq_of_mem_positions hzero hmem).trans
      (code_eq_of_mem_positions hmem' hshift))

section

variable {s : KeyInput} {w : Nat → KeyWorld} {text : List UInt8}

/-- An exclamation mark never appears on an MZ-80. -/
theorem not_typed (hs : s.Resting) (hw : ∀ n, (w n).Quiet) (htext : ∀ c ∈ text, Mapped s.mode c)
    (hmode : s.mode = .mode80) (hmem : 0x21 ∈ text) : ¬ Typed s.mode text (shown w s text) := by
  intro ⟨⟨t, _, happears⟩, _⟩
  obtain ⟨k, hk⟩ := List.mem_iff_getElem?.mp hmem
  have hchar := happears k 0x21 hk
  have hpositions : charPositions s.mode 0x21 =
      positions (M5Z80.shiftCode s.mode) ∪ positions 0 := by
    rw [hmode]
    rfl
  rw [hpositions] at hchar
  have hne : (∅ : Set Position) ≠ positions (M5Z80.shiftCode s.mode) ∪ positions 0 := by
    intro heq
    have hzero : ((0, 0) : Position) ∈ (∅ : Set Position) := by
      rw [heq]
      exact .inr rfl
    exact hzero
  cases ht : t k with
  | zero =>
      rw [ht] at hchar
      exact hne (hs.pressed.symm.trans hchar)
  | succ n =>
      rw [ht, shown_succ hs hw htext] at hchar
      cases hc : text[n / 5]? with
      | none =>
          rw [hc] at hchar
          exact hne hchar
      | some c =>
          rw [hc] at hchar
          exact display_ne hchar

/-- A string of mapped characters reaches the matrix exactly when it has no
exclamation mark for an MZ-80: the shifted key of that character, alone among
all, has the code zero. -/
theorem typed_iff (hs : s.Resting) (hw : ∀ n, (w n).Quiet) (htext : ∀ c ∈ text, Mapped s.mode c) :
    Typed s.mode text (shown w s text) ↔ (s.mode = .mode80 → 0x21 ∉ text) := by
  constructor
  · intro htyped hmode hmem
    exact not_typed hs hw htext hmode hmem htyped
  · intro h
    refine typed_of_codes hs hw htext fun c hc hshifted hzero => ?_
    obtain ⟨hmode, rfl⟩ := (akShiftCode_eq_zero_iff (htext c hc).lt hshifted).mp hzero
    exact h hmode hc

end

/-- The key input rests when it starts. -/
theorem resting_start (past : KeyTable → Nat → UInt8) (m : Machine) :
    (KeyInput.start past (releaseKeys m)).Resting :=
  ⟨⟨rfl, rfl, rfl, rfl, rfl, rfl⟩, rfl, rfl, rfl, BitRows.low_allOnes⟩

/-- No joystick, no keyboard. -/
def alone : KeyWorld where
  joyPad := { stick := none, buttonA := 0, buttonB := 0 }
  cardKb := none
  facesKb := none
  nowMillis := 0

/-- With no keyboard, no joystick and nothing on the line. -/
theorem quiet_alone : alone.Quiet := ⟨by simp [alone], by decide, by decide, rfl, rfl⟩

/-- `A!` on an MZ-700. -/
theorem typed_mode700 :
    let s := KeyInput.start (fun _ _ => 0) (releaseKeys { Machine.cold with mzMode := .mode700 })
    Typed .mode700 [0x41, 0x21] (shown (fun _ => alone) s [0x41, 0x21]) := by
  have htext : ∀ c ∈ [(0x41 : UInt8), 0x21], Mapped .mode700 c := by
    simp only [List.forall_mem_cons, List.not_mem_nil]
    exact ⟨⟨by decide, by decide, by decide, by decide⟩, ⟨by decide, by decide, by decide, by decide⟩,
      fun _ h => h.elim⟩
  exact (typed_iff (resting_start _ { Machine.cold with mzMode := .mode700 })
    (fun _ => quiet_alone) htext).mpr fun h => nomatch h

/-- `!` on an MZ-80 has a mapping and is lost. -/
theorem not_typed_bang :
    let s := KeyInput.start (fun _ _ => 0) (releaseKeys { Machine.cold with mzMode := .mode80 })
    Mapped .mode80 0x21 ∧ ¬ Typed .mode80 [0x21] (shown (fun _ => alone) s [0x21]) := by
  have hmapped : Mapped .mode80 0x21 := ⟨by decide, by decide, by decide, by decide⟩
  have htext : ∀ c ∈ [(0x21 : UInt8)], Mapped .mode80 c := by
    simp only [List.forall_mem_cons, List.not_mem_nil]
    exact ⟨hmapped, fun _ h => h.elim⟩
  exact ⟨hmapped, not_typed (resting_start _ { Machine.cold with mzMode := .mode80 })
    (fun _ => quiet_alone) htext rfl List.mem_cons_self⟩

end KeyInput

end M5Z80
