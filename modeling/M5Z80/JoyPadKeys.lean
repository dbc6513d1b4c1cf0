import M5Z80.Bus
import M5Z80.KeyUses
import M5Z80.Lib.Run
import M5Z80.Pressed

/-!
# M5Z80.JoyPadKeys

The cursor keys of the joystick over a sequence of polls.  The flags of the
four directions follow the matrix, and while the stick answers they follow
its thresholds, each with a gap of one value where nothing changes.  A poll
that finds no stick leaves `checkJoyPad` before any key goes up.
-/

namespace M5Z80

/-! ## directions -/

/-- The directions of the stick. -/
inductive Direction
  | u | d | l | r
deriving DecidableEq

namespace Direction

/-- Its flag. -/
def flag : Direction → JoyPadFlag
  | u => .u
  | d => .d
  | l => .l
  | r => .r

/-- The code of its cursor key. -/
def code : Direction → UInt8
  | u => 0x75
  | d => 0x74
  | l => 0x72
  | r => 0x73

/-- The position of its cursor key. -/
def position : Direction → Position
  | u => (7, 5)
  | d => (7, 4)
  | l => (7, 2)
  | r => (7, 3)

/-- The stick is at or beyond the threshold. -/
def Beyond (joyX joyY : UInt8) : Direction → Prop
  | u => joyX ≤ 80
  | d => 160 ≤ joyX
  | l => joyY ≤ 80
  | r => 160 ≤ joyY

/-- Where the flag is set. -/
def push (joyX joyY : UInt8) : Direction → Bool
  | u => joyX < 80
  | d => 160 < joyX
  | l => joyY < 80
  | r => 160 < joyY

/-- Where the flag is cleared. -/
def release (joyX joyY : UInt8) : Direction → Bool
  | u => 80 < joyX
  | d => joyX < 160
  | l => 80 < joyY
  | r => joyY < 160

/-- A direction is pushed or not released only at or beyond its threshold. -/
theorem beyond_of_pushed {joyX joyY : UInt8} {dir : Direction} {pushed : Bool}
    (h : (bif pushed then !dir.release joyX joyY else dir.push joyX joyY) = true) :
    dir.Beyond joyX joyY := by
  cases dir <;> cases pushed <;>
    simp only [push, release, Beyond, cond_true, cond_false, Bool.not_eq_true',
      decide_eq_true_eq, decide_eq_false_iff_not, UInt8.not_lt] at h ⊢ <;>
    first | exact h | exact UInt8.le_of_lt h

/-- The position of a direction is that of its key. -/
theorem position_mem (dir : Direction) : dir.position ∈ positions dir.code := by
  cases dir <;> rfl

/-- Each direction has a flag of its own. -/
theorem flag_injective {dir dir' : Direction} (h : dir ≠ dir') : dir.flag ≠ dir'.flag := by
  cases dir <;> cases dir' <;> first | exact absurd rfl h | decide

/-- No two directions share a key. -/
theorem position_notMem {dir dir' : Direction} (h : dir ≠ dir') :
    dir.position ∉ positions dir'.code := by
  intro hmem
  have hcode := code_eq_of_mem_positions dir.position_mem hmem
  revert hcode
  cases dir <;> cases dir' <;> first | exact absurd rfl h | decide

end Direction

/-! ## a poll -/

namespace JoyPad

/-- The cursor key of a direction is down. -/
def Down (j : JoyPad) (dir : Direction) : Prop := dir.position ∈ j.pressed

/-- The flags agree with the matrix. -/
def Agree (j : JoyPad) : Prop :=
  ∀ dir : Direction, j.Down dir ↔ j.joyPadPushed dir.flag = true

/-- A flag after its direction has been looked at: a push sets it, a release
clears it. -/
theorem pushed_cursor_self (flag : JoyPadFlag) (code : UInt8) (push release : Bool) (j : JoyPad) :
    (cursor flag code push release j).joyPadPushed flag =
      bif j.joyPadPushed flag then !release else push := by
  rw [cursor]
  cases hflag : j.joyPadPushed flag <;> cases push <;> cases release <;>
    simp [setPushed, hflag]

/-- A direction moves its own key with its flag. -/
theorem Agree.cursor {j : JoyPad} (h : j.Agree) (dir : Direction) (push release : Bool) :
    (cursor dir.flag dir.code push release j).Agree := by
  intro dir'
  by_cases hdir : dir' = dir
  · subst hdir
    have hmem := dir'.position_mem
    have hdown := h dir'
    rw [JoyPad.cursor]
    repeat' split
    · exact iff_of_true (by simp [Down, setPushed, hmem]) (Function.update_self _ _ _)
    · refine iff_of_false ?_ ?_
      · simp [Down, setPushed, hmem]
      · simp [setPushed]
    · exact hdown
  · have hflag := pushed_cursor (Direction.flag_injective hdir) dir.code push release j
    have hnotMem := Direction.position_notMem hdir
    rw [hflag, ← h dir', JoyPad.cursor]
    repeat' split
    all_goals simp [Down, setPushed, hnotMem]

/-- The buttons leave the matrix and the directions alone. -/
theorem down_buttons (buttonA buttonB : Int) (joyPress : UInt8) (j : JoyPad) :
    (pressStick joyPress (pressB buttonB (pressA buttonA j))).toKeyMatrix = j.toKeyMatrix ∧
      ∀ dir : Direction, (pressStick joyPress (pressB buttonB (pressA buttonA j))).joyPadPushed
        dir.flag = j.joyPadPushed dir.flag := by
  have hstick (j : JoyPad) : (pressStick joyPress j).toKeyMatrix = j.toKeyMatrix ∧
      ∀ dir : Direction, (pressStick joyPress j).joyPadPushed dir.flag =
        j.joyPadPushed dir.flag := by
    rw [pressStick]
    repeat' split
    all_goals exact ⟨rfl, fun dir => by cases dir <;> rfl⟩
  have hA (j : JoyPad) : (pressA buttonA j).toKeyMatrix = j.toKeyMatrix := by
    rw [pressA]
    repeat' split
    all_goals rfl
  have hB (j : JoyPad) : (pressB buttonB j).toKeyMatrix = j.toKeyMatrix := by
    rw [pressB]
    repeat' split
    all_goals rfl
  refine ⟨by rw [(hstick _).1, hB, hA], fun dir => ?_⟩
  rw [(hstick _).2, pushed_pressB (by cases dir <;> decide), pushed_pressA (by cases dir <;> decide)]

/-- The four directions of a stick that answers. -/
def cursors (joyX joyY : UInt8) (j : JoyPad) : JoyPad :=
  cursorR joyY (cursorL joyY (cursorD joyX (cursorU joyX j)))

/-- The four directions of the stick keep the flags and the keys in step. -/
theorem Agree.cursors {j : JoyPad} (h : j.Agree) (joyX joyY : UInt8) :
    (cursors joyX joyY j).Agree :=
  (((h.cursor .u _ _).cursor .d _ _).cursor .l _ _).cursor .r _ _

/-- Each flag after the four directions depends on its own. -/
theorem pushed_cursors (joyX joyY : UInt8) (j : JoyPad) (dir : Direction) :
    (cursors joyX joyY j).joyPadPushed dir.flag =
      bif j.joyPadPushed dir.flag then !dir.release joyX joyY else dir.push joyX joyY := by
  cases dir with
  | u =>
      change (cursors joyX joyY j).joyPadPushed .u = _
      rw [cursors, cursorR, pushed_cursor (by decide), cursorL, pushed_cursor (by decide), cursorD,
        pushed_cursor (by decide), cursorU, pushed_cursor_self]
      rfl
  | d =>
      change (cursors joyX joyY j).joyPadPushed .d = _
      rw [cursors, cursorR, pushed_cursor (by decide), cursorL, pushed_cursor (by decide), cursorD,
        pushed_cursor_self, cursorU, pushed_cursor (by decide)]
      rfl
  | l =>
      change (cursors joyX joyY j).joyPadPushed .l = _
      rw [cursors, cursorR, pushed_cursor (by decide), cursorL, pushed_cursor_self, cursorD,
        pushed_cursor (by decide), cursorU, pushed_cursor (by decide)]
      rfl
  | r =>
      change (cursors joyX joyY j).joyPadPushed .r = _
      rw [cursors, cursorR, pushed_cursor_self, cursorL, pushed_cursor (by decide), cursorD,
        pushed_cursor (by decide), cursorU, pushed_cursor (by decide)]
      rfl

/-- A cursor key does not change the mode of the machine. -/
theorem mode_cursor (flag : JoyPadFlag) (code : UInt8) (push release : Bool) (j : JoyPad) :
    (cursor flag code push release j).mode = j.mode := by
  rw [cursor]
  repeat' split
  · exact j.mode_setKeyport code _
  · exact j.mode_setKeyport code _
  · rfl

theorem mode_cursors (joyX joyY : UInt8) (j : JoyPad) : (cursors joyX joyY j).mode = j.mode := by
  rw [cursors, cursorR, mode_cursor, cursorL, mode_cursor, cursorD, mode_cursor, cursorU,
    mode_cursor]

/-- The stick answers, and not with a first byte of zero. -/
def Connected (input : JoyPadInput) : Prop := ∃ stick ∈ input.stick, stick.1 ≠ 0

/-- The stick answers at or beyond the threshold of a direction. -/
def Pushes (input : JoyPadInput) (dir : Direction) : Prop :=
  ∃ stick ∈ input.stick, stick.1 ≠ 0 ∧ dir.Beyond stick.1 stick.2.1

/-- A poll without a stick does nothing. -/
theorem checkJoyPad_of_not_connected {input : JoyPadInput} (h : ¬ Connected input) (j : JoyPad) :
    checkJoyPad input j = j := by
  rw [checkJoyPad]
  split
  · rfl
  · split
    · rfl
    next stick hstick =>
      split
      · rfl
      next hpresent => exact absurd ⟨_, hstick, hpresent⟩ h

/-- After a poll of a stick that answers, the flags agree with the matrix and
are set only at or beyond their thresholds. -/
theorem agree_checkJoyPad {input : JoyPadInput} {j : JoyPad} (hmode : j.mode = .mode700)
    (h : j.Agree) (hconnected : Connected input) :
    (checkJoyPad input j).mode = .mode700 ∧ (checkJoyPad input j).Agree ∧
      ∀ dir : Direction, (checkJoyPad input j).joyPadPushed dir.flag = true →
        Pushes input dir := by
  obtain ⟨⟨joyX, joyY, joyPress⟩, hstick, hpresent⟩ := hconnected
  obtain ⟨hmatrix, hflags⟩ :=
    down_buttons input.buttonA input.buttonB joyPress (cursors joyX joyY j)
  have heq : checkJoyPad input j = pressStick joyPress (pressB input.buttonB
      (pressA input.buttonA (cursors joyX joyY j))) := by
    rw [checkJoyPad, if_neg (not_not.mpr hmode), hstick]
    exact if_neg hpresent
  rw [heq]
  refine ⟨?_, fun dir => ?_, fun dir hpushed => ⟨_, hstick, hpresent, ?_⟩⟩
  · rw [KeyMatrix.mode, hmatrix]
    exact (mode_cursors joyX joyY j).trans hmode
  · rw [hflags, ← h.cursors joyX joyY dir, Down, hmatrix]
    rfl
  · rw [hflags, pushed_cursors] at hpushed
    exact Direction.beyond_of_pushed hpushed

/-! ## sequences of polls -/

/-- Opposite directions are not both pushed. -/
def NoOpposites (pushed : Direction → Prop) : Prop :=
  ¬ (pushed .u ∧ pushed .d) ∧ ¬ (pushed .l ∧ pushed .r)

/-- A stick cannot be pushed in opposite directions at once. -/
theorem noOpposites_pushes (input : JoyPadInput) : NoOpposites (Pushes input) := by
  constructor
  · rintro ⟨⟨stick, hstick, -, hu⟩, stick', hstick', -, hd⟩
    obtain rfl := Option.some.inj (hstick.symm.trans hstick')
    exact absurd (UInt8.le_trans hd hu) (by decide)
  · rintro ⟨⟨stick, hstick, -, hl⟩, stick', hstick', -, hr⟩
    obtain rfl := Option.some.inj (hstick.symm.trans hstick')
    exact absurd (UInt8.le_trans hr hl) (by decide)

/-- Fewer pushes are no more opposite. -/
theorem NoOpposites.mono {pushed pushed' : Direction → Prop} (h : NoOpposites pushed)
    (hle : ∀ dir, pushed' dir → pushed dir) : NoOpposites pushed' :=
  ⟨fun ⟨hu, hd⟩ => h.1 ⟨hle _ hu, hle _ hd⟩, fun ⟨hl, hr⟩ => h.2 ⟨hle _ hl, hle _ hr⟩⟩

/-- What a poll with `input` leaves behind. -/
structure Unstuck (input : JoyPadInput) (j : JoyPad) : Prop where
  down : ∀ dir, j.Down dir → Pushes input dir
  opposites : NoOpposites j.Down
  agree : j.Agree

/-- What every poll keeps. -/
structure Polled (j : JoyPad) : Prop where
  mode : j.mode = .mode700
  agree : j.Agree
  opposites : NoOpposites j.Down

/-- A poll keeps it, whether the stick answers or not. -/
theorem Polled.checkJoyPad {j : JoyPad} (h : j.Polled) (input : JoyPadInput) :
    (checkJoyPad input j).Polled := by
  by_cases hconnected : Connected input
  · obtain ⟨hmode, hagree, hpushes⟩ := agree_checkJoyPad h.mode h.agree hconnected
    exact ⟨hmode, hagree, (noOpposites_pushes input).mono fun dir hdown =>
      hpushes dir ((hagree dir).mp hdown)⟩
  · rw [checkJoyPad_of_not_connected hconnected]
    exact h

/-- A poll leaves no key stuck exactly when the stick answers or no direction
was pushed before. -/
theorem unstuck_checkJoyPad_iff {j : JoyPad} (h : j.Polled) (input : JoyPadInput) :
    Unstuck input (checkJoyPad input j) ↔
      (Connected input ∨ ∀ dir : Direction, j.joyPadPushed dir.flag = false) := by
  have hpolled := h.checkJoyPad input
  by_cases hconnected : Connected input
  · obtain ⟨-, hagree, hpushes⟩ := agree_checkJoyPad h.mode h.agree hconnected
    exact iff_of_true ⟨fun dir hdown => hpushes dir ((hagree dir).mp hdown), hpolled.opposites,
      hagree⟩ (.inl hconnected)
  · rw [or_iff_right hconnected, checkJoyPad_of_not_connected hconnected]
    constructor
    · intro hunstuck dir
      rw [← Bool.not_eq_true, ← h.agree dir]
      intro hdown
      obtain ⟨stick, hstick, hpresent, -⟩ := hunstuck.down dir hdown
      exact hconnected ⟨stick, hstick, hpresent⟩
    · intro hnone
      refine ⟨fun dir hdown => ?_, h.opposites, h.agree⟩
      rw [h.agree dir, hnone dir] at hdown
      exact absurd hdown Bool.false_ne_true

/-- With nothing pressed. -/
theorem polled_of_none {j : JoyPad} (hmode : j.mode = .mode700) (hpressed : j.pressed = ∅)
    (hpushed : ∀ dir : Direction, j.joyPadPushed dir.flag = false) : j.Polled := by
  have hup : ∀ dir, ¬ j.Down dir := by
    intro dir hdown
    rw [Down, hpressed] at hdown
    exact hdown
  refine ⟨hmode, fun dir => ?_, fun h => hup _ h.1, fun h => hup _ h.1⟩
  exact iff_of_false (hup dir) (by simp [hpushed dir])

/-- Over any sequence of polls that begins with nothing pressed, no key of the
joystick sticks exactly when the stick answers every poll that finds a
direction pushed. -/
theorem unstuck_polls_iff {j : JoyPad} (hmode : j.mode = .mode700) (hpressed : j.pressed = ∅)
    (hpushed : ∀ dir : Direction, j.joyPadPushed dir.flag = false) (polls : List JoyPadInput) :
    Run.Along checkJoyPad (fun j input => Unstuck input (checkJoyPad input j)) polls j ↔
      Run.Along checkJoyPad (fun j input =>
        Connected input ∨ ∀ dir : Direction, j.joyPadPushed dir.flag = false) polls j :=
  Run.along_congr (P := Polled) (fun _ input h => unstuck_checkJoyPad_iff h input)
    (fun _ input h _ => h.checkJoyPad input) polls (polled_of_none hmode hpressed hpushed)

/-- The joystick of a machine that has just been started. -/
def start : JoyPad := (KeyInput.start (fun _ _ => 0) (releaseKeys Machine.cold)).toJoyPad

/-- A poll that finds these bytes, if any, and no button. -/
def sample (stick : Option (UInt8 × UInt8 × UInt8)) : JoyPadInput where
  stick := stick
  buttonA := 0
  buttonB := 0

/-- At first no key is down. -/
theorem pressed_start : start.pressed = ∅ := BitRows.low_allOnes

/-- The stick is pushed up, let go and taken off. -/
theorem unstuck_let_go :
    Run.Along checkJoyPad (fun j input => Unstuck input (checkJoyPad input j))
      [sample (some (40, 128, 0)), sample (some (128, 128, 0)), sample none] start := by
  refine (unstuck_polls_iff rfl pressed_start (fun dir => by cases dir <;> rfl) _).mpr
    ⟨.inl ⟨_, rfl, by decide⟩, .inl ⟨_, rfl, by decide⟩, .inr fun dir => ?_, trivial⟩
  cases dir <;> rfl

/-- The stick is taken off while it is pushed up: the key stays down. -/
theorem not_unstuck_taken_off :
    ¬ Run.Along checkJoyPad (fun j input => Unstuck input (checkJoyPad input j))
      [sample (some (40, 128, 0)), sample none] start := by
  intro h
  have hunstuck := h.2.1
  have hpushed : (checkJoyPad (sample none)
      (checkJoyPad (sample (some (40, 128, 0))) start)).joyPadPushed .u = true := rfl
  obtain ⟨stick, hstick, -⟩ := hunstuck.down .u ((hunstuck.agree .u).mpr hpushed)
  exact nomatch hstick

end JoyPad

end M5Z80
