import M5Z80.Keyboard
import M5Z80.Lib.Guarded

/-!
# M5Z80.KeyUses

The uses of the key tables and the matrix that are in range: single lookups
and codes, and the joystick, whose codes are all in the matrix.
-/

namespace M5Z80

/-! ## the key matrix -/

/-- A HID key that has a code, or that `keyboard` leaves alone. -/
def HidKeyOk (mode : MzMode) (key : UInt8) : Prop :=
  key = 0 ∨ 232 ≤ key ∨
    ∃ code ∈ (KeyTable.hidToEmu.entries mode)[key.toNat]?, code ≠ 0xFF

namespace KeyMatrix

/-- Every use so far is in range. -/
def InRange (k : KeyMatrix) : Prop := ∀ u ∈ k.uses, u.InRange

/-- A key of the matrix is set in a row that exists exactly if its code is in the matrix. -/
@[simp] theorem inRange_setKeyport (code : UInt8) (f : UInt8 → UInt8) (k : KeyMatrix) :
    (k.setKeyport code f).InRange ↔ MatrixCode code ∧ k.InRange := by
  have huses : (k.setKeyport code f).uses = .matrix code :: k.uses := by
    rw [setKeyport]
    split <;> rfl
  rw [InRange, huses, List.forall_mem_cons]
  rfl

@[simp] theorem inRange_mzKeydownSub (code : UInt8) (k : KeyMatrix) :
    (k.mzKeydownSub code).InRange ↔ MatrixCode code ∧ k.InRange :=
  inRange_setKeyport code _ k

@[simp] theorem inRange_mzKeyupSub (code : UInt8) (k : KeyMatrix) :
    (k.mzKeyupSub code).InRange ↔ MatrixCode code ∧ k.InRange :=
  inRange_setKeyport code _ k

/-- A look at a table is in range exactly if the index is. -/
@[simp] theorem inRange_look (t : KeyTable) (i : UInt8) (k : KeyMatrix) :
    (k.look t i).InRange ↔ i.toNat < t.size ∧ k.InRange := by
  rw [InRange, look, List.forall_mem_cons]
  rfl

@[simp] theorem mode_setKeyport (code : UInt8) (f : UInt8 → UInt8) (k : KeyMatrix) :
    (k.setKeyport code f).mode = k.mode := by
  rw [setKeyport]
  split <;> rfl

/-- To set a key does not change what the tables hold beyond their ends. -/
@[simp] theorem past_setKeyport (code : UInt8) (f : UInt8 → UInt8) (k : KeyMatrix) :
    (k.setKeyport code f).past = k.past := by
  rw [setKeyport]
  split <;> rfl

/-! ### entries -/

/-- In range, an entry is one of the table. -/
theorem entry_eq {t : KeyTable} {i : UInt8} (k : KeyMatrix) (h : i.toNat < t.size) :
    (t.entries k.mode)[i.toNat]? = some (k.entry t i) := by
  rw [← t.length_entries k.mode] at h
  rw [entry, List.getElem?_eq_getElem h, Option.getD_some]

/-- An entry of a table is a code of the matrix unless it is `FF`. -/
theorem matrixCode_entry {t : KeyTable} {i : UInt8} (k : KeyMatrix) (h : i.toNat < t.size) :
    MatrixCode (k.entry t i) ↔ k.entry t i ≠ 0xFF :=
  t.matrixCode_iff k.mode _ (List.mem_of_getElem? (k.entry_eq h))

/-- The entries of a shifted character. -/
theorem matrixCode_akTblS {i : UInt8} {k : KeyMatrix} (h : i.toNat < 128)
    (hshift : k.entry .akTbl i = shiftCode k.mode) : MatrixCode (k.entry .akTblS i) := by
  have hakTbl := k.entry_eq (t := .akTbl) h
  rw [hshift] at hakTbl
  have hall := akTblS_of_shift k.mode i.toNat h hakTbl
  rw [k.entry_eq (t := .akTblS) h] at hall
  exact of_decide_eq_true hall

/-- The lookup of a HID key and its use. -/
theorem hidKeyOk_iff {key : UInt8} {k : KeyMatrix} (h : 0 < key ∧ key < 232) :
    key.toNat < KeyTable.hidToEmu.size ∧ MatrixCode (k.entry .hidToEmu key) ↔
      HidKeyOk k.mode key := by
  have hzero : key ≠ 0 := by
    rintro rfl
    exact absurd h.1 (by decide)
  have hlarge : ¬ 232 ≤ key := UInt8.not_le.mpr h.2
  rw [HidKeyOk, or_iff_right hzero, or_iff_right hlarge]
  constructor
  · intro ⟨hlt, hcode⟩
    exact ⟨_, k.entry_eq hlt, (k.matrixCode_entry hlt).mp hcode⟩
  · rintro ⟨code, hcode, hne⟩
    obtain ⟨hlt, -⟩ := List.getElem?_eq_some_iff.mp hcode
    rw [KeyTable.length_entries] at hlt
    refine ⟨hlt, (k.matrixCode_entry hlt).mpr ?_⟩
    rw [k.entry_eq hlt] at hcode
    rwa [Option.some.inj hcode]

end KeyMatrix

/-! ## joystick -/

namespace JoyPad

/-- Nothing is queued. -/
def Idle (j : JoyPad) : Prop := j.inputStringEx = [] ∧ j.inputStringMode = false

/-- The buttons of the joystick have something to queue in this call. -/
def Queues (input : JoyPadInput) (j : JoyPad) : Prop :=
  j.mode = .mode700 ∧ ∃ stick ∈ input.stick, stick.1 ≠ 0 ∧
    (j.joyPadPushed .a = false ∧ input.buttonA = 1 ∨
      j.joyPadPushed .b = false ∧ input.buttonB = 1 ∨
      j.joyPadPushed .press = false ∧ stick.2.2 = 1)

/-- What is queued depends on the mode and the flags. -/
theorem queues_congr {j j' : JoyPad} (hmode : j'.mode = j.mode)
    (hpushed : j'.joyPadPushed = j.joyPadPushed) (input : JoyPadInput) :
    j'.Queues input ↔ j.Queues input := by
  rw [Queues, Queues, hmode, hpushed]

/-- What is queued are characters. -/
def Characters (j : JoyPad) : Prop := ∀ c ∈ j.inputStringEx, c ≠ 0 ∧ c < 128

/-- A call that uses nothing out of range and queues characters. -/
abbrev Tame (j j' : JoyPad) : Prop :=
  Run.Guarded (fun j : JoyPad => j.InRange) Characters j True j'

/-- A cursor key presses and releases keys of the matrix. -/
theorem tame_cursor (flag : JoyPadFlag) {code : UInt8} (hcode : MatrixCode code)
    (push release : Bool) (j : JoyPad) : Tame j (cursor flag code push release j) := by
  rw [cursor]
  split
  · exact .skip ((j.inRange_mzKeydownSub code).trans (and_iff_right hcode)) id
  · split
    · exact .skip ((j.inRange_mzKeyupSub code).trans (and_iff_right hcode)) id
    · exact .refl j

/-- Button A queues its keys. -/
theorem tame_pressA (buttonA : Int) (j : JoyPad) : Tame j (pressA buttonA j) := by
  have hqueued : ∀ c ∈ [(0x20 : UInt8), 0x31, 0x43], c ≠ 0 ∧ c < 128 := by simp
  rw [pressA]
  repeat' split
  · exact .skip Iff.rfl fun _ => hqueued
  all_goals exact .skip Iff.rfl id

/-- Button B queues its keys. -/
theorem tame_pressB (buttonB : Int) (j : JoyPad) : Tame j (pressB buttonB j) := by
  have hqueued : ∀ c ∈ [(0x33 : UInt8), 0x53], c ≠ 0 ∧ c < 128 := by simp
  rw [pressB]
  repeat' split
  · exact .skip Iff.rfl fun _ => hqueued
  all_goals exact .skip Iff.rfl id

/-- The button of the stick queues its keys. -/
theorem tame_pressStick (joyPress : UInt8) (j : JoyPad) : Tame j (pressStick joyPress j) := by
  have hqueued : ∀ c ∈ [(0x73 : UInt8)], c ≠ 0 ∧ c < 128 := by simp
  rw [pressStick]
  repeat' split
  · exact .skip Iff.rfl fun _ => hqueued
  all_goals exact .skip Iff.rfl id

/-- A poll of the joystick leaves no access outside. -/
theorem tame_checkJoyPad (input : JoyPadInput) (j : JoyPad) : Tame j (checkJoyPad input j) := by
  rw [checkJoyPad]
  split
  · exact .refl j
  · split
    · exact .refl j
    next joyX joyY joyPress _ =>
      split
      · exact .refl j
      · have hu : Tame j (cursorU joyX j) := tame_cursor .u (by decide) _ _ j
        have hd : Tame j (cursorD joyX _) := hu.after (tame_cursor .d (by decide) _ _ _)
        have hl : Tame j (cursorL joyY _) := hd.after (tame_cursor .l (by decide) _ _ _)
        have hr : Tame j (cursorR joyY _) := hl.after (tame_cursor .r (by decide) _ _ _)
        exact ((hr.after (tame_pressA input.buttonA _)).after (tame_pressB input.buttonB _)).after
          (tame_pressStick joyPress _)

/-! ### the queue -/

/-- A cursor key queues nothing. -/
theorem idle_cursor (flag : JoyPadFlag) (code : UInt8) (push release : Bool) (j : JoyPad) :
    (cursor flag code push release j).Idle ↔ j.Idle := by
  rw [cursor]
  repeat' split
  all_goals rfl

/-- A cursor key sets its own flag only. -/
theorem pushed_cursor {flag flag' : JoyPadFlag} (hne : flag' ≠ flag) (code : UInt8)
    (push release : Bool) (j : JoyPad) :
    (cursor flag code push release j).joyPadPushed flag' = j.joyPadPushed flag' := by
  rw [cursor]
  repeat' split
  · exact Function.update_of_ne hne _ _
  · exact Function.update_of_ne hne _ _
  · rfl

/-- Button A queues something when it is pressed anew. -/
theorem idle_pressA (buttonA : Int) (j : JoyPad) :
    (pressA buttonA j).Idle ↔ j.Idle ∧ ¬ (j.joyPadPushed .a = false ∧ buttonA = 1) := by
  rw [pressA]
  repeat' split
  all_goals simp_all [Idle, setPushed]

/-- Button A sets its own flag only. -/
theorem pushed_pressA {flag : JoyPadFlag} (hne : flag ≠ .a) (buttonA : Int) (j : JoyPad) :
    (pressA buttonA j).joyPadPushed flag = j.joyPadPushed flag := by
  rw [pressA]
  repeat' split
  all_goals first | rfl | exact Function.update_of_ne hne _ _

/-- Button B queues something when it is pressed anew. -/
theorem idle_pressB (buttonB : Int) (j : JoyPad) :
    (pressB buttonB j).Idle ↔ j.Idle ∧ ¬ (j.joyPadPushed .b = false ∧ buttonB = 1) := by
  rw [pressB]
  repeat' split
  all_goals simp_all [Idle, setPushed]

/-- Button B sets its own flag only. -/
theorem pushed_pressB {flag : JoyPadFlag} (hne : flag ≠ .b) (buttonB : Int) (j : JoyPad) :
    (pressB buttonB j).joyPadPushed flag = j.joyPadPushed flag := by
  rw [pressB]
  repeat' split
  all_goals first | rfl | exact Function.update_of_ne hne _ _

/-- The button of the stick queues something when it is pressed anew. -/
theorem idle_pressStick (joyPress : UInt8) (j : JoyPad) :
    (pressStick joyPress j).Idle ↔
      j.Idle ∧ ¬ (j.joyPadPushed .press = false ∧ joyPress = 1) := by
  rw [pressStick]
  repeat' split
  all_goals simp_all [Idle, setPushed]

/-- After the joystick nothing is queued if nothing was and its buttons have
nothing to queue. -/
theorem idle_checkJoyPad (input : JoyPadInput) (j : JoyPad) :
    (checkJoyPad input j).Idle ↔ j.Idle ∧ ¬ j.Queues input := by
  rw [checkJoyPad, Queues]
  split
  next hmode => exact (and_iff_left fun h => hmode h.1).symm
  next hmode =>
    rw [not_not] at hmode
    rw [hmode]
    cases hstick : input.stick with
    | none => simp
    | some stick =>
        obtain ⟨joyX, joyY, joyPress⟩ := stick
        dsimp only
        split
        next habsent => simp [habsent]
        next hpresent =>
          have hpushed (flag : JoyPadFlag) (hu : flag ≠ .u) (hd : flag ≠ .d) (hl : flag ≠ .l)
              (hr : flag ≠ .r) :
              (cursorR joyY (cursorL joyY (cursorD joyX (cursorU joyX j)))).joyPadPushed flag =
                j.joyPadPushed flag := by
            rw [cursorR, pushed_cursor hr, cursorL, pushed_cursor hl, cursorD, pushed_cursor hd,
              cursorU, pushed_cursor hu]
          rw [idle_pressStick, idle_pressB, idle_pressA, pushed_pressB (by decide),
            pushed_pressA (by decide), pushed_pressA (by decide),
            hpushed .a (by decide) (by decide) (by decide) (by decide),
            hpushed .b (by decide) (by decide) (by decide) (by decide),
            hpushed .press (by decide) (by decide) (by decide) (by decide)]
          rw [cursorR, idle_cursor, cursorL, idle_cursor, cursorD, idle_cursor, cursorU,
            idle_cursor]
          simp only [Option.mem_def, Option.some.injEq, exists_eq_left', ne_eq, hpresent,
            not_false_eq_true, true_and, not_or, and_assoc]

end JoyPad

end M5Z80
