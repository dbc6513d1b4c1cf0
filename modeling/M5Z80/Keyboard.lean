import M5Z80.KeyTables
import M5Z80.MonitorRom

/-!
# M5Z80.Keyboard

The key input of `Mzmain.cpp`: the HID keyboard (`keyboard`) and what
`keyCheck` polls, which is the joystick, queued strings, the serial line, the
I2C keyboards and the automatic play.  All of them end in `mz_keydown_sub`
and `mz_keyup_sub` of `MZhw.cpp`, which set the bits of `keyports`.

`past` is what memory holds behind the tables.  A `char` is unsigned, as it
is on the ESP32; `preKeyCode`, an `int` that is -1 when no key is held, is
`none` there.
-/

namespace M5Z80

/-! ## the key matrix -/

/-- What the key input does without leaving a mark: the lookups in its tables
and the codes it hands to `mz_keydown_sub` and `mz_keyup_sub`. -/
inductive KeyUse
  | look (t : KeyTable) (i : Nat)
  | matrix (code : UInt8)
deriving DecidableEq

/-- A lookup is inside its table, a code inside the matrix. -/
def KeyUse.InRange : KeyUse → Prop
  | .look t i => i < t.size
  | .matrix code => MatrixCode code

/-- The machine whose `keyports` the keys are in.  `uses` is the latest use
first. -/
structure KeyMatrix where
  machine : Machine
  past : KeyTable → Nat → UInt8
  uses : List KeyUse

/-- `1 << b` for the lower half of a code. -/
def keyBit (code : UInt8) : UInt8 := ((1 : UInt32) <<< (code &&& 0x0F).toUInt32).toUInt8

namespace KeyMatrix

/-- `mzConfig.mzMode`. -/
def mode (k : KeyMatrix) : MzMode := k.machine.mzMode

/-- `keyports[n]` assigned, for the row `n` of a code.  A write to another
row leaves the matrix. -/
def setKeyport (code : UInt8) (f : UInt8 → UInt8) (k : KeyMatrix) : KeyMatrix :=
  let k := { k with uses := .matrix code :: k.uses }
  if h : (code >>> 4).toNat < 10 then
    { k with machine.keyports :=
        Function.update k.machine.keyports ⟨_, h⟩ (f (k.machine.keyports ⟨_, h⟩)) }
  else k

/-- `mz_keydown_sub`. -/
def mzKeydownSub (code : UInt8) (k : KeyMatrix) : KeyMatrix :=
  k.setKeyport code (· &&& ~~~ keyBit code)

/-- `mz_keyup_sub`. -/
def mzKeyupSub (code : UInt8) (k : KeyMatrix) : KeyMatrix :=
  k.setKeyport code (· ||| keyBit code)

/-- Entry `i` of a table. -/
def entry (t : KeyTable) (i : UInt8) (k : KeyMatrix) : UInt8 :=
  ((t.entries k.mode)[i.toNat]?).getD (k.past t i.toNat)

/-- Note a lookup of entry `i`. -/
def look (t : KeyTable) (i : UInt8) (k : KeyMatrix) : KeyMatrix :=
  { k with uses := .look t i.toNat :: k.uses }

end KeyMatrix

/-! ## joystick -/

/-- The flags `joyPadPushed_U` to `joyPadPushed_Press`. -/
inductive JoyPadFlag
  | u | d | l | r | a | b | press
deriving DecidableEq

/-- What a call of `checkJoyPad` finds: the three bytes of the stick, if it
answers, and the variables for its buttons, which nothing assigns. -/
structure JoyPadInput where
  stick : Option (UInt8 × UInt8 × UInt8)
  buttonA : Int
  buttonB : Int

/-- The key matrix, the flags of the joystick and the queue its buttons
fill. -/
structure JoyPad extends KeyMatrix where
  joyPadPushed : JoyPadFlag → Bool
  inputStringEx : List UInt8
  inputStringMode : Bool

namespace JoyPad

/-- Assignment to a flag. -/
def setPushed (flag : JoyPadFlag) (v : Bool) (j : JoyPad) : JoyPad :=
  { j with joyPadPushed := Function.update j.joyPadPushed flag v }

/-- A direction of the stick and its cursor key. -/
def cursor (flag : JoyPadFlag) (code : UInt8) (push release : Bool) (j : JoyPad) : JoyPad :=
  if j.joyPadPushed flag = false ∧ push = true then
    { j with toKeyMatrix := j.mzKeydownSub code }.setPushed flag true
  else if j.joyPadPushed flag = true ∧ release = true then
    { j with toKeyMatrix := j.mzKeyupSub code }.setPushed flag false
  else j

/-- Cursor up. -/
def cursorU (joyX : UInt8) : JoyPad → JoyPad := cursor .u 0x75 (joyX < 80) (80 < joyX)

/-- Cursor down. -/
def cursorD (joyX : UInt8) : JoyPad → JoyPad := cursor .d 0x74 (160 < joyX) (joyX < 160)

/-- Cursor left. -/
def cursorL (joyY : UInt8) : JoyPad → JoyPad := cursor .l 0x72 (joyY < 80) (80 < joyY)

/-- Cursor right. -/
def cursorR (joyY : UInt8) : JoyPad → JoyPad := cursor .r 0x73 (160 < joyY) (joyY < 160)

/-- Button A types a space, `1` and CTRL. -/
def pressA (buttonA : Int) (j : JoyPad) : JoyPad :=
  if j.joyPadPushed .a = false ∧ buttonA = 1 then
    (if j.inputStringEx = [] then { j with inputStringEx := [0x20, 0x31, 0x43] } else j).setPushed
      .a true
  else if j.joyPadPushed .a = true ∧ buttonA = 0 then j.setPushed .a false
  else j

/-- Button B types `3` and SHIFT; its flag is never set. -/
def pressB (buttonB : Int) (j : JoyPad) : JoyPad :=
  if j.joyPadPushed .b = false ∧ buttonB = 1 then
    if j.inputStringEx = [] then { j with inputStringEx := [0x33, 0x53] } else j
  else if j.joyPadPushed .b = true ∧ buttonB = 0 then j.setPushed .b false
  else j

/-- A press of the stick types `s` and CR. -/
def pressStick (joyPress : UInt8) (j : JoyPad) : JoyPad :=
  if j.joyPadPushed .press = false ∧ joyPress = 1 then
    (if j.inputStringEx = [] then { j with inputStringEx := [0x73], inputStringMode := true }
      else j).setPushed .press true
  else if j.joyPadPushed .press = true ∧ joyPress = 0 then j.setPushed .press false
  else j

/-- `checkJoyPad`.  A stick whose first byte is zero counts as absent. -/
def checkJoyPad (input : JoyPadInput) (j : JoyPad) : JoyPad :=
  if j.mode ≠ .mode700 then j
  else match input.stick with
    | none => j
    | some (joyX, joyY, joyPress) =>
        if joyX = 0 then j
        else pressStick joyPress (pressB input.buttonB (pressA input.buttonA
          (cursorR joyY (cursorL joyY (cursorD joyX (cursorU joyX j))))))

end JoyPad

/-! ## serial line -/

/-- The bytes that wait on the serial line, the last key of it and the request
for a break. -/
structure SerialLine where
  serial : List UInt8
  serialKeyCode : UInt8
  sendBreakFlag : Bool

namespace SerialLine

/-- The `n`-th `Serial.read()` of a call, in a `char`: the -1 of an empty
buffer is 255. -/
def read (line : SerialLine) (n : Nat) : UInt8 := line.serial.getD n 255

/-- The key of an escape sequence, by its third byte. -/
def escapeKey (code : UInt8) : UInt8 :=
  if code = 65 then 0x12
  else if code = 66 then 0x11
  else if code = 67 then 0x13
  else if code = 68 then 0x14
  else if code = 49 then 0x15
  else if code = 52 then 0x16
  else if code = 50 then 0x18
  else 0

/-- What `checkSerialKey` reads after an escape. -/
def escape (line : SerialLine) : SerialLine :=
  if line.read 1 = 91 then { line with serialKeyCode := escapeKey (line.read 2) }
  else if line.read 1 = 255 then { line with serialKeyCode := 0, sendBreakFlag := true }
  else { line with serialKeyCode := line.read 1 }

/-- `checkSerialKey`.  The key returned is the new `serialKeyCode`. -/
def checkSerialKey (line : SerialLine) : SerialLine :=
  if line.serial = [] then line
  else
    let line := if line.read 0 = 27 then line.escape
      else { line with serialKeyCode := line.read 0 }
    let line := if line.serialKeyCode = 127 then { line with serialKeyCode := 0x17 } else line
    { line with serial := [] }

end SerialLine

/-! ## I2C keyboards -/

/-- What a call of `keyCheck` finds outside: the joystick, a byte from the
CardKB and the FACES keyboard if they answer, and the time. -/
structure KeyWorld where
  joyPad : JoyPadInput
  cardKb : Option UInt8
  facesKb : Option UInt8
  nowMillis : Int

/-- The keys of the CardKB that are translated, with their characters. -/
def cardKbKeys : List (UInt8 × UInt8) :=
  [(0xB5, 0x12), (0xB6, 0x11), (0xB7, 0x13), (0xB4, 0x14), (0x99, 0x15), (0xA4, 0x16),
   (0xA5, 0x18), (0x08, 0x17), (0x8C, 0x0A), (0x8B, 0x0B)]

/-- The keys of the FACES keyboard that are translated. -/
def facesKeys : List (UInt8 × UInt8) :=
  [(183, 0x12), (193, 0x13), (192, 0x11), (191, 0x14), (187, 0x15), (188, 0x16), (184, 0x18),
   (0x08, 0x17), (186, 0x09), (189, 0x0A), (190, 0x0B)]

/-- A key as a keyboard's `switch` translates it. -/
def translate (keys : List (UInt8 × UInt8)) (code : UInt8) : UInt8 :=
  (keys.lookup code).getD code

/-! ## key input -/

/-- Everything the key input keeps between two calls. -/
structure KeyInput extends JoyPad, SerialLine where
  lastKey : UInt8
  keyCheckCount : Nat
  preKeyCode : Option UInt8
  delayInputKeyCode : UInt8
  i2cCheckCount : Nat
  wonderHouseMode : Bool
  wonderHouseKeyIndex : Nat
  wonderHouseKeyDelayMillis : Int

namespace KeyInput

/-- `shift_code`. -/
def shiftCode (s : KeyInput) : UInt8 := M5Z80.shiftCode s.mode

/-- A change of the key matrix. -/
def onMatrix (f : KeyMatrix → KeyMatrix) (s : KeyInput) : KeyInput :=
  { s with toKeyMatrix := f s.toKeyMatrix }

/-- `mz_keydown_sub`. -/
def keydown (code : UInt8) : KeyInput → KeyInput := onMatrix (KeyMatrix.mzKeydownSub code)

/-- `mz_keyup_sub`. -/
def keyup (code : UInt8) : KeyInput → KeyInput := onMatrix (KeyMatrix.mzKeyupSub code)

/-- A lookup noted. -/
def look (t : KeyTable) (i : UInt8) : KeyInput → KeyInput := onMatrix (KeyMatrix.look t i)

/-! ### HID keyboard -/

/-- Release of the key of the last report. -/
def releaseLast (s : KeyInput) : KeyInput :=
  if 0 < s.lastKey ∧ s.lastKey < 232 then
    (s.look .hidToEmu s.lastKey).keyup (s.entry .hidToEmu s.lastKey)
  else s

/-- Press of the key of a report. -/
def pressNew (keyCode : UInt8) (s : KeyInput) : KeyInput :=
  if 0 < keyCode ∧ keyCode < 232 then
    (s.look .hidToEmu keyCode).keydown (s.entry .hidToEmu keyCode)
  else s

/-- The shift key as the modifiers of a report have it. -/
def reportShift (mods : UInt8) (s : KeyInput) : KeyInput :=
  if 0 < mods &&& 0x22 then s.keydown s.shiftCode else s.keyup s.shiftCode

/-- `keyboard`: a report with the modifiers `mods` and the first key
`keyCode`. -/
def keyboard (mods keyCode : UInt8) (s : KeyInput) : KeyInput :=
  let s := s.reportShift mods
  if keyCode ≠ s.lastKey then pressNew keyCode { s.releaseLast with lastKey := keyCode } else s

/-! ### sources of `keyCheck` -/

/-- `checkI2cKeyboard`: one call in fifty asks the keyboards, the second of
which is heard if both answer. -/
def checkI2cKeyboard (w : KeyWorld) (s : KeyInput) : UInt8 × KeyInput :=
  let s := { s with i2cCheckCount := s.i2cCheckCount + 1 }
  if s.i2cCheckCount < 50 then (0, s)
  else
    let s := { s with i2cCheckCount := 0 }
    let i2cKeyCode := w.facesKb.getD (w.cardKb.getD 0)
    if i2cKeyCode = 0 then (0, s)
    else if w.facesKb.isNone then
      if i2cKeyCode = 0x1B then (0, { s with sendBreakFlag := true })
      else (translate cardKbKeys i2cKeyCode, s)
    else if i2cKeyCode = 175 then (0, { s with sendBreakFlag := true })
    else (translate facesKeys i2cKeyCode, s)

/-- The pause after key `i` of the automatic play. -/
def wonderHousePause (i : Nat) (inputKey : UInt8) : Int :=
  if i = 0 then 200 * 10
  else if i = 1 then 1000 * 10
  else if inputKey = 0x0A then 1000 * 5
  else 100

/-- `wonderHouseKey`. -/
def wonderHouseKey (nowMillis : Int) (s : KeyInput) : UInt8 × KeyInput :=
  if s.wonderHouseMode = false then (0, s)
  else if nowMillis ≤ s.wonderHouseKeyDelayMillis then (0, s)
  else
    let i := s.wonderHouseKeyIndex
    let inputKey := wonderHouseKeyData.getD i 0
    if inputKey = 0x45 then (0, { s with wonderHouseMode := false })
    else
      (if 1 < i ∧ inputKey = 0x0A then 0x0D else inputKey,
        { s with
          wonderHouseKeyDelayMillis := nowMillis + wonderHousePause i inputKey
          wonderHouseKeyIndex := i + 1 })

/-- The sources that `keyCheck` asks in turn while none has a key. -/
def pollKeys (w : KeyWorld) (s : KeyInput) : UInt8 × KeyInput :=
  let s := { s with toSerialLine := s.checkSerialKey }
  if s.serialKeyCode ≠ 0 then (s.serialKeyCode, s)
  else
    let r := s.checkI2cKeyboard w
    if r.1 ≠ 0 then r
    else if r.2.wonderHouseMode then r.2.wonderHouseKey w.nowMillis
    else r

/-! ### `keyCheck` -/

/-- A key goes down and is held. -/
def hold (code : UInt8) (s : KeyInput) : KeyInput :=
  { s.keydown code with preKeyCode := some code }

/-- A character goes to the matrix: with shift, its key is left to the next
call. -/
def typeKey (inKeyCode : UInt8) (s : KeyInput) : KeyInput :=
  let s := s.look .akTbl inKeyCode
  let key := s.entry .akTbl inKeyCode
  if key = 0xFF then s
  else if key = s.shiftCode then
    let s := (s.keydown s.shiftCode).look .akTblS inKeyCode
    let key := s.entry .akTblS inKeyCode
    { s with delayInputKeyCode := key, preKeyCode := some key }
  else s.hold key

/-- The rest of `keyCheck` with the character that is queued, if any. -/
def takeKey (w : KeyWorld) (inKeyCode : UInt8) (s : KeyInput) : KeyInput :=
  let r := if inKeyCode = 0 then s.pollKeys w else (inKeyCode, s)
  if r.1 = 0 then r.2 else r.2.typeKey r.1

/-- A queued character: `C` is CTRL and `S` is SHIFT.  After the last one
comes CR, if `inputStringMode` asks for it. -/
def takeQueued (w : KeyWorld) (s : KeyInput) : KeyInput :=
  match s.inputStringEx with
  | c :: rest =>
      let s := { s with inputStringEx := rest }
      if c = 0x43 then s.hold 0x86
      else if c = 0x53 then s.hold s.shiftCode
      else s.takeKey w c
  | [] =>
      if s.inputStringMode then { s with inputStringMode := false }.takeKey w 0x0D
      else s.takeKey w 0

/-- SHIFT and BREAK. -/
def sendBreak (s : KeyInput) : KeyInput :=
  let s := s.keydown s.shiftCode
  let s := match s.mode with
    | .mode700 => s.hold 0x87
    | .mode80 => (s.look .akTblS 3).hold (s.entry .akTblS 3)
  { s with sendBreakFlag := false }

/-- `keyCheck` with no key held. -/
def nextKey (w : KeyWorld) (s : KeyInput) : KeyInput :=
  if s.sendBreakFlag then s.sendBreak
  else takeQueued w { s with toJoyPad := s.checkJoyPad w.joyPad }

/-- The key that waits for the call after its shift goes down. -/
def pressDelayed (s : KeyInput) : KeyInput :=
  if s.delayInputKeyCode ≠ 0 then
    { s.keydown s.delayInputKeyCode with delayInputKeyCode := 0 }
  else s

/-- The held key and shift go up. -/
def releaseHeld (code : UInt8) (s : KeyInput) : KeyInput :=
  { (s.keyup code).keyup s.shiftCode with preKeyCode := none, keyCheckCount := 0 }

/-- `keyCheck`. -/
def keyCheck (w : KeyWorld) (s : KeyInput) : KeyInput :=
  match s.preKeyCode with
  | none => s.nextKey w
  | some code =>
      let s := { s with keyCheckCount := s.keyCheckCount + 1 }.pressDelayed
      if s.keyCheckCount < 5 then s else (s.releaseHeld code).nextKey w

end KeyInput

/-! ## runs -/

/-- The items of the system menu that type a digit. -/
inductive MenuDigit
  | input0 | input1 | input2
deriving DecidableEq

/-- The character of an item. -/
def MenuDigit.char : MenuDigit → UInt8
  | .input0 => 0x30
  | .input1 => 0x31
  | .input2 => 0x32

/-- What can happen to the key input. -/
inductive KeyStep
  /-- a report of the HID keyboard -/
  | report (mods keyCode : UInt8)
  /-- a call of `keyCheck` -/
  | check (w : KeyWorld)
  /-- bytes arrive on the serial line -/
  | arrive (bytes : List UInt8)
  /-- `monrom_load` -/
  | load (romFile : String)
  /-- `INPUT_0_INDEX` to `INPUT_2_INDEX` of the menu -/
  | digit (d : MenuDigit)
  /-- `INPUT_CR_INDEX` of the menu -/
  | cr
  /-- `WONDER_HOUSE_MODE_INDEX` of the menu -/
  | wonderHouse

/-- The key input after a step. -/
def KeyStep.apply (o : KeyStep) (s : KeyInput) : KeyInput :=
  match o with
  | .report mods keyCode => s.keyboard mods keyCode
  | .check w => s.keyCheck w
  | .arrive bytes => { s with serial := s.serial ++ bytes }
  | .load romFile => { s with machine := monromLoad romFile s.machine }
  | .digit d => { s with inputStringEx := [d.char] }
  | .cr => { s with inputStringMode := true }
  | .wonderHouse =>
      if s.wonderHouseMode then { s with wonderHouseMode := false }
      else { s with wonderHouseMode := true, wonderHouseKeyIndex := 0 }

/-- The key input as `mz80c_main` starts it. -/
def KeyInput.start (past : KeyTable → Nat → UInt8) (m : Machine) : KeyInput where
  machine := m
  past := past
  uses := []
  joyPadPushed := fun _ => false
  inputStringEx := []
  inputStringMode := false
  serial := []
  serialKeyCode := 0
  sendBreakFlag := false
  lastKey := 0
  keyCheckCount := 0
  preKeyCode := none
  delayInputKeyCode := 0
  i2cCheckCount := 0
  wonderHouseMode := false
  wonderHouseKeyIndex := 0
  wonderHouseKeyDelayMillis := 0

end M5Z80
