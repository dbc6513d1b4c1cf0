import M5Z80.Keyboard

/-!
# M5Z80.KeySources

Which bytes the sources of `keyCheck` make into a character, that is a key
below 128: the serial line, the I2C keyboards and the automatic play.
-/

namespace M5Z80

/-! ## serial line -/

namespace SerialLine

/-- The bytes that wait name a character: the first one, or the second after
an escape, where 255 is a break. -/
def BurstOk (line : SerialLine) : Prop :=
  line.read 0 < 128 ∧ (line.read 0 = 27 → line.read 1 < 128 ∨ line.read 1 = 255)

/-- The line has no key for this call: no burst and no key of an earlier one,
or a burst without a key. -/
def Silent (line : SerialLine) : Prop :=
  if line.serial = [] then line.serialKeyCode = 0
  else line.read 0 = 0 ∨
    line.read 0 = 27 ∧ (line.read 1 = 0 ∨ line.read 1 = 255 ∨
      line.read 1 = 91 ∧ line.read 2 ∉ [(65 : UInt8), 66, 67, 68, 49, 52, 50])

/-- The key of a burst, before `DEL` is replaced. -/
def burstKey (line : SerialLine) : UInt8 :=
  if line.read 0 = 27 then
    if line.read 1 = 91 then escapeKey (line.read 2)
    else if line.read 1 = 255 then 0
    else line.read 1
  else line.read 0

/-- An escape sequence leads to a character of the table. -/
theorem escapeKey_lt (code : UInt8) : escapeKey code < 128 := by
  rw [escapeKey]
  repeat' split
  all_goals decide

/-- The escape sequences that are known; all others give no character. -/
theorem escapeKey_eq_zero_iff (code : UInt8) :
    escapeKey code = 0 ↔ code ∉ [(65 : UInt8), 66, 67, 68, 49, 52, 50] := by
  rw [escapeKey]
  repeat' split
  all_goals simp_all

/-- A line that has bytes gives a character or the one for a deletion. -/
theorem serialKeyCode_checkSerialKey {line : SerialLine} (h : line.serial ≠ []) :
    line.checkSerialKey.serialKeyCode =
      if line.burstKey = 127 then 0x17 else line.burstKey := by
  have hkey : (if line.read 0 = 27 then line.escape
      else { line with serialKeyCode := line.read 0 }).serialKeyCode = line.burstKey := by
    rw [burstKey, escape]
    repeat' split
    all_goals rfl
  rw [checkSerialKey, if_neg h]
  dsimp only
  rw [hkey]
  split
  · rfl
  · exact hkey

/-- A burst gives a character of the table exactly if it begins with one. -/
theorem burstKey_lt_iff (line : SerialLine) : line.burstKey < 128 ↔ line.BurstOk := by
  rw [burstKey, BurstOk]
  by_cases hesc : line.read 0 = 27
  · have hlt : line.read 0 < 128 := by
      rw [hesc]
      decide
    rw [if_pos hesc, and_iff_right hlt, forall_prop_of_true hesc]
    split
    next hopen =>
      rw [hopen]
      exact iff_of_true (escapeKey_lt _) (.inl (by decide))
    next =>
      split
      next hnone => exact iff_of_true (by decide) (.inr hnone)
      next hsome => exact (or_iff_left hsome).symm
  · rw [if_neg hesc]
    exact (and_iff_left fun h => absurd h hesc).symm

/-- The bursts that give no character. -/
theorem burstKey_eq_zero_iff (line : SerialLine) :
    line.burstKey = 0 ↔ line.read 0 = 0 ∨
      line.read 0 = 27 ∧ (line.read 1 = 0 ∨ line.read 1 = 255 ∨
        line.read 1 = 91 ∧ line.read 2 ∉ [(65 : UInt8), 66, 67, 68, 49, 52, 50]) := by
  rw [burstKey, ← escapeKey_eq_zero_iff]
  repeat' split
  all_goals simp_all

/-- A burst gives a character exactly when it names one. -/
theorem checkSerialKey_lt_iff (line : SerialLine) (h : line.serialKeyCode < 128) :
    line.checkSerialKey.serialKeyCode < 128 ↔ line.serial ≠ [] → line.BurstOk := by
  by_cases hserial : line.serial = []
  · rw [checkSerialKey, if_pos hserial]
    exact iff_of_true h fun hne => absurd hserial hne
  · rw [serialKeyCode_checkSerialKey hserial, forall_prop_of_true hserial, ← burstKey_lt_iff]
    split
    next hdel => exact iff_of_true (by decide) (by rw [hdel]; decide)
    next => rfl

/-- So a call gives no character exactly on a silent line. -/
theorem checkSerialKey_eq_zero_iff (line : SerialLine) :
    line.checkSerialKey.serialKeyCode = 0 ↔ line.Silent := by
  rw [Silent]
  by_cases hserial : line.serial = []
  · rw [checkSerialKey, if_pos hserial, if_pos hserial]
  · rw [serialKeyCode_checkSerialKey hserial, if_neg hserial, ← burstKey_eq_zero_iff]
    split
    next hdel => exact iff_of_false (by decide) (by rw [hdel]; decide)
    next => rfl

end SerialLine

/-! ## I2C keyboards -/

/-- The byte of an I2C keyboard, if it is asked, is a character or a key that
is translated into one; 175 is the break of the FACES keyboard. -/
def KeyWorld.I2cOk (w : KeyWorld) : Prop :=
  match w.facesKb with
  | some code => code < 128 ∨ code = 175 ∨ code ∈ facesKeys.map Prod.fst
  | none => ∀ code ∈ w.cardKb, code < 128 ∨ code ∈ cardKbKeys.map Prod.fst

/-- The special keys of the card keyboard are in the table. -/
theorem cardKbKeys_lt : ∀ p ∈ cardKbKeys, p.2 < 128 := by simp [cardKbKeys]

/-- So are those of the Faces keyboard. -/
theorem facesKeys_lt : ∀ p ∈ facesKeys, p.2 < 128 := by simp [facesKeys]

/-- A key that is translated is in the table, and one that is not must be. -/
theorem translate_lt_iff {keys : List (UInt8 × UInt8)} (hkeys : ∀ p ∈ keys, p.2 < 128)
    (code : UInt8) : translate keys code < 128 ↔ code < 128 ∨ code ∈ keys.map Prod.fst := by
  rw [translate]
  cases hlookup : keys.lookup code with
  | none =>
      have hnot : code ∉ keys.map Prod.fst := by
        rw [List.mem_map]
        rintro ⟨p, hp, rfl⟩
        exact absurd (List.lookup_eq_none_iff.mp hlookup p hp) (by simp)
      exact (or_iff_left hnot).symm
  | some key =>
      obtain ⟨l₁, l₂, rfl, -⟩ := List.lookup_eq_some_iff.mp hlookup
      refine iff_of_true (hkeys (code, key) (by simp)) (.inr ?_)
      simp

/-! ## sources of `keyCheck` -/

namespace KeyInput

/-! ### I2C keyboards -/

/-- A poll of the I2C keyboards counts, and may ask for a break. -/
theorem checkI2cKeyboard_snd (w : KeyWorld) (s : KeyInput) : ∃ count flag,
    (s.checkI2cKeyboard w).2 = { s with i2cCheckCount := count, sendBreakFlag := flag } := by
  rw [checkI2cKeyboard]
  dsimp only
  repeat' split
  all_goals exact ⟨_, _, rfl⟩

/-- A poll gives a key of the table exactly if it is not yet due or the keyboards send one.
-/
theorem checkI2cKeyboard_lt_iff (w : KeyWorld) (s : KeyInput) :
    (s.checkI2cKeyboard w).1 < 128 ↔ s.i2cCheckCount + 1 < 50 ∨ w.I2cOk := by
  have hzero : (0 : UInt8) < 128 := by decide
  rw [checkI2cKeyboard, KeyWorld.I2cOk]
  dsimp only
  by_cases hcount : s.i2cCheckCount + 1 < 50
  · rw [if_pos hcount]
    exact iff_of_true hzero (.inl hcount)
  · rw [if_neg hcount, or_iff_right hcount]
    cases w.facesKb with
    | some code =>
        rw [Option.getD_some, if_neg (by simp : ¬ (some code).isNone = true)]
        by_cases hnone : code = 0
        · rw [if_pos hnone, hnone]
          exact iff_of_true hzero (.inl hzero)
        · rw [if_neg hnone]
          by_cases hbreak : code = 175
          · rw [if_pos hbreak]
            exact iff_of_true hzero (.inr (.inl hbreak))
          · rw [if_neg hbreak]
            dsimp only
            rw [or_iff_right hbreak]
            exact translate_lt_iff facesKeys_lt code
    | none =>
        cases w.cardKb with
        | none => exact iff_of_true hzero (by simp)
        | some code =>
            rw [Option.getD_none, Option.getD_some, if_pos (by rfl : Option.isNone none = true)]
            have hmem (P : UInt8 → Prop) : (∀ c ∈ some code, P c) ↔ P code := by simp
            rw [hmem]
            by_cases hnone : code = 0
            · rw [if_pos hnone, hnone]
              exact iff_of_true hzero (.inl hzero)
            · rw [if_neg hnone]
              by_cases hbreak : code = 0x1B
              · rw [if_pos hbreak, hbreak]
                exact iff_of_true hzero (.inl (by decide))
              · rw [if_neg hbreak]
                exact translate_lt_iff cardKbKeys_lt code

/-! ### automatic play -/

/-- The keys of the wonder house change their own state only. -/
theorem wonderHouseKey_snd (nowMillis : Int) (s : KeyInput) : ∃ mode index delay,
    (s.wonderHouseKey nowMillis).2 = { s with
      wonderHouseMode := mode, wonderHouseKeyIndex := index,
      wonderHouseKeyDelayMillis := delay } := by
  rw [wonderHouseKey]
  dsimp only
  repeat' split
  all_goals exact ⟨_, _, _, rfl⟩

/-- They are in the table. -/
theorem wonderHouseKey_lt (nowMillis : Int) (s : KeyInput) :
    (s.wonderHouseKey nowMillis).1 < 128 := by
  have hkey : wonderHouseKeyData.getD s.wonderHouseKeyIndex 0 < 128 := by
    rw [List.getD_eq_getElem?_getD]
    cases hget : wonderHouseKeyData[s.wonderHouseKeyIndex]? with
    | none => decide
    | some key => exact wonderHouseKeyData_lt key (List.mem_of_getElem? hget)
  have hzero : (0 : UInt8) < 128 := by decide
  have hreturn : (0x0D : UInt8) < 128 := by decide
  rw [wonderHouseKey]
  dsimp only
  repeat' split
  all_goals first | exact hkey | exact hzero | exact hreturn

/-! ### the sources together -/

/-- Only the sources' own variables change. -/
theorem pollKeys_snd (w : KeyWorld) (s : KeyInput) :
    (s.pollKeys w).2.toJoyPad = s.toJoyPad ∧ (s.pollKeys w).2.preKeyCode = s.preKeyCode ∧
      (s.pollKeys w).2.delayInputKeyCode = s.delayInputKeyCode ∧
      (s.pollKeys w).2.serialKeyCode = s.checkSerialKey.serialKeyCode := by
  rw [pollKeys]
  dsimp only
  obtain ⟨count, flag, hi2c⟩ :=
    checkI2cKeyboard_snd w { s with toSerialLine := s.checkSerialKey }
  split
  · exact ⟨rfl, rfl, rfl, rfl⟩
  · split
    · rw [hi2c]
      exact ⟨rfl, rfl, rfl, rfl⟩
    · split
      · obtain ⟨mode, index, delay, hhouse⟩ := wonderHouseKey_snd w.nowMillis
          ({ s with toSerialLine := s.checkSerialKey }.checkI2cKeyboard w).2
        rw [hhouse, hi2c]
        exact ⟨rfl, rfl, rfl, rfl⟩
      · rw [hi2c]
        exact ⟨rfl, rfl, rfl, rfl⟩

/-- The sources give a character if the burst on the serial line names one and,
when that line is silent, the I2C keyboards send one. -/
def PollOk (w : KeyWorld) (s : KeyInput) : Prop :=
  (s.serial ≠ [] → s.BurstOk) ∧ (s.Silent → s.i2cCheckCount + 1 < 50 ∨ w.I2cOk)

/-- The key that is polled is in the table exactly if its source gives one. -/
theorem pollKeys_lt_iff {s : KeyInput} (h : s.serialKeyCode < 128) (w : KeyWorld) :
    (s.pollKeys w).1 < 128 ↔ s.PollOk w := by
  have hserial := s.toSerialLine.checkSerialKey_lt_iff h
  have hsilent := s.toSerialLine.checkSerialKey_eq_zero_iff
  have hi2c := checkI2cKeyboard_lt_iff w { s with toSerialLine := s.checkSerialKey }
  rw [pollKeys, PollOk, ← hserial, ← hsilent]
  dsimp only at hi2c ⊢
  by_cases hkey : s.checkSerialKey.serialKeyCode = 0
  · have hzero : s.checkSerialKey.serialKeyCode < 128 := by
      rw [hkey]
      decide
    rw [if_neg (not_not.mpr hkey), and_iff_right hzero, forall_prop_of_true hkey, ← hi2c]
    split
    next => rfl
    next hnone =>
      rw [not_not] at hnone
      rw [hnone]
      split
      · exact iff_of_true (wonderHouseKey_lt _ _) (by decide)
      · rw [hnone]
  · rw [if_pos hkey]
    exact (and_iff_left fun h => absurd h hkey).symm

end KeyInput

end M5Z80
