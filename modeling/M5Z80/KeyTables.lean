import M5Z80.Machine

/-!
# M5Z80.KeyTables

The tables of `Mzmain.cpp` that turn a character or a HID key code into a
code of the key matrix, one set a machine, and the keys that the automatic
play of `wonderHouseKey` types.  `FF` stands for a key without a code.
-/

namespace M5Z80

/-! ## codes -/

/-- `SHIFT_KEY_80C` and `SFT8`. -/
def shiftKey80c : UInt8 := 0x80

/-- `SHIFT_KEY_700` and `SFT7`. -/
def shiftKey700 : UInt8 := 0x80

/-- A code of the key matrix: one of its ten rows in the upper half, one of
the eight bits of a row in the lower. -/
def MatrixCode (code : UInt8) : Prop := code >>> 4 < 10 ∧ code &&& 0x0F < 8

instance (code : UInt8) : Decidable (MatrixCode code) := inferInstanceAs (Decidable (_ ∧ _))

/-! ## characters -/

/-- `ak_tbl_80c`; `SFT8` is `80`. -/
def akTbl80c : List UInt8 :=
  [0xFF, 0xFF, 0xFF, 0x80, 0xFF, 0xFF, 0xFF, 0xFF, 0xFF, 0x65, 0xFF, 0x80, 0xFF, 0x84, 0xFF, 0xFF,
   0xFF, 0x92, 0x80, 0x83, 0x80, 0x90, 0x80, 0x81, 0x80, 0xFF, 0xFF, 0xFF, 0xFF, 0xFF, 0xFF, 0xFF,
   0x91, 0x80, 0x80, 0x80, 0x80, 0x80, 0x80, 0x80, 0x80, 0x80, 0x80, 0x80, 0x73, 0x05, 0x64, 0x74,
   0x14, 0x00, 0x10, 0x01, 0x11, 0x02, 0x12, 0x03, 0x13, 0x04, 0x80, 0x54, 0x80, 0x25, 0x80, 0x80,
   0x80, 0x80, 0x80, 0x80, 0x80, 0x80, 0x80, 0x80, 0x80, 0x80, 0x80, 0x80, 0x80, 0x80, 0x80, 0x80,
   0x80, 0x80, 0x80, 0x80, 0x80, 0x80, 0x80, 0x80, 0x80, 0x80, 0x80, 0x80, 0x80, 0x80, 0xFF, 0xFF,
   0xFF, 0x40, 0x62, 0x61, 0x41, 0x21, 0x51, 0x42, 0x52, 0x33, 0x43, 0x53, 0x44, 0x63, 0x72, 0x24,
   0x34, 0x20, 0x31, 0x50, 0x22, 0x23, 0x71, 0x30, 0x70, 0x32, 0x60, 0xFF, 0xFF, 0xFF, 0xFF, 0xFF]

/-- `ak_tbl_s_80c`. -/
def akTblS80c : List UInt8 :=
  [0xFF, 0xFF, 0xFF, 0x93, 0xFF, 0xFF, 0xFF, 0xFF, 0xFF, 0xFF, 0xFF, 0x65, 0xFF, 0xFF, 0xFF, 0xFF,
   0xFF, 0xFF, 0x92, 0xFF, 0x83, 0xFF, 0x90, 0xFF, 0x81, 0xFF, 0xFF, 0xFF, 0xFF, 0xFF, 0xFF, 0xFF,
   0xFF, 0x00, 0x10, 0x01, 0x11, 0x02, 0x12, 0x03, 0x13, 0x04, 0x25, 0x05, 0xFF, 0xFF, 0xFF, 0xFF,
   0xFF, 0xFF, 0xFF, 0xFF, 0xFF, 0xFF, 0xFF, 0xFF, 0xFF, 0xFF, 0x24, 0xFF, 0x20, 0xFF, 0x30, 0x33,
   0x23, 0x40, 0x62, 0x61, 0x41, 0x21, 0x51, 0x42, 0x52, 0x33, 0x43, 0x53, 0x44, 0x63, 0x72, 0x24,
   0x34, 0x20, 0x31, 0x50, 0x22, 0x23, 0x71, 0x30, 0x70, 0x32, 0x60, 0x31, 0x32, 0x22, 0xFF, 0xFF,
   0xFF, 0xFF, 0xFF, 0xFF, 0xFF, 0xFF, 0xFF, 0xFF, 0xFF, 0xFF, 0xFF, 0xFF, 0xFF, 0xFF, 0xFF, 0xFF,
   0xFF, 0xFF, 0xFF, 0xFF, 0xFF, 0xFF, 0xFF, 0xFF, 0xFF, 0xFF, 0xFF, 0xFF, 0xFF, 0xFF, 0xFF, 0xFF]

/-- `ak_tbl_700`. -/
def akTbl700 : List UInt8 :=
  [0xFF, 0xFF, 0xFF, 0xFF, 0xFF, 0xFF, 0xFF, 0xFF, 0xFF, 0x04, 0x06, 0x07, 0xFF, 0x00, 0xFF, 0xFF,
   0xFF, 0x74, 0x75, 0x73, 0x72, 0x80, 0x80, 0x76, 0x77, 0xFF, 0xFF, 0xFF, 0xFF, 0xFF, 0xFF, 0xFF,
   0x64, 0x80, 0x80, 0x80, 0x80, 0x80, 0x80, 0x80, 0x14, 0x13, 0x67, 0x66, 0x61, 0x65, 0x60, 0x70,
   0x63, 0x57, 0x56, 0x55, 0x54, 0x53, 0x52, 0x51, 0x50, 0x62, 0x01, 0x02, 0x80, 0x05, 0x80, 0x71,
   0x15, 0x80, 0x80, 0x80, 0x80, 0x80, 0x80, 0x80, 0x80, 0x80, 0x80, 0x80, 0x80, 0x80, 0x80, 0x80,
   0x80, 0x80, 0x80, 0x80, 0x80, 0x80, 0x80, 0x80, 0x80, 0x80, 0x80, 0x80, 0x80, 0x80, 0x80, 0xFF,
   0xFF, 0x47, 0x46, 0x45, 0x44, 0x43, 0x42, 0x41, 0x40, 0x37, 0x36, 0x35, 0x34, 0x33, 0x32, 0x31,
   0x30, 0x27, 0x26, 0x25, 0x24, 0x23, 0x22, 0x21, 0x20, 0x17, 0x16, 0x80, 0x80, 0x80, 0x80, 0xFF]

/-- `ak_tbl_s_700`. -/
def akTblS700 : List UInt8 :=
  [0xFF, 0xFF, 0xFF, 0xFF, 0xFF, 0xFF, 0xFF, 0xFF, 0xFF, 0x15, 0xFF, 0xFF, 0xFF, 0xFF, 0xFF, 0xFF,
   0xFF, 0xFF, 0xFF, 0xFF, 0xFF, 0x76, 0x77, 0xFF, 0xFF, 0xFF, 0xFF, 0xFF, 0xFF, 0xFF, 0xFF, 0xFF,
   0xFF, 0x57, 0x56, 0x55, 0x54, 0x53, 0x52, 0x51, 0xFF, 0xFF, 0xFF, 0xFF, 0xFF, 0xFF, 0xFF, 0xFF,
   0xFF, 0xFF, 0xFF, 0xFF, 0xFF, 0xFF, 0xFF, 0xFF, 0xFF, 0xFF, 0xFF, 0xFF, 0x61, 0xFF, 0x60, 0xFF,
   0xFF, 0x47, 0x46, 0x45, 0x44, 0x43, 0x42, 0x41, 0x40, 0x37, 0x36, 0x35, 0x34, 0x33, 0x32, 0x31,
   0x30, 0x27, 0x26, 0x25, 0x24, 0x23, 0x22, 0x21, 0x20, 0x17, 0x16, 0x50, 0x67, 0x62, 0x14, 0xFF,
   0xFF, 0xFF, 0xFF, 0xFF, 0xFF, 0xFF, 0xFF, 0xFF, 0xFF, 0xFF, 0xFF, 0xFF, 0xFF, 0xFF, 0xFF, 0xFF,
   0xFF, 0xFF, 0xFF, 0xFF, 0xFF, 0xFF, 0xFF, 0xFF, 0xFF, 0xFF, 0xFF, 0x70, 0x13, 0x71, 0x66, 0xFF]

/-! ## HID keys -/

/-- `hid_to_mz700`: entries `0` to `A4`, `E0` to `E7` and one more. -/
def hidToMz700 : List UInt8 :=
  [0xFF, 0xFF, 0xFF, 0xFF, 0x47, 0x46, 0x45, 0x44, 0x43, 0x42, 0x41, 0x40, 0x37, 0x36, 0x35, 0x34,
   0x33, 0x32, 0x31, 0x30, 0x27, 0x26, 0x25, 0x24, 0x23, 0x22, 0x21, 0x20, 0x17, 0x16, 0x57, 0x56,
   0x55, 0x54, 0x53, 0x52, 0x51, 0x50, 0x62, 0x63, 0x00, 0x87, 0x76, 0x06, 0x64, 0x65, 0x66, 0x15,
   0x14, 0x63, 0x13, 0x02, 0x01, 0x07, 0x61, 0x60, 0x71, 0x04, 0x97, 0x96, 0x95, 0x94, 0x93, 0xFF,
   0xFF, 0xFF, 0xFF, 0xFF, 0xFF, 0xFF, 0xFF, 0xFF, 0xFF, 0xFF, 0xFF, 0xFF, 0xFF, 0xFF, 0xFF, 0x73,
   0x72, 0x74, 0x75, 0xFF, 0xFF, 0xFF, 0xFF, 0xFF, 0xFF, 0xFF, 0xFF, 0xFF, 0xFF, 0xFF, 0xFF, 0xFF,
   0xFF, 0xFF, 0xFF, 0xFF, 0x70, 0xFF, 0xFF, 0xFF, 0xFF, 0xFF, 0xFF, 0xFF, 0xFF, 0xFF, 0xFF, 0xFF,
   0xFF, 0xFF, 0xFF, 0xFF, 0xFF, 0xFF, 0xFF, 0xFF, 0xFF, 0xFF, 0xFF, 0xFF, 0xFF, 0xFF, 0xFF, 0xFF,
   0xFF, 0xFF, 0xFF, 0xFF, 0xFF, 0xFF, 0xFF, 0x05, 0xFF, 0x67, 0xFF, 0xFF, 0xFF, 0xFF, 0xFF, 0xFF,
   0xFF, 0xFF, 0xFF, 0xFF, 0xFF, 0xFF, 0xFF, 0xFF, 0xFF, 0xFF, 0xFF, 0xFF, 0xFF, 0xFF, 0xFF, 0xFF,
   0xFF, 0xFF, 0xFF, 0xFF, 0xFF, 0xFF, 0xFF, 0xFF, 0xFF, 0xFF, 0xFF, 0xFF, 0xFF, 0xFF]

/-- `hid_to_mz80c`. -/
def hidToMz80c : List UInt8 :=
  [0xFF, 0xFF, 0xFF, 0xFF, 0x40, 0x62, 0x61, 0x41, 0x21, 0x51, 0x42, 0x52, 0x33, 0x43, 0x53, 0x44,
   0x63, 0x72, 0x24, 0x34, 0x20, 0x31, 0x50, 0x22, 0x23, 0x71, 0x30, 0x70, 0x32, 0x60, 0x00, 0x10,
   0x01, 0x11, 0x02, 0x12, 0x03, 0x13, 0x04, 0x14, 0x84, 0x93, 0x81, 0x93, 0x91, 0x05, 0x25, 0x95,
   0x75, 0xFF, 0xFF, 0x54, 0xFF, 0xFF, 0x73, 0x64, 0x74, 0x65, 0xFF, 0xFF, 0xFF, 0xFF, 0xFF, 0xFF,
   0xFF, 0xFF, 0xFF, 0xFF, 0xFF, 0xFF, 0xFF, 0xFF, 0xFF, 0xFF, 0x90, 0xFF, 0xFF, 0xFF, 0xFF, 0x83,
   0xFF, 0x92, 0xFF, 0xFF, 0xFF, 0xFF, 0xFF, 0xFF, 0xFF, 0xFF, 0xFF, 0xFF, 0xFF, 0xFF, 0xFF, 0xFF,
   0xFF, 0xFF, 0xFF, 0xFF, 0xFF, 0xFF, 0xFF, 0xFF, 0xFF, 0xFF, 0xFF, 0xFF, 0xFF, 0xFF, 0xFF, 0xFF,
   0xFF, 0xFF, 0xFF, 0xFF, 0xFF, 0xFF, 0xFF, 0xFF, 0xFF, 0xFF, 0xFF, 0xFF, 0xFF, 0xFF, 0xFF, 0xFF,
   0xFF, 0xFF, 0xFF, 0xFF, 0xFF, 0xFF, 0xFF, 0xFF, 0xFF, 0xFF, 0xFF, 0xFF, 0xFF, 0xFF, 0xFF, 0xFF,
   0xFF, 0xFF, 0xFF, 0xFF, 0xFF, 0xFF, 0xFF, 0xFF, 0xFF, 0xFF, 0xFF, 0xFF, 0xFF, 0xFF, 0xFF, 0xFF,
   0xFF, 0xFF, 0xFF, 0xFF, 0xFF, 0xFF, 0xFF, 0xFF, 0xFF, 0xFF, 0xFF, 0xFF, 0xFF, 0xFF]

/-! ## the tables of a machine -/

/-- The tables a key is looked up in: what `ak_tbl`, `ak_tbl_s` and
`hid_to_emu` point at. -/
inductive KeyTable
  | akTbl | akTblS | hidToEmu
deriving DecidableEq

/-- Number of entries, the same for both machines. -/
def KeyTable.size : KeyTable → Nat
  | .akTbl => 128
  | .akTblS => 128
  | .hidToEmu => 174

/-- The table that `monrom_load` chooses with the mode of the machine. -/
def KeyTable.entries : KeyTable → MzMode → List UInt8
  | .akTbl, .mode80 => akTbl80c
  | .akTblS, .mode80 => akTblS80c
  | .hidToEmu, .mode80 => hidToMz80c
  | .akTbl, .mode700 => akTbl700
  | .akTblS, .mode700 => akTblS700
  | .hidToEmu, .mode700 => hidToMz700

/-- `shift_code`, as `monrom_load` sets it. -/
def shiftCode : MzMode → UInt8
  | .mode80 => shiftKey80c
  | .mode700 => shiftKey700

/-- The table is as long as its uses expect. -/
@[simp] theorem KeyTable.length_entries (t : KeyTable) (mode : MzMode) :
    (t.entries mode).length = t.size := by
  cases t <;> cases mode <;> rfl

/-- The shift key is in the matrix in both modes. -/
theorem matrixCode_shiftCode (mode : MzMode) : MatrixCode (shiftCode mode) := by
  cases mode <;> decide

/-- Every entry of the character tables and of the HID table is a code of
the matrix or `FF`, which is none. -/
theorem KeyTable.matrixCode_iff (t : KeyTable) (mode : MzMode) :
    ∀ code ∈ t.entries mode, MatrixCode code ↔ code ≠ 0xFF := by
  have hall : (t.entries mode).all (fun code => MatrixCode code ↔ code ≠ 0xFF) = true := by
    cases t <;> cases mode <;> decide +kernel
  simpa only [List.all_eq_true, decide_eq_true_eq] using hall

/-- A character that `ak_tbl` marks as shifted has a key in `ak_tbl_s`. -/
theorem akTblS_of_shift (mode : MzMode) : ∀ i < 128,
    (KeyTable.akTbl.entries mode)[i]? = some (shiftCode mode) →
      (KeyTable.akTblS.entries mode)[i]?.all (fun code => decide (MatrixCode code)) := by
  cases mode <;> decide +kernel

/-! ## automatic play -/

/-- The lines of `wonderHouseKeyData`. -/
def wonderHouseKeyLines : List String :=
  ["an\n", "search floor\n", "take memo\n", "read memo\n", "take mat\n", "look\n", "take key\n",
   "e\n", "open sw.box\n", "on switch\n", "s\n", "open door\n", "e\n", "off switch\n", "s\n",
   "forward\n", "search floor\n", "take paper\n", "read paper\n", "forward\n", "e\n",
   "forward\n", "forward\n", "n\n", "forward\n", "forward\n", "open rack\n", "search rack\n",
   "take driver\n", "w\n", "forward\n", "listen\n", "say i am fine thank you.\n", "s\n",
   "unlock door\n", "open door\n", "forward\n", "move rack\n", "forward\n", "w\n", "forward\n",
   "search floor\n", "take bird\n", "s\n", "forward\n", "listen\n", "say my name is mz.\n",
   "n\n", "forward\n", "e\n", "forward\n", "n\n", "forward\n", "unlock door\n", "open door\n",
   "forward\n", "e\n", "forward\n", "s\n", "forward\n", "forward\n", "e\n", "forward\n",
   "forward\n", "say how do you do?\n", "forward\n", "search floor\n", "take book\n",
   "open book\n", "look book\n", "read book\n", "search book\n", "take card\n", "look card\n",
   "s\n", "forward\n", "forward\n", "say open sesame.\n", "unlock door\n", "open door\n",
   "forward\n", "e\n", "forward\n", "forward\n", "s\n", "open rack\n", "search rack\n",
   "take dictionary\n", "open dictionary\n", "read dictionary\n", "e\n", "forward\n",
   "open rack\n", "search rack\n", "use driver\n", "search rack\n", "take rope\n", "n\n",
   "forward\n", "open window\n", "use rope\n", "forward\n", "take rope\n", "w\n", "forward\n",
   "give bird\n", "s\n", "forward\n", "forward\n", "w\n", "forward\n", "open rack\n",
   "search rack\n", "take parachute\n", "repair parachute\n", "use rope\n", "e\n", "forward\n",
   "n\n", "forward\n", "w\n", "forward\n", "n\n", "forward\n", "open window\n", "e\n",
   "use parachute\n", "e\n", "jump\n", "forward\n", "open sw.box\n", "search sw.box\n",
   "insert card\n", "w\n", "forward\n", "forward\n", "go pool\n", "search bottom\n",
   "take diamond\n", "go boy\n", "listen\n", "say my name is mz.\n", "E"]

/-- `wonderHouseKeyData`. -/
def wonderHouseKeyData : List UInt8 :=
  (wonderHouseKeyLines.flatMap String.toList).map (·.toNat.toUInt8)

/-- The text that is typed by itself is in the table. -/
theorem wonderHouseKeyData_lt : ∀ key ∈ wonderHouseKeyData, key < 128 := by
  have hall : wonderHouseKeyData.all (fun key => key < 128) = true := by decide +kernel
  simpa only [List.all_eq_true, decide_eq_true_eq] using hall

end M5Z80
