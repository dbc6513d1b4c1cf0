import M5Z80.Loader

/-!
# M5Z80.MonitorRom

`monrom_load` of `Mzmain.cpp`: the monitor ROM comes from a file, and the
text it holds says which machine it is for.
-/

namespace M5Z80

/-- `ROM_DIRECTORY`. -/
def romDirectory : String := ""

/-- `DEFAULT_ROM_FILE`. -/
def defaultRomFile : String := "NEWMON7.ROM"

/-- The path of a ROM file. -/
def romPath (romFile : String) : String := romDirectory ++ "/" ++ romFile

/-- The path `monrom_load` opens: that of `mzConfig.romFile`, if there is
such a file. -/
def monromPath (romFile : String) (m : Machine) : String :=
  let romPath' := romPath (if romFile.length = 0 then defaultRomFile else romFile)
  if (m.files romPath').isSome then romPath' else romPath defaultRomFile

/-- The loop of `monrom_load`: every byte of the file goes to `mem`. -/
def readRom : Nat → List UInt8 → Machine → Machine
  | _, [], m => m
  | offset, b :: fd, m =>
      readRom (offset + 1) fd { m with mem := Function.update m.mem offset b }

/-- `strncmp(mem + ofs, text, n) == 0`, for the first `n` bytes `text` of a
string. -/
def memIs (ofs : Nat) (text : List UInt8) (m : Machine) : Bool :=
  (List.range text.length).map (fun i => m.mem (ofs + i)) = text

/-- `set_mztype`.  Of `1Z-009` and `1Z-013` five bytes are compared. -/
def setMztype (m : Machine) : MzMode :=
  if memIs 0x6F3 (['1', 'Z', '-', '0', '0'].map (·.toNat.toUInt8)) m then .mode700
  else if memIs 0x6F3 (['1', 'Z', '-', '0', '1'].map (·.toNat.toUInt8)) m then .mode700
  else if memIs 0x142 [(0x4D : UInt8), 0x5A, 0x90, 0x37, 0x30, 0x30] m then .mode700
  else .mode80

/-- `monrom_load`; `romFile` is `mzConfig.romFile`. -/
def monromLoad (romFile : String) (m : Machine) : Machine :=
  let m := match m.files (monromPath romFile m) with
    | none => m
    | some fd => readRom 0 fd m
  { m with mzMode := setMztype m }

/-! ## what loading changes -/

/-- A ROM file goes to memory byte by byte, as far as it reaches. -/
theorem readRom_eq (offset : Nat) (fd : List UInt8) (m : Machine) :
    readRom offset fd m = { m with
      mem := fun i => if offset ≤ i then fd.getD (i - offset) (m.mem i) else m.mem i } := by
  induction fd generalizing offset m with
  | nil => simp only [readRom, List.getD_nil, ite_self]
  | cons b fd ih =>
      rw [readRom, ih]
      congr 1
      funext i
      dsimp only
      obtain hlt | rfl | hgt := Nat.lt_trichotomy i offset
      · rw [if_neg (by omega), if_neg (by omega), Function.update_of_ne (by omega)]
      · rw [if_neg (by omega), if_pos (Nat.le_refl _), Nat.sub_self, Function.update_self,
          List.getD_cons_zero]
      · have hsub : i - offset = i - (offset + 1) + 1 := by omega
        rw [if_pos (by omega), if_pos (by omega), Function.update_of_ne (by omega), hsub,
          List.getD_cons_succ]

/-- Loading a ROM changes memory and the mode of the machine. -/
theorem monromLoad_eq (romFile : String) (m : Machine) : ∃ mem mzMode,
    monromLoad romFile m = { m with mem := mem, mzMode := mzMode } := by
  rw [monromLoad]
  cases m.files (monromPath romFile m) with
  | none => exact ⟨m.mem, _, rfl⟩
  | some fd =>
      dsimp only
      rw [readRom_eq]
      exact ⟨_, _, rfl⟩

/-- The monitor ROM is the file, and what it is too short for stays. -/
theorem mem_monromLoad {romFile : String} {m : Machine} {fd : List UInt8}
    (h : m.files (monromPath romFile m) = some fd) (i : Nat) :
    (monromLoad romFile m).mem i = fd.getD i (m.mem i) := by
  rw [monromLoad, h]
  dsimp only
  rw [readRom_eq]
  rfl

end M5Z80
