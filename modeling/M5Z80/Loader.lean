import M5Z80.Tape

/-!
# M5Z80.Loader

The MZT files of `Mzmain.cpp`.  `saveMZTImage` writes the main RAM and the
program counter as a machine-code file; `setMztToMemory` loads such a file,
plain or in an `mz20` container, and mounts any other one as a tape.

A file that is being read is the list of its bytes that are not read yet;
its length is the variable `remain` of the source, which goes below zero
where the list is empty.
-/

namespace M5Z80

/-! ## saving -/

/-- The name of the image. -/
def imageName : MzMode → String
  | .mode80 => "0_M5Z80MEM.MZT"
  | .mode700 => "0_M5Z700MEM.MZT"

/-- The header: mode, name, size, load address and `addr`, the execution
address, as `saveMZTImage` orders their bytes. -/
def imageHeader (addr : UInt32) : List UInt8 :=
  (0x01 : UInt8) :: ['M', '5', 'Z', 'M', 'E', 'M'].map (·.toNat.toUInt8) ++
    List.replicate 11 (0x0D : UInt8) ++ [(0xFF : UInt8), 0xBD, 0x00, 0x12, (addr >>> 8).toUInt8,
    addr.toUInt8] ++ List.replicate (0x80 - 0x18) (0x00 : UInt8)

/-- The bytes of the main RAM from `0x1200` to `0xCFFF`. -/
def imageBody (m : Machine) : List UInt8 :=
  (List.range' 0x1200 (0xD000 - 0x1200)).map fun index => m.mem (ramStart + index)

/-- `saveMZTImage`; `opened` says whether the file could be opened. -/
def saveMZTImage (opened : Bool) (m : Machine) : Bool × Machine :=
  if opened then
    (true, { m with
      files := Function.update m.files (mztPath (imageName m.mzMode))
        (some (imageHeader m.r.pc.d ++ imageBody m)) })
  else (false, m)

/-! ## loading -/

/-- `fd.read(mem + offs + RAM_START, ..)`: store the bytes read. -/
def readToRam (offs : Nat) (data : List UInt8) (m : Machine) : Machine :=
  { m with
    mem := fun i =>
      if ramStart + offs ≤ i then data.getD (i - (ramStart + offs)) (m.mem i) else m.mem i }

/-- `Z80_GetRegs`, `StartRegs.PC.D = addr` and `Z80_SetRegs`. -/
def setStart (addr : Nat) (m : Machine) : Machine :=
  { m with r := { m.r with pc := Pair.ofD addr.toUInt32 } }

/-- The records of a plain file.  One that is not machine code mounts the
whole file as a tape. -/
def loadMzt (mztFile : String) (fd : List UInt8) (m : Machine) : Machine :=
  if _h : fd.length < 128 then m
  else
    let header := fd.take 128
    let fd := fd.drop 128
    if header.getD 0 0 ≠ 1 then startTape mztFile m
    else
      let size := word16At header 0x12
      let offs := word16At header 0x14
      let addr := word16At header 0x16
      let m := if size ≤ fd.length then readToRam offs (fd.take size) m else m
      loadMzt mztFile (fd.drop size) (setStart addr m)
termination_by fd.length
decreasing_by
  simp only [List.length_drop]
  omega

/-- The records of an `mz20` file: two bytes of checksum follow a header
and a body.  `startRegs k` is what the `k`-th record finds in the local
variable it copies to the registers without assigning more than `PC`. -/
def loadMz20 (startRegs : Nat → Z80Regs) (k : Nat) (fd : List UInt8) (m : Machine) : Machine :=
  if _h : fd.length < 128 + 2 + 2 then m
  else
    let header := fd.take 128
    let fd := fd.drop (128 + 2)
    let size := word16At header 0x12
    let offs := word16At header 0x14
    let addr := word16At header 0x16
    let m := if size + 2 ≤ fd.length then readToRam offs (fd.take size) m else m
    loadMz20 startRegs (k + 1) (fd.drop (size + 2))
      { m with r := { startRegs k with pc := Pair.ofD addr.toUInt32 } }
termination_by fd.length
decreasing_by
  simp only [List.length_drop]
  omega

/-- `setMztToMemory`: `false` when the file cannot be opened. -/
def setMztToMemory (startRegs : Nat → Z80Regs) (mztFile : String) (m : Machine) :
    Bool × Machine :=
  match m.files (mztPath mztFile) with
  | none => (false, m)
  | some fd =>
      if fd.take 4 = ['m', 'z', '2', '0'].map (·.toNat.toUInt8) then
        (true, loadMz20 startRegs 0 (fd.drop 8) m)
      else (true, loadMzt mztFile fd m)

/-! ## what loading changes -/

/-- A byte of memory after a read. -/
theorem mem_readToRam (offs : Nat) (data : List UInt8) (m : Machine) (i : Nat) :
    (readToRam offs data m).mem i =
      if ramStart + offs ≤ i then data.getD (i - (ramStart + offs)) (m.mem i) else m.mem i := rfl

/-- The start address is a register, not memory. -/
@[simp] theorem mem_setStart (addr : Nat) (m : Machine) : (setStart addr m).mem = m.mem := rfl

/-- A file too short for a header loads nothing. -/
theorem loadMzt_of_short {fd : List UInt8} (h : fd.length < 128) (mztFile : String) (m : Machine) :
    loadMzt mztFile fd m = m := by
  rw [loadMzt, dif_pos h]

/-- A complete machine-code record. -/
theorem loadMzt_record {header body : List UInt8} (hlen : header.length = 128)
    (hmode : header.getD 0 0 = 1) (hsize : word16At header 0x12 ≤ body.length) (mztFile : String)
    (m : Machine) :
    loadMzt mztFile (header ++ body) m =
      loadMzt mztFile (body.drop (word16At header 0x12))
        (setStart (word16At header 0x16)
          (readToRam (word16At header 0x14) (body.take (word16At header 0x12)) m)) := by
  rw [loadMzt]
  rw [dif_neg (by rw [List.length_append]; omega)]
  simp only [List.take_left' hlen, List.drop_left' hlen]
  rw [if_neg (not_not_intro hmode), if_pos hsize]

end M5Z80
