import M5Z80.Frame

/-!
# M5Z80.Mounting

What mounting a tape leaves alone.  `set_mztData` works on the temporary
file, the tape buffers and the position of the deck; starting the deck sets
the speed.  The rest of the machine, among it the registers, memory and the
lines of port C, stays as it is.
-/

namespace M5Z80

/-- The machine without its files, its tape buffers and its trace: what two
machines that differ in a tape only have in common. -/
def Machine.offTape (m : Machine) : Machine :=
  { m with
    files := fun _ => none
    tape := ⟨0, 0, 0, 0, fun _ => 0, fun _ => 0, 0⟩
    trace := ⟨[], 0⟩ }

/-! ## writing the temporary file -/

/-- The buffer of the tape is opened anew. -/
@[simp] theorem offTape_openTmpTapeData (m : Machine) :
    (openTmpTapeData m).offTape = m.offTape := rfl

/-- The buffer is written to the file. -/
@[simp] theorem offTape_flushTapeBuf (m : Machine) : (flushTapeBuf m).offTape = m.offTape := by
  unfold flushTapeBuf
  split <;> rfl

@[simp] theorem offTape_pushSaveBuf (m : Machine) (b : UInt8) :
    (pushSaveBuf m b).offTape = m.offTape := rfl

/-- By induction on what is put. -/
theorem offTape_foldl {α σ : Type} (machine : σ → Machine) {put : σ → α → σ}
    (hput : ∀ s a, (machine (put s a)).offTape = (machine s).offTape) (l : List α) (s : σ) :
    (machine (l.foldl put s)).offTape = (machine s).offTape := by
  induction l generalizing s with
  | nil => rfl
  | cons a l ih => exact (ih _).trans (hput s a)

/-- A word goes to the buffer byte by byte. -/
@[simp] theorem offTape_writeUINT32 (data : UInt32) (m : Machine) :
    (writeUINT32 data m).offTape = m.offTape := by
  have hpush : ((uint32Bytes data).foldl pushSaveBuf m).offTape = m.offTape :=
    offTape_foldl id offTape_pushSaveBuf _ m
  unfold writeUINT32
  dsimp only
  split
  · rw [offTape_flushTapeBuf, hpush]
  · exact hpush

@[simp] theorem offTape_putWord (data : UInt32) (s : Int × Machine) :
    (putWord data s).2.offTape = s.2.offTape :=
  offTape_writeUINT32 data s.2

/-- A leader is a number of words. -/
@[simp] theorem offTape_putLeader (leader : Nat → UInt32) (n : Nat) (s : Int × Machine) :
    (putLeader leader n s).2.offTape = s.2.offTape :=
  offTape_foldl Prod.snd (fun s i => offTape_putWord (leader i) s) _ s

/-- A byte is a word of the table. -/
@[simp] theorem offTape_putByte (s : UInt32 × Int × Machine) (bb : Int) :
    (putByte s bb).2.2.offTape = s.2.2.offTape :=
  offTape_putWord _ _

/-- A block is its leader, its bytes, its checksum and its mark. -/
@[simp] theorem offTape_putBlock (bytes : List Int) (s : Int × Machine) :
    (putBlock bytes s).2.offTape = s.2.offTape := by
  have hbytes : (bytes.foldl putByte (0, s)).2.2.offTape = s.2.offTape :=
    offTape_foldl (fun s => s.2.2) offTape_putByte bytes (0, s)
  simp only [putBlock, offTape_putWord, offTape_putByte, hbytes]

/-- By recursion over the file: all its records. -/
@[simp] theorem offTape_mztRecords (fd : List UInt8) (s : Int × Machine) :
    (mztRecords fd s).2.offTape = s.2.offTape := by
  induction fd, s using mztRecords.induct with
  | case1 fd s =>
      rename_i hshort
      rw [mztRecords, dif_pos hshort, offTape_putLeader]
  | case2 fd s =>
      rename_i first _ hlong header _ second body ih
      have hbody : body.2.offTape = s.2.offTape := by
        simp only [body, second, header, first, offTape_putBlock, offTape_putLeader]
      rw [mztRecords, dif_neg hlong]
      exact ih.trans hbody

/-! ## the deck -/

/-- A mounted tape forgets the position of the one before. -/
theorem offTape_setTape (mztBufTmp : Int) {m m' : Machine} (h : m'.offTape = m.offTape) :
    (setTape mztBufTmp m').offTape = (setTape mztBufTmp m).offTape := by
  have hset (s : Machine) : (setTape mztBufTmp s).offTape = (setTape mztBufTmp s.offTape).offTape := rfl
  rw [hset m', h, ← hset]

/-- A file in the deck. -/
theorem offTape_setMztData {mztFile : String} {m : Machine} {fd : List UInt8}
    (h : m.files (mztPath mztFile) = some fd) :
    (setMztData mztFile m).2.offTape =
      (setTape (mztRecords fd (0, openTmpTapeData m)).1 m).offTape := by
  simp only [setMztData, h, offTape_flushTapeBuf]
  refine offTape_setTape _ ?_
  rw [offTape_mztRecords, offTape_openTmpTapeData]

/-- A file that cannot be opened. -/
theorem offTape_setMztData_none {mztFile : String} {m : Machine}
    (h : m.files (mztPath mztFile) = none) :
    (setMztData mztFile m).2.offTape =
      { m with ts700.mztSettape := 0, sysst.tape := 0 }.offTape := by
  simp only [setMztData, h]
  rfl

theorem mzMode_offTape (m : Machine) : m.offTape.mzMode = m.mzMode := rfl

/-- To mount a tape does not change the mode of the machine. -/
theorem mzMode_setMztData {mztFile : String} {m : Machine} {fd : List UInt8}
    (h : m.files (mztPath mztFile) = some fd) : (setMztData mztFile m).2.mzMode = m.mzMode := by
  rw [← mzMode_offTape, offTape_setMztData h]
  rfl

/-- What selecting a tape can change. -/
theorem offTape_startTape (mztFile : String) (m : Machine) :
    ∃ z80IPeriod z80ICount ts700 sysst xferFlag, (startTape mztFile m).offTape =
      { m with
        z80IPeriod := z80IPeriod
        z80ICount := z80ICount
        ts700 := ts700
        sysst := sysst
        xferFlag := xferFlag }.offTape := by
  obtain ⟨ts700, sysst, xferFlag, hmount⟩ : ∃ ts700 sysst xferFlag,
      (setMztData mztFile m).2.offTape =
        { m with ts700 := ts700, sysst := sysst, xferFlag := xferFlag }.offTape := by
    cases h : m.files (mztPath mztFile) with
    | none => exact ⟨_, _, _, offTape_setMztData_none h⟩
    | some fd => exact ⟨_, _, _, offTape_setMztData h⟩
  let start (s : Machine) : Machine :=
    { s with
      z80IPeriod := period 5
      z80ICount := period 5
      ts700.cmtPlay := 1
      ts700.mztStart := s.ts700.cpuTstates
      ts700.cmtTstates := 1
      sysst.motor := 1
      xferFlag := s.xferFlag ||| systMotor }
  have hstart : (startTape mztFile m).offTape = (start (setMztData mztFile m).2.offTape).offTape := rfl
  rw [hstart, hmount]
  exact ⟨_, _, _, _, _, rfl⟩

/-- To start a tape does not touch the registers. -/
@[simp] theorem r_startTape (mztFile : String) (m : Machine) : (startTape mztFile m).r = m.r := by
  obtain ⟨_, _, _, _, _, h⟩ := offTape_startTape mztFile m
  change (startTape mztFile m).offTape.r = m.r
  rw [h]
  rfl

/-- To start a tape does not touch memory. -/
@[simp] theorem mem_startTape (mztFile : String) (m : Machine) :
    (startTape mztFile m).mem = m.mem := by
  obtain ⟨_, _, _, _, _, h⟩ := offTape_startTape mztFile m
  change (startTape mztFile m).offTape.mem = m.mem
  rw [h]
  rfl

/-- To start a tape does not touch the lines of the ports. -/
@[simp] theorem hw700_startTape (mztFile : String) (m : Machine) :
    (startTape mztFile m).hw700 = m.hw700 := by
  obtain ⟨_, _, _, _, _, h⟩ := offTape_startTape mztFile m
  change (startTape mztFile m).offTape.hw700 = m.hw700
  rw [h]
  rfl

end M5Z80
