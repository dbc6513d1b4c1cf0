import M5Z80.Clock

/-!
# M5Z80.Tape

The tape deck of `MZhw.cpp`.  `set_mztData` mounts an MZT file: it turns
the file into the words of a PWM signal and leaves them in a temporary
file.  `cmt_read` plays it: from the time the tape has run it works out
the word and the bit under the head, and keeps a window of 400 words of
the temporary file in memory.

An opened file is the list of its bytes; `read()` returns the next byte,
or `-1` at the end.
-/

namespace M5Z80

/-- `SYST_LED`. -/
def systLed : UInt32 := 1

/-- `SYST_CMT`. -/
def systCmt : UInt32 := 2

/-- `SYST_MOTOR`. -/
def systMotor : UInt32 := 4

/-! ## the pulse patterns -/

/-- `mzt_leader1`, as `makePWM` fills it. -/
def mztLeader1 (i : Nat) : UInt32 :=
  if i < 442 then (if i % 2 = 0 then 0xAAAAAAA0 else 0x55555540)
  else
    [0xAAADB6C0, 0xDB6DB6C0, 0xDB6DB6C0, 0xDB6DB6C0, 0x6DB6DB40, 0xAAAAAAA0, 0x55555540,
      0xAAAAAAC0].getD (i - 442) 0

/-- `mzt_leader2`, as `makePWM` fills it. -/
def mztLeader2 (i : Nat) : UInt32 :=
  if i < 432 then (if i % 2 = 0 then 0xAAAAAAA0 else 0x55555540)
  else [0xAAAAAAA0, 0x56DB6DA0, 0xB6DB6DA0, 0xB6D55540, 0xAAAAAAC0].getD (i - 432) 0

/-- A row of `pwmTable`: bit length, pattern and number of `1` bits. -/
structure PwmEntry where
  len : UInt32
  pattern : UInt32
  ones : UInt32

/-- The loop over the eight data bits in `makePWM`; `pat` holds the bits
that are left, the next one in bit 7. -/
def makePWMBits : Nat → UInt32 → PwmEntry → PwmEntry
  | 0, _, e => e
  | j + 1, pat, e =>
      makePWMBits j (pat <<< 1)
        (if pat &&& 0x80 ≠ 0 then ⟨e.len + 3, (6 : UInt32) ||| (e.pattern <<< 3), e.ones + 1⟩
        else ⟨e.len + 3, (4 : UInt32) ||| (e.pattern <<< 3), e.ones⟩)

/-- `pwmTable[i]`, as `makePWM` fills it. -/
def pwmTable (i : Nat) : PwmEntry :=
  let e := makePWMBits 8 i.toUInt32 ⟨3, 6, 0⟩
  { e with pattern := e.pattern <<< (32 - e.len) }

/-- `pwmTable[bb]` for an `int` index; past the ends of the table there is
no entry. -/
def pwmAt (bb : Int) : PwmEntry :=
  if 0 ≤ bb ∧ bb < 256 then pwmTable bb.toNat else ⟨0, 0, 0⟩

/-! ## writing the temporary file -/

/-- `TAPE_DIRECTORY`. -/
def tapeDirectory : String := ""

/-- The path `set_mztData` and `setMztToMemory` open for a file name. -/
def mztPath (mztFile : String) : String := tapeDirectory ++ "/" ++ mztFile

/-- The temporary file. -/
def tmpTapeDataPath : String := "/tmpTapeData"

/-- `flushTapeBuf`: append the filled part of the buffer to the file. -/
def flushTapeBuf (m : Machine) : Machine :=
  if 0 < m.tape.tapeReadBufCount then
    let bytes := (List.range m.tape.tapeReadBufCount).map m.tape.tapeDataSaveBuf
    { m with
      files := Function.update m.files tmpTapeDataPath
        (some ((m.files tmpTapeDataPath).getD [] ++ bytes))
      tape.tapeReadBufCount := 0 }
  else m

/-- `tapeDataSaveBuf[tapeReadBufCount++] = b`. -/
def pushSaveBuf (m : Machine) (b : UInt8) : Machine :=
  { m with
    tape.tapeDataSaveBuf := Function.update m.tape.tapeDataSaveBuf m.tape.tapeReadBufCount b
    tape.tapeReadBufCount := m.tape.tapeReadBufCount + 1 }

/-- The four bytes of a word, least significant first. -/
def uint32Bytes (data : UInt32) : List UInt8 :=
  [(data &&& 255).toUInt8, ((data >>> 8) &&& 255).toUInt8, ((data >>> 16) &&& 255).toUInt8,
    ((data >>> 24) &&& 255).toUInt8]

/-- `writeUINT32`. -/
def writeUINT32 (data : UInt32) (m : Machine) : Machine :=
  let m := (uint32Bytes data).foldl pushSaveBuf m
  if 1600 ≤ m.tape.tapeReadBufCount then flushTapeBuf m else m

/-- `mzt_buf_tmp++; writeUINT32(..)`: the pair is the word count and the
machine. -/
def putWord (data : UInt32) (s : Int × Machine) : Int × Machine :=
  (s.1 + 1, writeUINT32 data s.2)

/-- Write the first `n` words of a leader. -/
def putLeader (leader : Nat → UInt32) (n : Nat) (s : Int × Machine) : Int × Machine :=
  (List.range n).foldl (fun s i => putWord (leader i) s) s

/-- Write the pattern of one byte and add its `1` bits to `sum`. -/
def putByte (s : UInt32 × Int × Machine) (bb : Int) : UInt32 × Int × Machine :=
  (s.1 + (pwmAt bb).ones, putWord (pwmAt bb).pattern (s.2.1, s.2.2.use .pwmTable bb))

/-- Write a block: its bytes, the two bytes of its checksum and the
terminator. -/
def putBlock (bytes : List Int) (s : Int × Machine) : Int × Machine :=
  let (sum, s) := bytes.foldl putByte (0, s)
  let (_, s) := putByte (0, s) ((sum >>> 8) &&& 0xff).toNat
  let (_, s) := putByte (0, s) (sum &&& 0xff).toNat
  putWord 0xC0000000 s

/-- What `n` calls of `fd.read()` return. -/
def readInts (fd : List UInt8) (n : Nat) : List Int :=
  (List.range n).map fun i => match fd[i]? with
    | some b => b.toNat
    | none => -1

/-- The 16-bit field at offset `i` of a header, low byte first. -/
def word16At (header : List UInt8) (i : Nat) : Nat :=
  (header.getD i 0).toNat + (header.getD (i + 1) 0).toNat * 256

/-- The record loop of `set_mztData`: a leader, then a header; a header
that is cut short ends the tape, a whole one is followed by its body. -/
def mztRecords (fd : List UInt8) (s : Int × Machine) : Int × Machine :=
  let s := putLeader mztLeader1 450 s
  let tmpBuf := fd.take 128
  if _h : tmpBuf.length < 128 then s
  else
    let s := putBlock (readInts tmpBuf 128) s
    let bsize := word16At tmpBuf 0x12
    let s := putLeader mztLeader2 437 s
    let s := putBlock (readInts (fd.drop 128) bsize) s
    mztRecords ((fd.drop 128).drop bsize) s
termination_by fd.length
decreasing_by
  have : ¬ (fd.take 128).length < 128 := _h
  simp only [List.length_drop, List.length_take] at this ⊢
  omega

/-- Open the temporary file for writing. -/
def openTmpTapeData (m : Machine) : Machine :=
  { m with
    files := Function.update m.files tmpTapeDataPath (some [])
    tape.tapeReadBufCount := 0 }

/-- A tape of `mztBufTmp` words is in the deck, and nothing of it is read. -/
def setTape (mztBufTmp : Int) (m : Machine) : Machine :=
  { m with
    ts700.mztBsize := mztBufTmp
    ts700.mztElapse := 0
    ts700.mztSettape := 1
    ts700.mztPeriod := if mztBufTmp < 4000 then 2 else 1
    sysst.tape := 0
    xferFlag := m.xferFlag ||| systCmt
    tape.tapeData := 0
    tape.preTword := 0
    tape.readTword := 0
    tape.bufStartTword := 0 }

/-- `set_mztData`: `false` when the file cannot be opened.  The temporary
file is opened for writing before that is known. -/
def setMztData (mztFile : String) (m : Machine) : Bool × Machine :=
  let fd := m.files (mztPath mztFile)
  let m := openTmpTapeData m
  match fd with
  | none => (false, { m with ts700.mztSettape := 0, sysst.tape := 0 })
  | some fd =>
      let (mztBufTmp, m) := mztRecords fd (0, m)
      (true, flushTapeBuf (setTape mztBufTmp m))

/-! ## playing the tape -/

/-- T-states of one bit of a word. -/
def calcParam : MzMode → Int
  | .mode80 => 428
  | .mode700 => 766

/-- The time the tape has run, as `cmt_read` computes it. -/
def elapsed (m : Machine) : Int :=
  (m.ts700.cpuTstates - m.ts700.mztStart + m.ts700.mztElapse).toInt

/-- The word under the head. -/
def twordOf (mode : MzMode) (e : Int) : Int := e.tdiv (27 * calcParam mode)

/-- The bit of that word under the head. -/
def tbitOf (mode : MzMode) (e : Int) : Int := (e.tmod (27 * calcParam mode)).tdiv (calcParam mode)

/-- The word in bytes `i` to `i + 3` of the byte buffer. -/
def saveBufWord (buf : Nat → UInt8) (i : Nat) : UInt32 :=
  (buf i).toUInt32 ||| ((buf (i + 1)).toUInt32 <<< 8) ||| ((buf (i + 2)).toUInt32 <<< 16) |||
    ((buf (i + 3)).toUInt32 <<< 24)

/-- Read the next 400 words of the temporary file into the window. -/
def refill (file : List UInt8) (t : TapeBuf) : TapeBuf :=
  let data := (file.drop (t.readTword * 4).toNat).take 1600
  let saveBuf := fun i => match data[i]? with
    | some b => b
    | none => t.tapeDataSaveBuf i
  { t with
    bufStartTword := t.readTword
    tapeDataSaveBuf := saveBuf
    tapeDataBuf := fun k => if 4 * k < data.length then saveBufWord saveBuf (4 * k)
      else t.tapeDataBuf k
    readTword := t.readTword + data.length / 4 }

/-- Bring word `tword` under the head. -/
def seekTword (tword : Int) (m : Machine) : Machine :=
  if m.tape.preTword ≠ tword then
    let t := { m.tape with preTword := tword }
    let t := if t.readTword ≤ tword then refill ((m.files tmpTapeDataPath).getD []) t else t
    let i := tword - t.bufStartTword
    { m with tape := { t with tapeData := t.tapeDataBuf i.toNat } }.use .tapeDataBuf i
  else m

/-- The end of the tape: the deck stops and the CPU slows down. -/
def endOfTape (m : Machine) : Machine :=
  let m := { m with ts700.cmtPlay := 0, ts700.cmtTstates := 0, sysst.tape := 100 }
  { setupCpuspeed 1 m with
    tape := { m.tape with tapeData := 0, preTword := 0, readTword := 0, bufStartTword := 0 } }

/-- The progress display: `sysst.tape` follows the position in steps. -/
def showPercent (tword : Int) (m : Machine) : Machine :=
  let percent := (tword * 100).tdiv m.ts700.mztBsize
  if m.ts700.mztPeriod ≤ percent - m.sysst.tape then
    { m with sysst.tape := percent, xferFlag := m.xferFlag ||| systCmt }
  else m

/-- `cmt_read`: the tape signal, `0x20` or `0`. -/
def cmtRead (m : Machine) : Int × Machine :=
  if m.ts700.cmtTstates = 0 then (0, m)
  else
    let tword := twordOf m.mzMode (elapsed m)
    let tbit := tbitOf m.mzMode (elapsed m)
    if m.ts700.mztBsize ≤ tword then (0, endOfTape m)
    else
      let m := seekTword tword (showPercent tword m)
      (if (m.tape.tapeData <<< tbit.toNat.toUInt32) &&& 0x80000000 ≠ 0 then 0x20 else 0, m)

/-- What `selectMzt` and `setMztToMemory` do after mounting a tape: start
the deck, whatever `set_mztData` returned. -/
def startTape (mztFile : String) (m : Machine) : Machine :=
  let (_, m) := setMztData mztFile m
  let m := { m with
    ts700.cmtPlay := 1
    ts700.mztStart := m.ts700.cpuTstates
    ts700.cmtTstates := 1 }
  let m := setupCpuspeed 5 m
  { m with sysst.motor := 1, xferFlag := m.xferFlag ||| systMotor }

end M5Z80
