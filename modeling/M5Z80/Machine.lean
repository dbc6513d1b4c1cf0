import Mathlib.Algebra.Ring.Int.Defs
import Mathlib.Algebra.Ring.Nat
import Mathlib.Logic.Function.Basic

/-!
# M5Z80.Machine

The state of the emulated MZ-700: the Z80 registers of `z80.c`, the
hardware status records of `MZhw.h` and the file-scope variables that the
memory bus, the 8253, the tape deck and the CPU core share.

Types follow the source.  A `byte`, `WORD` or `dword` is a `UInt8`,
`UInt16` or `UInt32`; the T-state counters, which run until they wrap, are
`Int32`; an `int` whose arithmetic stays far from the ends of its range is
an `Int`.  An array is a function of its index.  `Trace` is the one part
with no variable behind it: it records what the code does without leaving
a mark in its own state.
-/

namespace M5Z80

/-! ## constants of `m5z700.h` -/

/-- Offset of the monitor ROM in `mem`. -/
def romStart : Nat := 0

/-- Offset of the second ROM in `mem`. -/
def rom2Start : Nat := 4 * 1024

/-- Offset of the video RAM in `mem`. -/
def vidStart : Nat := 10 * 1024

/-- Offset of the 64K main RAM in `mem`. -/
def ramStart : Nat := 14 * 1024

/-- `CPU_SPEED`, and `CPU_SPEED_BASE`: 3.580 MHz. -/
def cpuSpeedHz : Int32 := 3580000

/-- `VRAM_ACCESS_WAIT`: T-states a VRAM access waits. -/
def vramAccessWait : Nat := 42

/-- `TEMPO_TSTATES`: T-states between two toggles of the tempo bit. -/
def tempoTstatesPeriod : Int32 := cpuSpeedHz * 10 / 381 / 2

/-- `VBLANK_TSTATES`. -/
def vblankTstates : Int32 := 45547

/-- `cval`: T-states between two ticks of the 8253. -/
def cval : Int32 := cpuSpeedHz / 31250

/-! ## registers -/

/-- `pair`: a Z80 word kept in 32 bits.  `wl` is the word itself, `wh` the
upper half, of which `z80.h` says that it is always zero. -/
structure Pair where
  wl : UInt16
  wh : UInt16
deriving DecidableEq

namespace Pair

/-- The whole 32 bits, `D`. -/
def d (p : Pair) : UInt32 := p.wl.toUInt32 ||| (p.wh.toUInt32 <<< 16)

/-- A pair after an assignment to `D`. -/
def ofD (x : UInt32) : Pair := ⟨x.toUInt16, (x >>> 16).toUInt16⟩

/-- The low byte, `B.l`. -/
def bl (p : Pair) : UInt8 := p.wl.toUInt8

/-- The high byte of the word, `B.h`. -/
def bh (p : Pair) : UInt8 := (p.wl >>> 8).toUInt8

/-- Assignment to `B.l`. -/
def setBl (p : Pair) (v : UInt8) : Pair := { p with wl := (p.wl &&& (0xFF00 : UInt16)) ||| v.toUInt16 }

/-- Assignment to `B.h`. -/
def setBh (p : Pair) (v : UInt8) : Pair :=
  { p with wl := (p.wl &&& (0x00FF : UInt16)) ||| (v.toUInt16 <<< 8) }

end Pair

/-- The register pairs of `Z80_Regs`. -/
structure RegFile where
  af : Pair
  bc : Pair
  de : Pair
  hl : Pair
  ix : Pair
  iy : Pair
  pc : Pair
  sp : Pair
  af2 : Pair
  bc2 : Pair
  de2 : Pair
  hl2 : Pair

/-- `Z80_Regs`: the register pairs and the control registers. -/
structure Z80Regs extends RegFile where
  iff1 : UInt32
  iff2 : UInt32
  halt : UInt32
  im : UInt32
  i : UInt32
  r : UInt32
  r2 : UInt32

/-! ## hardware status records of `MZhw.h` -/

/-- Base codes of a memory bank: `MB_ROM1` and the names after it. -/
inductive MemBase
  | rom1 | rom2 | ram | vram | dummy | font
  /-- `MB_PCGB` and the codes after it, which no branch knows. -/
  | other
deriving DecidableEq

/-- `TMEMBANK`: one 2K page of the CPU's address space. -/
structure TMemBank where
  ofs : UInt16
  base : MemBase
  attr : UInt8

/-- The allocated blocks a page pointer can point into. -/
inductive Block
  | mem | junk | mzFont
deriving DecidableEq

/-- An entry of `memptr`: a block and an offset in it. -/
structure Ptr where
  block : Block
  ofs : Nat
deriving DecidableEq

/-- `THW700_STAT`. -/
structure Thw700Stat where
  memctrl : Fin 32 → TMemBank
  pbSelect : Int
  pcg700Data : UInt32
  pcg700Addr : UInt32
  cursorCou : Int
  pcg700Mode : UInt16
  tempoStrobe : UInt8
  motor : UInt8
  retrace : UInt8
  vgate : UInt8
  led : UInt8
  wdata : UInt8

/-- `T700_TS`: the T-state counters and the state of the tape deck. -/
structure T700Ts where
  cpuTstates : Int32
  tempoTstates : Int32
  vsyncTstates : Int32
  pitTstates : Int32
  cmtTstates : Int32
  cmtPlay : Int32
  mztStart : Int32
  mztElapse : Int32
  mztBsize : Int
  mztSettape : Int
  mztPeriod : Int

/-- `T8253_STAT`: one channel of the 8253. -/
structure T8253Stat where
  bcd : UInt8
  mode : UInt8
  rl : UInt8
  rlBak : UInt8
  latFlag : Int
  running : Int
  counter : Int
  counterBase : UInt16
  counterOut : UInt16
  counterLat : UInt16
  bitHl : UInt16
deriving DecidableEq

/-- `T8253_DAT`: the last control word and the sound gate. -/
structure T8253Dat where
  bcd : UInt8
  m : UInt8
  rl : UInt8
  sc : UInt8
  makesound : UInt8
  setsound : UInt8
deriving DecidableEq

/-- `SYS_STATUS`. -/
structure SysStatus where
  led : Int
  tape : Int
  motor : Int
deriving DecidableEq

/-- `MZMODE_80` and `MZMODE_700`. -/
inductive MzMode
  | mode80 | mode700
deriving DecidableEq

/-- The tape buffers of `MZhw.cpp`: the word under the head, the window of
words read from the temporary tape file and the byte buffer that reader
and writer share. -/
structure TapeBuf where
  tapeData : UInt32
  preTword : Int
  readTword : Int
  bufStartTword : Int
  tapeDataBuf : Nat → UInt32
  tapeDataSaveBuf : Nat → UInt8
  tapeReadBufCount : Nat

/-! ## what the code does without leaving a mark -/

/-- The arrays whose index the code computes. -/
inductive Table
  | memctrl | keyports | stat8253 | mzFont | pcg700Font | tapeDataBuf | pwmTable | opcodes
deriving DecidableEq

/-- Number of elements of each array. -/
def Table.size : Table → Int
  | .memctrl => 32
  | .keyports => 10
  | .stat8253 => 3
  | .mzFont => 4096
  | .pcg700Font => 2048
  | .tapeDataBuf => 400
  | .pwmTable => 256
  | .opcodes => 256

/-- `used` lists every array access with the index it used, the latest
first; `speeds` counts the calls of `setup_cpuspeed`. -/
structure Trace where
  used : List (Table × Int)
  speeds : Nat

/-! ## the machine -/

/-- Everything the emulator core keeps between two instructions.  `files`
is the flash file system: the bytes of each file, `none` for a name that
cannot be opened. -/
structure Machine where
  r : Z80Regs
  z80IPeriod : Int32
  z80ICount : Int32
  z80Intflag : UInt32
  hw700 : Thw700Stat
  ts700 : T700Ts
  dat8253 : T8253Dat
  stat8253 : Fin 3 → T8253Stat
  mem : Nat → UInt8
  memptr : Fin 32 → Ptr
  junk : Nat → UInt8
  mzFont : Nat → UInt8
  pcg700Font : Nat → UInt8
  keyports : Fin 10 → UInt8
  sysst : SysStatus
  xferFlag : UInt32
  tape : TapeBuf
  mzMode : MzMode
  files : String → Option (List UInt8)
  trace : Trace

namespace Machine

/-- Note the use of index `i` into `t`. -/
def use (m : Machine) (t : Table) (i : Int) : Machine :=
  { m with trace.used := (t, i) :: m.trace.used }

/-- Start a new trace. -/
def untraced (m : Machine) : Machine := { m with trace := ⟨[], 0⟩ }

/-- The bytes of a block. -/
def bytes (m : Machine) : Block → Nat → UInt8
  | .mem => m.mem
  | .junk => m.junk
  | .mzFont => m.mzFont

/-- The byte a page pointer points at, `ofs` bytes on. -/
def deref (m : Machine) (p : Ptr) (ofs : Nat) : UInt8 := m.bytes p.block (p.ofs + ofs)

/-- Write a byte through a page pointer. -/
def store (m : Machine) (p : Ptr) (ofs : Nat) (v : UInt8) : Machine :=
  match p.block with
  | .mem => { m with mem := Function.update m.mem (p.ofs + ofs) v }
  | .junk => { m with junk := Function.update m.junk (p.ofs + ofs) v }
  | .mzFont => { m with mzFont := Function.update m.mzFont (p.ofs + ofs) v }

end Machine

end M5Z80
