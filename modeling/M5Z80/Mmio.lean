import M5Z80.Pit
import M5Z80.Tape

/-!
# M5Z80.Mmio

The memory-mapped registers `E000`-`E012` (`mmio_in` and `mmio_out` of
`MZhw.cpp`): keyboard, tape signal, port C of the 8255, the 8253 and the
PCG-700.
-/

namespace M5Z80

/-! ## reading -/

/-- `keyports[hw700.pb_select]`. -/
def readKeyport (m : Machine) : Int × Machine :=
  let i := m.hw700.pbSelect
  (if h : 0 ≤ i ∧ i < 10 then (m.keyports ⟨i.toNat, by omega⟩).toNat else 0, m.use .keyports i)

/-- Port C of the 8255: cursor timer, tape signal, motor and vertical
blanking. -/
def readPortC (m : Machine) : Int × Machine :=
  let cursor : Int32 := if m.hw700.cursorCou > 19 then 0x40 else 0
  let (signal, m) := cmtRead m
  let retrace : Int32 := Int32.ofNat (m.hw700.retrace ^^^ 1).toNat
  (((retrace <<< 7) ||| (m.ts700.cmtTstates <<< 4) ||| (cursor ||| Int32.ofInt signal) |||
    (0x0F : Int32)).toInt, m)

/-- A counter of the 8253. -/
def readCounter (no : Fin 3) (m : Machine) : Int × Machine :=
  let m := m.use .stat8253 no
  let (v, st) := (m.stat8253 no).read
  (v, { m with stat8253 := Function.update m.stat8253 no st })

/-- `mmio_in`. -/
def mmioIn (addr : UInt32) (m : Machine) : Int × Machine :=
  if addr = 0xE000 then (0xff, m)
  else if addr = 0xE001 then readKeyport m
  else if addr = 0xE002 then readPortC m
  else if addr = 0xE003 then (0xff, m)
  else if addr = 0xE004 then readCounter 0 m
  else if addr = 0xE005 then readCounter 1 m
  else if addr = 0xE006 then readCounter 2 m
  else if addr = 0xE008 then (((0x7e : UInt8) ||| m.hw700.tempoStrobe).toNat, m)
  else (0x7e, m)

/-! ## writing -/

/-- The rising edge of the motor line: a stopped deck with a tape to play
starts, a running deck pauses. -/
def motorEdge (m : Machine) : Machine :=
  if m.ts700.cmtTstates = 0 then
    if m.ts700.cmtPlay ≠ 0 then
      let m := { m with ts700.mztStart := m.ts700.cpuTstates, ts700.cmtTstates := 1 }
      let m := setupCpuspeed 5 m
      { m with sysst.motor := 1, xferFlag := m.xferFlag ||| systMotor }
    else m
  else
    let m := setupCpuspeed 1 { m with ts700.cmtTstates := 0 }
    { m with
      ts700.mztElapse := m.ts700.mztElapse + (m.ts700.cpuTstates - m.ts700.mztStart)
      sysst.motor := 0
      xferFlag := m.xferFlag ||| systMotor }

/-- A new value of the LED line. -/
def setLed (v : UInt8) (m : Machine) : Machine :=
  if m.hw700.led ≠ v then
    { m with
      hw700.led := v
      sysst.led := if v = 0 then 1 else 2
      xferFlag := m.xferFlag ||| systLed }
  else m

/-- The latches of `VGATE` and `WDATA`. -/
def setLatches (vgate wdata : UInt8) (m : Machine) : Machine :=
  { m with hw700.vgate := vgate, hw700.wdata := wdata }

/-- The latch of the motor line. -/
def setMotor (v : UInt8) (m : Machine) : Machine := { m with hw700.motor := v }

/-- `E002`: the whole of port C. -/
def writePortC (val : UInt32) (m : Machine) : Machine :=
  let m := setLatches (val &&& 0x01).toUInt8 (val &&& 0x02).toUInt8 m
  let m := setLed (val &&& 0x04).toUInt8 m
  let m := if m.hw700.motor = 0 ∧ val &&& 0x08 ≠ 0 then motorEdge m else m
  setMotor (val &&& 0x08).toUInt8 m

/-- `E003`: set or reset one bit of port C. -/
def writePortCBit (val : UInt32) (m : Machine) : Machine :=
  let i := (val >>> 1) &&& 7
  if val &&& 1 ≠ 0 then
    if i = 0 then setLatches 1 m.hw700.wdata m
    else if i = 1 then setLatches m.hw700.vgate 2 m
    else if i = 2 then setLed 4 m
    else if i = 3 then setMotor 8 (if m.hw700.motor = 0 then motorEdge m else m)
    else m
  else
    if i = 0 then setLatches 0 m.hw700.wdata m
    else if i = 1 then setLatches m.hw700.vgate 0 m
    else if i = 2 then setLed 0 m
    else if i = 3 then setMotor 0 m
    else m

/-- `E004`-`E006`: a counter of the 8253.  Channel 0 drives the sound. -/
def writeCounter (no : Fin 3) (val : UInt32) (m : Machine) : Machine :=
  let m := modStat no (·.write val) m
  if no = 0 ∧ (m.stat8253 0).bitHl = 0 then play8253 m else m

/-- `pcg700_font[hw700.pcg700_addr & 2047] = v`. -/
def setPcg700Font (v : UInt8) (m : Machine) : Machine :=
  let i := (m.hw700.pcg700Addr &&& 2047).toNat
  { m.use .pcg700Font i with pcg700Font := Function.update m.pcg700Font i v }

/-- `E012`: the high address byte of the PCG, whose control bits copy a
byte of the character ROM or write the data byte. -/
def writePcgControl (val : UInt32) (m : Machine) : Machine :=
  let m := { m with hw700.pcg700Addr := (m.hw700.pcg700Addr &&& (0x00FF : UInt32)) ||| (val <<< 8) }
  if val &&& (16 + 32) = 16 + 32 then
    let a := m.hw700.pcg700Addr &&& 2047
    let i := if a &&& 1024 ≠ 0 then 2048 + a.toNat else 1024 + a.toNat
    setPcg700Font (m.mzFont i) (m.use .mzFont i)
  else if val &&& 16 ≠ 0 then setPcg700Font m.hw700.pcg700Data.toUInt8 m
  else m

/-- `E000`: the row of the keyboard to read; bit 7 resets the cursor timer. -/
def selectRow (val : UInt32) (m : Machine) : Machine :=
  let sel := ((val &&& 15).toNat : Int)
  { m with
    hw700.cursorCou := if val &&& 0x80 = 0 then 0 else m.hw700.cursorCou
    hw700.pbSelect := if sel > 9 then 9 else sel }

/-- `E008`: the gate of the sound. -/
def gateSound (val : UInt32) (m : Machine) : Machine :=
  play8253 { m with dat8253.makesound := (val &&& 1).toUInt8 }

/-- `E010`: the data byte of the PCG. -/
def setPcgData (val : UInt32) (m : Machine) : Machine := { m with hw700.pcg700Data := val }

/-- `E011`: the low address byte of the PCG. -/
def setPcgAddr (val : UInt32) (m : Machine) : Machine :=
  { m with hw700.pcg700Addr := (m.hw700.pcg700Addr &&& (0xFF00 : UInt32)) ||| val }

/-- `mmio_out`. -/
def mmioOut (addr val : UInt32) (m : Machine) : Machine :=
  if addr = 0xE000 then selectRow val m
  else if addr = 0xE002 then writePortC val m
  else if addr = 0xE003 then writePortCBit val m
  else if addr = 0xE004 then writeCounter 0 val m
  else if addr = 0xE005 then writeCounter 1 val m
  else if addr = 0xE006 then writeCounter 2 val m
  else if addr = 0xE007 then write8253Cw val m
  else if addr = 0xE008 then gateSound val m
  else if addr = 0xE010 then setPcgData val m
  else if addr = 0xE011 then setPcgAddr val m
  else if addr = 0xE012 then writePcgControl val m
  else m

/-! ## case analysis -/

/-- What a read can be. -/
theorem mmioIn_cases {P : Int × Machine → Prop} (addr : UInt32) (m : Machine)
    (plain : ∀ v : UInt8, P (v.toNat, m))
    (keyport : addr = 0xE001 → P (readKeyport m))
    (portC : addr = 0xE002 → P (readPortC m))
    (counter : ∀ no : Fin 3, P (readCounter no m)) : P (mmioIn addr m) :=
  iteInduction (fun _ => plain 0xff) fun _ =>
  iteInduction keyport fun _ =>
  iteInduction portC fun _ =>
  iteInduction (fun _ => plain 0xff) fun _ =>
  iteInduction (fun _ => counter 0) fun _ =>
  iteInduction (fun _ => counter 1) fun _ =>
  iteInduction (fun _ => counter 2) fun _ =>
  iteInduction (fun _ => plain _) fun _ => plain 0x7e

/-- What a write can be, with the address of the strobes of the PCG. -/
theorem mmioOut_cases_strobe {P : Machine → Prop} (addr val : UInt32) (m : Machine)
    (row : P (selectRow val m))
    (portC : addr = 0xE002 → P (writePortC val m))
    (portCBit : addr = 0xE003 → P (writePortCBit val m))
    (counter : ∀ no, P (writeCounter no val m))
    (cw : addr = 0xE007 → P (write8253Cw val m))
    (sound : P (gateSound val m))
    (pcgData : P (setPcgData val m))
    (pcgAddr : P (setPcgAddr val m))
    (pcgControl : addr = 0xE012 → P (writePcgControl val m))
    (none : P m) : P (mmioOut addr val m) :=
  iteInduction (fun _ => row) fun _ =>
  iteInduction portC fun _ =>
  iteInduction portCBit fun _ =>
  iteInduction (fun _ => counter 0) fun _ =>
  iteInduction (fun _ => counter 1) fun _ =>
  iteInduction (fun _ => counter 2) fun _ =>
  iteInduction cw fun _ =>
  iteInduction (fun _ => sound) fun _ =>
  iteInduction (fun _ => pcgData) fun _ =>
  iteInduction (fun _ => pcgAddr) fun _ =>
  iteInduction pcgControl fun _ => none

/-- What a write can be. -/
theorem mmioOut_cases {P : Machine → Prop} (addr val : UInt32) (m : Machine)
    (row : P (selectRow val m))
    (portC : addr = 0xE002 → P (writePortC val m))
    (portCBit : addr = 0xE003 → P (writePortCBit val m))
    (counter : ∀ no, P (writeCounter no val m))
    (cw : addr = 0xE007 → P (write8253Cw val m))
    (sound : P (gateSound val m))
    (pcgData : P (setPcgData val m))
    (pcgAddr : P (setPcgAddr val m))
    (pcgControl : P (writePcgControl val m))
    (none : P m) : P (mmioOut addr val m) :=
  mmioOut_cases_strobe addr val m row portC portCBit counter cw sound pcgData pcgAddr
    (fun _ => pcgControl) none

end M5Z80
