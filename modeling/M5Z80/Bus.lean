import M5Z80.Mmio

/-!
# M5Z80.Bus

The memory bus and the bank switch of `MZhw.cpp`: `update_membank`,
`Z80_Out`, `Z80_In`, `Z80_RDMEM`, `Z80_WRMEM`, and `mz_reset`, which puts
the machine into its power-on state.

The address space is 32 pages of 2K.  `hw700.memctrl` says what each page
shows, and `memptr` holds the pointers that `update_membank` derives from
it.
-/

namespace M5Z80

/-! ## banks -/

/-- `baseptr` for a bank base, and the attribute that goes with it: bit 0
for writable memory, bit 1 for memory-mapped I/O, bit 2 for VRAM. -/
def bankBase : MemBase → Ptr × UInt8
  | .rom1 => (⟨.mem, romStart⟩, 0)
  | .rom2 => (⟨.mem, rom2Start⟩, 0)
  | .ram => (⟨.mem, ramStart⟩, 1)
  | .vram => (⟨.mem, vidStart⟩, 5)
  | .dummy => (⟨.junk, 0⟩, 2)
  | .font => (⟨.mzFont, 0⟩, 0)
  | .other => (⟨.junk, 0⟩, 0)

/-- `update_membank`: derive every attribute and every page pointer. -/
def updateMembank (m : Machine) : Machine :=
  { m with
    hw700.memctrl := fun i =>
      let mb := m.hw700.memctrl i
      { mb with attr := (bankBase mb.base).2 }
    memptr := fun i =>
      let mb := m.hw700.memctrl i
      ⟨(bankBase mb.base).1.block, (bankBase mb.base).1.ofs + mb.ofs.toNat⟩ }

/-- `mp->base = base; mp->ofs = ofs;` for page `i`. -/
def setBank (i : Fin 32) (base : MemBase) (ofs : UInt16) (m : Machine) : Machine :=
  { m with
    hw700.memctrl :=
      Function.update m.hw700.memctrl i { m.hw700.memctrl i with base := base, ofs := ofs } }

/-- Port `E0`: make `0000`-`0FFF` RAM. -/
def outE0 (m : Machine) : Machine :=
  updateMembank (setBank 1 .ram 0x800 (setBank 0 .ram 0x000 m))

/-- Port `E1`: make `D000`-`FFFF` RAM. -/
def outE1 (m : Machine) : Machine :=
  let m := setBank 27 .ram 0xD800 (setBank 26 .ram 0xD000 m)
  let m := setBank 29 .ram 0xE800 (setBank 28 .ram 0xE000 m)
  updateMembank (setBank 31 .ram 0xF800 (setBank 30 .ram 0xF000 m))

/-- Port `E2`: make `0000`-`0FFF` ROM. -/
def outE2 (m : Machine) : Machine :=
  updateMembank (setBank 1 .rom1 0x0800 (setBank 0 .rom1 0x0000 m))

/-- Port `E3`: make `D000`-`FFFF` VRAM and memory-mapped I/O. -/
def outE3 (m : Machine) : Machine :=
  let m := setBank 27 .vram 0x0800 (setBank 26 .vram 0x0000 m)
  let m := setBank 29 .dummy 0x0800 (setBank 28 .dummy 0x0000 m)
  updateMembank (setBank 31 .dummy 0x0800 (setBank 30 .dummy 0x0000 m))

/-- `Z80_Out`.  Only the low byte of the port counts; the value does not. -/
def z80Out (port _value : UInt16) (m : Machine) : Machine :=
  let iPort := port &&& 0xFF
  if iPort = 0xe0 then outE0 m
  else if iPort = 0xe1 then outE1 m
  else if iPort = 0xe2 then outE2 m
  else if iPort = 0xe3 then outE3 m
  else if iPort = 0xe4 then outE3 (outE2 m)
  else m

/-- `Z80_In`: port A of the Z80 PIO reads `04`, every other port `FF`. -/
def z80In (port : UInt16) : UInt8 :=
  if port &&& 0xFF = 0xfe then 0x04 else 255

/-! ## memory accesses -/

/-- The wait states of a read: one for ROM, `VRAM_ACCESS_WAIT` for VRAM,
none while the tape runs. -/
def readWait (attr : UInt8) (m : Machine) : Machine :=
  let m := if attr = 0 ∧ m.ts700.cmtTstates = 0 then mCstate 1 m else m
  if attr &&& 4 ≠ 0 ∧ m.ts700.cmtTstates = 0 then mCstate vramAccessWait m else m

/-- `Z80_RDMEM`: the result is `unsigned`, so a negative `int` of
`mmio_in` becomes a large number. -/
def z80Rdmem (x : UInt32) (m : Machine) : UInt32 × Machine :=
  let page := (x >>> 11).toNat
  let m := m.use .memctrl page
  if h : page < 32 then
    let attr := (m.hw700.memctrl ⟨page, h⟩).attr
    let m := readWait attr m
    if attr &&& 2 ≠ 0 then
      let (v, m) := mmioIn x m
      (UInt32.ofInt v, m)
    else ((m.deref (m.memptr ⟨page, h⟩) (x &&& 0x7FF).toNat).toUInt32, m)
  else (0, m)

/-- `Z80_WRMEM`. -/
def z80Wrmem (x y : UInt32) (m : Machine) : Machine :=
  let page := (x >>> 11).toNat
  let m := m.use .memctrl page
  if h : page < 32 then
    let attr := (m.hw700.memctrl ⟨page, h⟩).attr
    if attr &&& 2 ≠ 0 then mmioOut x y m
    else if attr ≠ 0 then
      let m := m.store (m.memptr ⟨page, h⟩) (x &&& 0x7FF).toNat y.toUInt8
      if attr &&& 4 ≠ 0 ∧ m.ts700.cmtTstates = 0 then mCstate vramAccessWait m else m
    else m
  else m

/-- A read of page `i`. -/
theorem z80Rdmem_eq {x : UInt32} {i : Fin 32} (h : (x >>> 11).toNat = i) (m : Machine) :
    z80Rdmem x m =
      let m₁ := readWait (m.hw700.memctrl i).attr (m.use .memctrl i)
      if (m.hw700.memctrl i).attr &&& 2 ≠ 0 then
        (UInt32.ofInt (mmioIn x m₁).1, (mmioIn x m₁).2)
      else ((m₁.deref (m₁.memptr i) (x &&& 0x7FF).toNat).toUInt32, m₁) := by
  obtain ⟨i, hi⟩ := i
  subst h
  simp only [z80Rdmem, dif_pos hi]
  rfl

/-- A write to page `i`. -/
theorem z80Wrmem_eq {x : UInt32} {i : Fin 32} (h : (x >>> 11).toNat = i) (y : UInt32)
    (m : Machine) :
    z80Wrmem x y m =
      let m₀ := m.use .memctrl i
      let attr := (m.hw700.memctrl i).attr
      if attr &&& 2 ≠ 0 then mmioOut x y m₀
      else if attr ≠ 0 then
        let m₁ := m₀.store (m.memptr i) (x &&& 0x7FF).toNat y.toUInt8
        if attr &&& 4 ≠ 0 ∧ m₁.ts700.cmtTstates = 0 then mCstate vramAccessWait m₁ else m₁
      else m₀ := by
  obtain ⟨i, hi⟩ := i
  subst h
  simp only [z80Wrmem, dif_pos hi]
  rfl

/-! ## reset -/

/-- `memset(mem + lo, v, n)`. -/
def memset (lo : Nat) (v : UInt8) (n : Nat) (m : Machine) : Machine :=
  { m with mem := fun i => if lo ≤ i ∧ i < lo + n then v else m.mem i }

/-- `Z80_Regs` after `memset(&R, 0, ..)`. -/
def Z80Regs.zero : Z80Regs :=
  let z : Pair := ⟨0, 0⟩
  ⟨⟨z, z, z, z, z, z, z, z, z, z, z, z⟩, 0, 0, 0, 0, 0, 0, 0⟩

/-- `Z80_Reset`; `rand` is the number `rand()` returns. -/
def z80Reset (rand : UInt32) (m : Machine) : Machine :=
  { m with
    r := { Z80Regs.zero with sp := Pair.ofD 0xF000, r := rand }
    z80ICount := m.z80IPeriod }

/-- `T700_TS` after `memset(&ts700, 0, ..)`. -/
def T700Ts.zero : T700Ts := ⟨0, 0, 0, 0, 0, 0, 0, 0, 0, 0, 0⟩

/-- `THW700_STAT` after `memset(&hw700, 0, ..)`. -/
def Thw700Stat.zero : Thw700Stat :=
  ⟨fun _ => ⟨0, .rom1, 0⟩, 0, 0, 0, 0, 0, 0, 0, 0, 0, 0, 0⟩

/-- The loop of `mz_reset` that makes pages 0 to 25 RAM. -/
def initBanks (m : Machine) : Machine :=
  { m with
    hw700.memctrl := fun i =>
      if i.val < 26 then { m.hw700.memctrl i with ofs := (i.val * 0x800).toUInt16, base := .ram }
      else m.hw700.memctrl i }

/-- Clear the 8253 and the hardware status records. -/
def clearHardware (m : Machine) : Machine :=
  { m with
    stat8253 := fun _ => T8253Stat.zero
    dat8253 := ⟨0, 0, 0, 0, 0, 0⟩
    hw700 := Thw700Stat.zero
    ts700 := T700Ts.zero }

/-- Release every key, and forget requests for an interrupt. -/
def releaseKeys (m : Machine) : Machine :=
  { m with keyports := fun _ => 0xFF, z80Intflag := 0 }

/-- Clear the work area of the monitor and the video RAM. -/
def clearMemory (m : Machine) : Machine :=
  let m := memset (ramStart + 0x1000) 0 0x200 m
  let m := memset vidStart 0 0x400 m
  memset (vidStart + 0x800) (if m.mzMode = .mode700 then 0x71 else 0) 0x400 m

/-- The lines of the hardware, and a tape deck that is stopped. -/
def initLines (m : Machine) : Machine :=
  { m with
    hw700.pcg700Mode := 0
    hw700.tempoStrobe := 1
    hw700.retrace := 1
    hw700.motor := 0
    hw700.vgate := 1
    ts700.cmtTstates := 0
    ts700.cmtPlay := 0 }

/-- The first half of `mz_reset`: the records, the 8253 and the banks. -/
def initHardware (m : Machine) : Machine :=
  updateMembank (z80Out 0xE4 0 (initBanks (pitInit (clearHardware m))))

/-- `mz_reset`.  The registers it copies from an uninitialised variable are
overwritten by `Z80_Reset` at its end. -/
def mzReset (rand : UInt32) (m : Machine) : Machine :=
  z80Reset rand (initLines (clearMemory (releaseKeys (initHardware m))))

/-- The machine before its first reset: every variable is zero. -/
def Machine.cold : Machine where
  r := Z80Regs.zero
  z80IPeriod := 0
  z80ICount := 0
  z80Intflag := 0
  hw700 := Thw700Stat.zero
  ts700 := T700Ts.zero
  dat8253 := ⟨0, 0, 0, 0, 0, 0⟩
  stat8253 := fun _ => T8253Stat.zero
  mem := fun _ => 0
  memptr := fun _ => ⟨.mem, 0⟩
  junk := fun _ => 0
  mzFont := fun _ => 0
  pcg700Font := fun _ => 0
  keyports := fun _ => 0
  sysst := ⟨0, 0, 0⟩
  xferFlag := 0
  tape := ⟨0, 0, 0, 0, fun _ => 0, fun _ => 0, 0⟩
  mzMode := .mode700
  files := fun _ => none
  trace := ⟨[], 0⟩

/-! ## what switching banks changes -/

/-- The machine with its banks wiped: what two machines that differ in
their banks only have in common. -/
def Machine.unbanked (m : Machine) : Machine :=
  { m with hw700.memctrl := fun _ => ⟨0, .rom1, 0⟩, memptr := fun _ => ⟨.mem, 0⟩ }

@[simp] theorem unbanked_updateMembank (m : Machine) :
    (updateMembank m).unbanked = m.unbanked := rfl

@[simp] theorem unbanked_setBank (i : Fin 32) (base : MemBase) (ofs : UInt16) (m : Machine) :
    (setBank i base ofs m).unbanked = m.unbanked := rfl

@[simp] theorem unbanked_initBanks (m : Machine) : (initBanks m).unbanked = m.unbanked := rfl

/-- `Z80_Out` switches banks and nothing else. -/
@[simp] theorem unbanked_z80Out (port value : UInt16) (m : Machine) :
    (z80Out port value m).unbanked = m.unbanked := by
  simp only [z80Out, apply_ite Machine.unbanked, outE0, outE1, outE2, outE3,
    unbanked_updateMembank, unbanked_setBank, ite_self]

theorem unbanked_initHardware (m : Machine) :
    (initHardware m).unbanked = (pitInit (clearHardware m)).unbanked := by
  simp only [initHardware, unbanked_updateMembank, unbanked_z80Out, unbanked_initBanks]

/-! ## what a reset leaves -/

/-- A reset keeps the speed that was set before. -/
theorem z80IPeriod_mzReset (rand : UInt32) (m : Machine) :
    (mzReset rand m).z80IPeriod = m.z80IPeriod := by
  calc (mzReset rand m).z80IPeriod = (initHardware m).unbanked.z80IPeriod := rfl
    _ = m.z80IPeriod := by
      rw [unbanked_initHardware]
      simp only [Machine.unbanked, pitInit, modStat_eq 0, modStat_eq 1]
      rfl

/-- A reset clears the clock, the deck and the position of the tape. -/
theorem ts700_mzReset (rand : UInt32) (m : Machine) : (mzReset rand m).ts700 = T700Ts.zero := by
  calc (mzReset rand m).ts700 =
        { (initHardware m).unbanked.ts700 with cmtTstates := 0, cmtPlay := 0 } := rfl
    _ = T700Ts.zero := by rw [unbanked_initHardware]; rfl

/-- A reset selects row 0 of the keyboard. -/
theorem pbSelect_mzReset (rand : UInt32) (m : Machine) : (mzReset rand m).hw700.pbSelect = 0 := by
  calc (mzReset rand m).hw700.pbSelect = (initHardware m).unbanked.hw700.pbSelect := rfl
    _ = 0 := by rw [unbanked_initHardware]; rfl

/-- Channel 2 is cleared, the other two initialised as well. -/
theorem stat8253_mzReset (rand : UInt32) (m : Machine) (no : Fin 3) :
    (mzReset rand m).stat8253 no = if no = 2 then T8253Stat.zero else T8253Stat.zero.init := by
  calc (mzReset rand m).stat8253 no = (initHardware m).unbanked.stat8253 no := rfl
    _ = (pitInit (clearHardware m)).stat8253 no := by rw [unbanked_initHardware]; rfl
    _ = if no = 2 then T8253Stat.zero else T8253Stat.zero.init := by
      match no with
      | 0 => rfl
      | 1 => rfl
      | 2 => rfl

end M5Z80
