import M5Z80.Bus
import M5Z80.Loader
import M5Z80.Words

/-!
# M5Z80.Snapshot

A saved image, loaded again.  The size field of the header is one less
than the number of bytes that follow it, and the execution address is
written high byte first and read low byte first; the rest of the main RAM
from `0x1200` to `0xCFFF` comes back.
-/

namespace M5Z80

/-! ## the image -/

/-- The header is that of a tape file. -/
theorem length_imageHeader (addr : UInt32) : (imageHeader addr).length = 128 := by
  simp [imageHeader]

/-- The body runs to the end of user RAM, CFFF included. -/
theorem length_imageBody (m : Machine) : (imageBody m).length = 0xBE00 := by
  rw [imageBody, List.length_map, List.length_range']

/-- The image is machine code. -/
theorem mode_imageHeader (addr : UInt32) : (imageHeader addr).getD 0 0 = 1 := by
  simp [imageHeader]

/-- The size field does not count the last byte. -/
theorem size_imageHeader (addr : UInt32) : word16At (imageHeader addr) 0x12 = 0xBDFF := by
  simp [imageHeader, word16At]

/-- The image is loaded where it was saved. -/
theorem offs_imageHeader (addr : UInt32) : word16At (imageHeader addr) 0x14 = 0x1200 := by
  simp [imageHeader, word16At]

/-- The execution address, with its bytes exchanged. -/
theorem addr_imageHeader (addr : UInt32) : word16At (imageHeader addr) 0x16 =
    (addr >>> 8).toUInt8.toNat + addr.toUInt8.toNat * 256 := by
  simp [imageHeader, word16At]

/-- A byte of the image is the byte that was saved. -/
theorem getD_imageBody (m : Machine) {i : Nat} (hi : i < 0xBDFF) (v : UInt8) :
    ((imageBody m).take 0xBDFF).getD i v = m.mem (ramStart + (0x1200 + i)) := by
  have hlen : i < (List.range' 0x1200 (0xD000 - 0x1200)).length := by
    rw [List.length_range']
    omega
  rw [List.getD_eq_getElem?_getD, List.getElem?_take_of_lt hi, imageBody, List.getElem?_map,
    List.getElem?_eq_getElem hlen, List.getElem_range', Nat.one_mul]
  rfl

/-- The size field cuts off the last byte. -/
theorem getD_imageBody_of_le (m : Machine) {i : Nat} (hi : 0xBDFF ≤ i) (v : UInt8) :
    ((imageBody m).take 0xBDFF).getD i v = v := by
  rw [List.getD_eq_getElem?_getD, List.getElem?_eq_none, Option.getD_none]
  rw [List.length_take, length_imageBody]
  omega

/-- What loading an image does. -/
theorem loadMzt_image (mztFile : String) (saved m : Machine) :
    loadMzt mztFile (imageHeader saved.r.pc.d ++ imageBody saved) m =
      setStart ((saved.r.pc.d >>> 8).toUInt8.toNat + saved.r.pc.d.toUInt8.toNat * 256)
        (readToRam 0x1200 ((imageBody saved).take 0xBDFF) m) := by
  have hlen := length_imageHeader saved.r.pc.d
  have hsize : word16At (imageHeader saved.r.pc.d) 0x12 ≤ (imageBody saved).length := by
    rw [size_imageHeader, length_imageBody]
    decide
  rw [loadMzt_record hlen (mode_imageHeader _) hsize, size_imageHeader, offs_imageHeader, addr_imageHeader]
  apply loadMzt_of_short
  rw [List.length_drop, length_imageBody]
  decide

/-! ## saved and loaded -/

/-- The machine `m'`, which was `m`, has the saved image in its main RAM,
nothing else there has changed, and it goes on where the saved one was. -/
structure Restored (saved m m' : Machine) : Prop where
  image : ∀ a, 0x1200 ≤ a → a ≤ 0xCFFF → m'.mem (ramStart + a) = saved.mem (ramStart + a)
  rest : ∀ a < 0x10000, ¬ (0x1200 ≤ a ∧ a ≤ 0xCFFF) → m'.mem (ramStart + a) = m.mem (ramStart + a)
  pc : m'.r.pc = saved.r.pc

/-- A word is what its exchanged bytes make exactly when they are equal. -/
theorem ofD_exchanged_iff {p : Pair} (h : p.wh = 0) :
    Pair.ofD ((p.d >>> 8).toUInt8.toNat + p.d.toUInt8.toNat * 256).toUInt32 = p ↔ p.bl = p.bh := by
  obtain ⟨wl, wh⟩ := p
  obtain rfl : wh = 0 := h
  have hlt := wl.toNat_lt
  have hd : (Pair.mk wl 0).d.toNat = wl.toNat := by
    rw [Pair.d_of_wh rfl, UInt16.toNat_toUInt32]
  have hbl : (Pair.mk wl 0).bl.toNat = wl.toNat % 256 := by
    rw [Pair.bl, UInt16.toNat_toUInt8]
  have hbh : (Pair.mk wl 0).bh.toNat = wl.toNat / 256 := by
    simp only [Pair.bh, UInt16.toNat_toUInt8, UInt16.toNat_shiftRight, UInt16.reduceToNat,
      Nat.reduceMod, Nat.shiftRight_eq_div_pow]
    omega
  rw [← UInt8.toNat_inj, hbl, hbh, Pair.ofD, Pair.mk.injEq, ← UInt16.toNat_inj, ← UInt16.toNat_inj]
  simp only [UInt32.toNat_toUInt16, UInt32.toNat_toUInt8, UInt32.toNat_shiftRight, hd,
    Nat.toUInt32_eq, UInt32.toNat_ofNat', UInt32.reduceToNat, UInt16.reduceToNat, Nat.reduceMod,
    Nat.shiftRight_eq_div_pow, Nat.reducePow]
  -- the word is `256 * q + r`, and `q + 256 * r` is a word too
  have hword : wl.toNat = 256 * (wl.toNat / 256) + wl.toNat % 256 := by omega
  have hq : wl.toNat / 256 < 256 := by omega
  have hr : wl.toNat % 256 < 256 := Nat.mod_lt _ (by decide)
  generalize wl.toNat / 256 = q at hword hq ⊢
  generalize wl.toNat % 256 = r at hword hr ⊢
  have hexchanged : q % 256 + r * 256 < 65536 := by omega
  have hword32 : (q % 256 + r * 256) % 4294967296 = q % 256 + r * 256 :=
    Nat.mod_eq_of_lt (by omega)
  rw [hword]
  change (q % 256 + r * 256) % 4294967296 % 65536 = 256 * q + r ∧
    (q % 256 + r * 256) % 4294967296 / 65536 % 65536 = 0 ↔ r = q
  rw [hword32, Nat.mod_eq_of_lt hexchanged, Nat.div_eq_of_lt hexchanged]
  omega

/-- Every byte but the last comes back, and nothing else changes. -/
theorem mem_loaded (saved m : Machine) (a : Nat) :
    (readToRam 0x1200 ((imageBody saved).take 0xBDFF) m).mem (ramStart + a) =
      if 0x1200 ≤ a ∧ a < 0xCFFF then saved.mem (ramStart + a) else m.mem (ramStart + a) := by
  rw [mem_readToRam]
  by_cases hlo : 0x1200 ≤ a
  · rw [if_pos (by omega), show ramStart + a - (ramStart + 0x1200) = a - 0x1200 by omega]
    by_cases hhi : a < 0xCFFF
    · rw [if_pos ⟨hlo, hhi⟩, getD_imageBody saved (by omega), Nat.add_sub_cancel' hlo]
    · rw [if_neg (fun h => hhi h.2), getD_imageBody_of_le saved (by omega)]
  · rw [if_neg (by omega), if_neg (fun h => hlo h.1)]

/-- What the load of a saved image does: the image in RAM, and a start address with its
bytes exchanged. -/
theorem setMztToMemory_image (startRegs : Nat → Z80Regs) (saved m : Machine)
    (hfile : m.files (mztPath (imageName saved.mzMode)) =
      (saveMZTImage true saved).2.files (mztPath (imageName saved.mzMode))) :
    setMztToMemory startRegs (imageName saved.mzMode) m =
      (true, setStart
        ((saved.r.pc.d >>> 8).toUInt8.toNat + saved.r.pc.d.toUInt8.toNat * 256)
        (readToRam 0x1200 ((imageBody saved).take 0xBDFF) m)) := by
  have himage : m.files (mztPath (imageName saved.mzMode)) =
      some (imageHeader saved.r.pc.d ++ imageBody saved) := by
    rw [hfile, saveMZTImage]
    exact Function.update_self ..
  have hplain (body : List UInt8) : (imageHeader saved.r.pc.d ++ body).take 4 ≠
      ['m', 'z', '2', '0'].map (·.toNat.toUInt8) := by
    simp [imageHeader]
  rw [setMztToMemory, himage]
  simp only
  rw [if_neg (hplain _), loadMzt_image]

/-- Loading a saved image restores the machine exactly when the last byte
was there already and the bytes of the program counter are equal. -/
theorem restored_iff (startRegs : Nat → Z80Regs) (saved m : Machine) (hpc : saved.r.pc.wh = 0)
    (hfile : m.files (mztPath (imageName saved.mzMode)) =
      (saveMZTImage true saved).2.files (mztPath (imageName saved.mzMode))) :
    Restored saved m (setMztToMemory startRegs (imageName saved.mzMode) m).2 ↔
      m.mem (ramStart + 0xCFFF) = saved.mem (ramStart + 0xCFFF) ∧
        saved.r.pc.bl = saved.r.pc.bh := by
  rw [setMztToMemory_image startRegs saved m hfile, ← ofD_exchanged_iff hpc]
  constructor
  · intro h
    have hlast := h.image 0xCFFF (by decide) (by decide)
    rw [mem_setStart, mem_loaded, if_neg (by decide)] at hlast
    exact ⟨hlast, h.pc⟩
  · rintro ⟨hlast, hpc'⟩
    refine ⟨fun a hlo hhi => ?_, fun a _ hout => ?_, hpc'⟩
    · rw [mem_setStart, mem_loaded]
      by_cases ha : a < 0xCFFF
      · rw [if_pos ⟨hlo, ha⟩]
      · obtain rfl : a = 0xCFFF := by omega
        rw [if_neg (by decide), hlast]
    · rw [mem_setStart, mem_loaded, if_neg (by omega)]

/-- A machine with a byte of its own in every cell, at `4141`. -/
def filledMachine : Machine :=
  { Machine.cold with mem := fun i => .ofNat (i / 251 + i), r.pc := ⟨0x4141, 0⟩ }

/-- Another machine with the same files, whose memory is full of the byte that is not
loaded. -/
def loadingMachine : Machine :=
  { Machine.cold with
    mem := fun _ => filledMachine.mem (ramStart + 0xCFFF)
    files := (saveMZTImage true filledMachine).2.files }

/-- The image of one machine, loaded into another one. -/
theorem restored_filled :
    Restored filledMachine loadingMachine
      (setMztToMemory (fun _ => Z80Regs.zero) (imageName .mode700) loadingMachine).2 :=
  (restored_iff (fun _ => Z80Regs.zero) filledMachine loadingMachine rfl rfl).mpr ⟨rfl, rfl⟩

/-- A program counter of `1234` comes back as `3412`, even in the machine
that saved the image. -/
theorem not_restored : ¬ ∀ (startRegs : Nat → Z80Regs) (saved m : Machine), saved.r.pc.wh = 0 →
    m.files (mztPath (imageName saved.mzMode)) =
      (saveMZTImage true saved).2.files (mztPath (imageName saved.mzMode)) →
    Restored saved m (setMztToMemory startRegs (imageName saved.mzMode) m).2 := by
  intro h
  let saved : Machine := { Machine.cold with r.pc := ⟨0x1234, 0⟩ }
  have hpc := (h (fun _ => Z80Regs.zero) saved (saveMZTImage true saved).2 rfl rfl).pc
  rw [setMztToMemory_image _ saved _ rfl] at hpc
  revert hpc
  decide

end M5Z80
