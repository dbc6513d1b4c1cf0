import Mathlib.Data.List.GetD
import M5Z80.MonitorRom
import M5Z80.Records

/-!
# M5Z80.Regions

Where the loaders write.  `monrom_load` copies a ROM file to `mem` byte by
byte, however long it is, and `setMztToMemory` reads the body of a record
to its load address, wherever it ends; so a file stays in the region it is
for exactly when its own lengths and addresses say so.
-/

namespace M5Z80

/-! ## the monitor ROM -/

/-- Loading the ROM file `fd` writes the 4K of the monitor ROM only. -/
def RomStays (fd : List UInt8) : Prop :=
  ∀ (romFile : String) (m : Machine), m.files (monromPath romFile m) = some fd →
    ∀ i, rom2Start ≤ i → (monromLoad romFile m).mem i = m.mem i

/-- The monitor ROM stays in its region exactly if its file is short enough. -/
theorem romStays_iff (fd : List UInt8) : RomStays fd ↔ fd.length ≤ rom2Start := by
  constructor
  · intro h
    by_contra hlong
    have hbyte : rom2Start < fd.length := Nat.lt_of_not_le hlong
    -- a machine whose byte behind the ROM is not the file's
    let m : Machine :=
      { Machine.cold with mem := fun _ => fd.getD rom2Start 0 + 1, files := fun _ => some fd }
    have hsame := h "" m rfl rom2Start (Nat.le_refl _)
    rw [mem_monromLoad rfl, List.getD_eq_getElem _ _ hbyte] at hsame
    have hne : fd[rom2Start] ≠ fd[rom2Start] + 1 := by grind
    rw [show m.mem rom2Start = fd[rom2Start] + 1 by
      rw [← List.getD_eq_getElem fd 0 hbyte]] at hsame
    exact hne hsame
  · intro h romFile m hfile i hi
    rw [mem_monromLoad hfile, List.getD_eq_default _ _ (Nat.le_trans h hi)]

/-! ## the main RAM -/

/-- Loading the file `fd` to memory writes the 64K of the main RAM only. -/
def RamStays (fd : List UInt8) : Prop :=
  ∀ (startRegs : Nat → Z80Regs) (mztFile : String) (m : Machine),
    m.files (mztPath mztFile) = some fd →
    ∀ i, ¬ (ramStart ≤ i ∧ i < ramStart + 0x10000) →
      (setMztToMemory startRegs mztFile m).2.mem i = m.mem i

namespace LoadRecord

/-- Reading the body writes the byte `i` of `mem`. -/
def Covers (r : LoadRecord) (i : Nat) : Prop :=
  ramStart + r.offs ≤ i ∧ i < ramStart + r.offs + r.body.length

instance (r : LoadRecord) (i : Nat) : Decidable (r.Covers i) := inferInstanceAs (Decidable (_ ∧ _))

/-- A record changes only the cells it covers. -/
theorem mem_store_of_not_covers {r : LoadRecord} {i : Nat} (h : ¬ r.Covers i) (m : Machine) :
    (r.store m).mem i = m.mem i := by
  rw [store, mem_readToRam]
  split
  · next hle =>
      rw [List.getD_eq_default]
      rw [Covers] at h
      omega
  · rfl

/-- A byte of the body does not depend on what was there. -/
theorem mem_store_of_covers {r : LoadRecord} {i : Nat} (h : r.Covers i) (m m' : Machine) :
    (r.store m).mem i = (r.store m').mem i := by
  obtain ⟨hle, hlt⟩ := h
  have hbody : i - (ramStart + r.offs) < r.body.length := by omega
  rw [store, store, mem_readToRam, mem_readToRam, if_pos hle, if_pos hle,
    List.getD_eq_getElem _ _ hbody, List.getD_eq_getElem _ _ hbody]

theorem offs_lt (r : LoadRecord) : r.offs < 0x10000 := by
  have hlo := (r.header.getD 0x14 0).toNat_lt
  have hhi := (r.header.getD (0x14 + 1) 0).toNat_lt
  rw [offs, word16At]
  omega

end LoadRecord

/-- Cells that no record covers stay as they were. -/
theorem storeAll_of_not_covers {rs : List LoadRecord} {i : Nat} (h : ∀ r ∈ rs, ¬ r.Covers i)
    (m : Machine) : storeAll rs m i = m.mem i := by
  induction rs generalizing m with
  | nil => rfl
  | cons r rs ih =>
      rw [storeAll_cons, ih (fun r' hr' => h r' (List.mem_cons_of_mem r hr')),
        LoadRecord.mem_store_of_not_covers (h r List.mem_cons_self)]

/-- Cells that a record covers do not depend on what was there. -/
theorem storeAll_of_covers {rs : List LoadRecord} {i : Nat} (h : ∃ r ∈ rs, r.Covers i)
    (m m' : Machine) : storeAll rs m i = storeAll rs m' i := by
  induction rs generalizing m m' with
  | nil => simp at h
  | cons r rs ih =>
      rw [storeAll_cons, storeAll_cons]
      by_cases hrest : ∃ r' ∈ rs, r'.Covers i
      · exact ih hrest _ _
      · -- the last record to write the byte is this one
        have hlast : ∀ r' ∈ rs, ¬ r'.Covers i := fun r' hr' hc => hrest ⟨r', hr', hc⟩
        obtain ⟨r', hr', hc⟩ := h
        obtain rfl | htail := List.mem_cons.mp hr'
        · rw [storeAll_of_not_covers hlast, storeAll_of_not_covers hlast,
            LoadRecord.mem_store_of_covers hc m m']
        · exact absurd hc (hlast r' htail)

/-- The bodies that are read stay below the end of RAM. -/
def Fits (fd : List UInt8) : Prop := ∀ r ∈ storedRecords fd, r.offs + r.body.length ≤ 0x10000

/-- The records stay in RAM exactly if each of them does. -/
theorem ramStays_iff (fd : List UInt8) : RamStays fd ↔ Fits fd := by
  constructor
  · intro h r hr
    by_contra hlong
    -- the first byte behind RAM is written, whatever it was
    have hoffs := r.offs_lt
    have hcovers : ∃ r ∈ storedRecords fd, r.Covers (ramStart + 0x10000) :=
      ⟨r, hr, by omega, by omega⟩
    let m (b : UInt8) : Machine :=
      { Machine.cold with mem := fun _ => b, files := fun _ => some fd }
    have hsame (b : UInt8) : storeAll (storedRecords fd) (m b) (ramStart + 0x10000) = b := by
      have hload : (setMztToMemory (fun _ => Z80Regs.zero) "" (m b)).2.mem =
          storeAll (storedRecords fd) (m b) := mem_setMztToMemory _ rfl
      rw [← hload]
      exact h (fun _ => Z80Regs.zero) "" (m b) rfl _ (by omega)
    have hzero : (0 : UInt8) = 1 := by
      rw [← hsame 0, ← hsame 1]
      exact storeAll_of_covers hcovers _ _
    exact absurd hzero (by decide)
  · intro h startRegs mztFile m hfile i hi
    rw [mem_setMztToMemory startRegs hfile]
    refine storeAll_of_not_covers (fun r hr hc => hi ?_) m
    have hend := h r hr
    obtain ⟨hle, hlt⟩ := hc
    exact ⟨by omega, by omega⟩

/-! ## both -/

/-- A file stays in the monitor ROM exactly when it is no longer than 4K,
and in the main RAM exactly when every body that is read ends there. -/
theorem regions_iff (fd : List UInt8) :
    (RomStays fd ↔ fd.length ≤ 4096) ∧
      (RamStays fd ↔ ∀ r ∈ storedRecords fd, r.offs + r.body.length ≤ 0x10000) :=
  ⟨romStays_iff fd, ramStays_iff fd⟩

/-- A record of two bytes for the address `FFFF`. -/
def lastByteRecord : List UInt8 :=
  (0x01 : UInt8) :: List.replicate 17 0x00 ++ [(0x02 : UInt8), 0x00, 0xFF, 0xFF] ++
    List.replicate 106 0x00 ++ [(0x00 : UInt8), 0x00]

/-- A ROM file of 4097 bytes, and a record that ends one byte behind RAM. -/
theorem not_regions : (¬ ∀ fd, RomStays fd) ∧ ¬ ∀ fd, RamStays fd := by
  constructor
  · intro h
    have hlen := (romStays_iff _).mp (h (List.replicate 4097 0x00))
    rw [List.length_replicate] at hlen
    exact absurd hlen (by decide)
  · intro h
    have hfits := (ramStays_iff _).mp (h lastByteRecord)
    have hstored : storedRecords lastByteRecord =
        [⟨lastByteRecord.take 128, lastByteRecord.drop 128⟩] := by
      rw [storedRecords, if_neg (by decide +kernel), plainRecords, dif_neg (by decide +kernel)]
      dsimp only
      rw [plainRecords, dif_pos (by decide +kernel)]
      decide +kernel
    rw [Fits, hstored] at hfits
    exact absurd (hfits _ List.mem_cons_self) (by decide +kernel)

end M5Z80
