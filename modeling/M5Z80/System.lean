import M5Z80.MonitorRom
import M5Z80.Mounting
import M5Z80.Passes

/-!
# M5Z80.System

Everything that happens to the machine between two power cycles: passes of
the CPU's loop and the end of a frame, the guest's accesses to the MMIO
registers, the screen, the keyboard, and what the user does from the menus.
-/

namespace M5Z80

/-! ## the screen -/

/-- What `scrn_draw` does to the machine: the vertical blanking period
starts, and the retrace bit says so. -/
def scrnDraw (m : Machine) : Machine := vblnkStart { m with hw700.retrace := 1 }

/-- What the screen thread does to the machine: it counts the cursor timer. -/
def updateScrn (m : Machine) : Machine :=
  let cursorCou := m.hw700.cursorCou + 1
  { m with
    hw700.retrace := 1
    hw700.cursorCou := if 40 ≤ cursorCou then 0 else cursorCou }

/-- The entry of the menu that switches the PCG-700. -/
def togglePcg (m : Machine) : Machine :=
  { m with hw700.pcg700Mode := if m.hw700.pcg700Mode = 1 then 0 else 1 }

/-! ## steps -/

/-- A step of the system.  The keyboard can leave anything in the key ports. -/
inductive SystemStep
  | pass
  | refresh
  | scrnDraw
  | updateScrn
  | read (addr : UInt32)
  | write (addr val : UInt32)
  | keys (ports : Fin 10 → UInt8)
  | select (mztFile : String)
  | load (startRegs : Nat → Z80Regs) (mztFile : String)
  | save (opened : Bool)
  | togglePcg
  | romLoad (romFile : String)
  | reset (rand : UInt32)
  | speed (mul : Int32)

/-- The machine after a step. -/
def SystemStep.apply : SystemStep → Machine → Machine
  | .pass, m => M5Z80.pass m
  | .refresh, m => M5Z80.refresh m
  | .scrnDraw, m => M5Z80.scrnDraw m
  | .updateScrn, m => M5Z80.updateScrn m
  | .read addr, m => (mmioIn addr m).2
  | .write addr val, m => mmioOut addr val m
  | .keys ports, m => { m with keyports := ports }
  | .select mztFile, m => startTape mztFile m
  | .load startRegs mztFile, m => (setMztToMemory startRegs mztFile m).2
  | .save opened, m => (saveMZTImage opened m).2
  | .togglePcg, m => M5Z80.togglePcg m
  | .romLoad romFile, m => monromLoad romFile m
  | .reset rand, m => mzReset rand m
  | .speed mul, m => setupCpuspeed mul m

/-! ## loading -/

section

variable {R : Machine → Machine → Prop} (hrefl : ∀ m, R m m)
  (htrans : ∀ {m m₁ m₂}, R m m₁ → R m₁ m₂ → R m m₂)
  (hread : ∀ offs data m, R m (readToRam offs data m))
  (hregs : ∀ (m : Machine) (r : Z80Regs), R m { m with r := r })
include hrefl htrans hread hregs

/-- By recursion over the file: a relation that starting a tape respects holds over a plain
load. -/
theorem loadMzt_keeps {mztFile : String} (htape : ∀ m, R m (startTape mztFile m))
    (fd : List UInt8) (m : Machine) : R m (loadMzt mztFile fd m) := by
  induction fd, m using loadMzt.induct with
  | case1 fd m h =>
      rw [loadMzt_of_short h]
      exact hrefl m
  | case2 fd m h header hmode =>
      rw [loadMzt, dif_neg h]
      dsimp only
      rw [if_pos hmode]
      exact htape m
  | case3 fd m h header rest hmode size offs addr loaded ih =>
      have hloaded : R m loaded := by
        unfold loaded
        split
        · exact hread _ _ m
        · exact hrefl m
      rw [loadMzt, dif_neg h]
      dsimp only
      rw [if_neg hmode]
      exact htrans (htrans hloaded (hregs _ _)) ih

/-- A container starts no tape. -/
theorem loadMz20_keeps (startRegs : Nat → Z80Regs) (k : Nat) (fd : List UInt8) (m : Machine) :
    R m (loadMz20 startRegs k fd m) := by
  induction k, fd, m using loadMz20.induct startRegs with
  | case1 k fd m h =>
      rw [loadMz20, dif_pos h]
      exact hrefl m
  | case2 k fd m h header rest size offs addr loaded ih =>
      have hloaded : R m loaded := by
        unfold loaded
        split
        · exact hread _ _ m
        · exact hrefl m
      rw [loadMz20, dif_neg h]
      exact htrans (htrans hloaded (hregs _ _)) ih

/-- A load keeps what reading to RAM, new registers and selecting the tape
keep. -/
theorem setMztToMemory_keeps (startRegs : Nat → Z80Regs) {mztFile : String}
    (htape : ∀ m, R m (startTape mztFile m)) (m : Machine) :
    R m (setMztToMemory startRegs mztFile m).2 := by
  unfold setMztToMemory
  split
  · exact hrefl m
  · split
    · exact loadMz20_keeps hrefl htrans hread hregs startRegs 0 _ m
    · exact loadMzt_keeps hrefl htrans hread hregs htape _ m

end

end M5Z80
