import M5Z80.Execution

/-!
# M5Z80.Passes

What a pass of the main loop is made of.  A relation between the machine
before and after that bus accesses, charges and register changes keep is
kept by every instruction, and one that ticks and requests keep as well by
every pass.  A pass checks for an interrupt at its start, and once more
behind the instruction that an `EI` runs itself.
-/

namespace M5Z80

/-- `Z80_Interrupt` up to the pulse of channel 2. -/
def checkPit (m : Machine) : Machine :=
  if Cpu.tickDue m then (pitCount (Cpu.countTick m)).2 else m

namespace Cpu

/-! ## what instructions keep -/

/-- A relation that the accesses, the charges and the register changes of
the CPU keep. -/
structure Keeps (R : Machine → Machine → Prop) : Prop where
  refl : ∀ m, R m m
  trans : ∀ {m m₁ m₂}, R m m₁ → R m₁ m₂ → R m m₂
  regs : ∀ (m : Machine) (r : Z80Regs), R m { m with r := r }
  budget : ∀ (m : Machine) (n : Int32), R m { m with z80ICount := n }
  use : ∀ (m : Machine) (t : Table) (i : Int), R m (m.use t i)
  store : ∀ (m : Machine) (p : Ptr) (ofs : Nat) (v : UInt8), R m (m.store p ofs v)
  mCstate : ∀ (n : Nat) (m : Machine), R m (mCstate n m)
  mmioIn : ∀ (addr : UInt32) (m : Machine), R m (mmioIn addr m).2
  mmioOut : ∀ (addr val : UInt32) (m : Machine), R m (mmioOut addr val m)
  z80Out : ∀ (port value : UInt16) (m : Machine), R m (z80Out port value m)

namespace Keeps

variable {R : Machine → Machine → Prop} (h : Keeps R)
include h

/-- The wait of a read is time. -/
theorem readWait (attr : UInt8) (m : Machine) : R m (readWait attr m) := by
  unfold M5Z80.readWait
  dsimp only
  split
  · split
    · exact h.trans (h.mCstate 1 m) (h.mCstate _ _)
    · exact h.mCstate 1 m
  · split
    · exact h.mCstate _ m
    · exact h.refl m

/-- A read of memory is a use, a wait and maybe a register. -/
theorem z80Rdmem (x : UInt32) (m : Machine) : R m (z80Rdmem x m).2 := by
  have huse : R m (m.use .memctrl (x >>> 11).toNat) := h.use m _ _
  unfold M5Z80.z80Rdmem
  dsimp only
  split
  · split
    · exact h.trans (h.trans huse (h.readWait _ _)) (h.mmioIn x _)
    · exact h.trans huse (h.readWait _ _)
  · exact huse

/-- A write of memory is a use, a wait and maybe a register or a byte. -/
theorem z80Wrmem (x y : UInt32) (m : Machine) : R m (z80Wrmem x y m) := by
  have huse : R m (m.use .memctrl (x >>> 11).toNat) := h.use m _ _
  unfold M5Z80.z80Wrmem
  dsimp only
  split
  · split
    · exact h.trans huse (h.mmioOut x y _)
    split
    · split
      · exact h.trans (h.trans huse (h.store _ _ _ _)) (h.mCstate _ _)
      · exact h.trans huse (h.store _ _ _ _)
    · exact huse
  · exact huse

/-- What an operation of the processor does is made of accesses. -/
theorem prim {α : Type} {n : Nat} {x : Cpu α} (hx : Prim α n x) (m : Machine) : R m (x m).2 := by
  cases hx with
  | reg f => exact h.refl m
  | pairs f => exact h.regs m _
  | control f _ => exact h.regs m _
  | doOut lo hi v => exact h.z80Out _ v m
  | wild i => exact h.use m _ _
  | rdmem a => exact h.z80Rdmem a m
  | wrmem a v => exact h.z80Wrmem a v m
  | cstate _ => exact h.mCstate _ m

/-- A program put together from primitives. -/
theorem built {α : Type} {n : Nat} (x : Cpu α) [hx : Built x n] (m : Machine) : R m (x m).2 :=
  hx.made.keeps h.refl h.trans h.prim m

/-- An instruction, when the entry of `ei` keeps the relation. -/
theorem instruction {ei : Cpu Unit} (hei : ∀ m, R m (ei m).2) (m : Machine) :
    R m (instruction ei m).2 := by
  have hfetch : R m (rdmemOpcode m).2 := h.built rdmemOpcode m
  refine h.trans hfetch ?_
  simp only [Cpu.instruction, bind_apply]
  generalize rdmemOpcode m = q
  obtain ⟨opcode, m₁⟩ := q
  by_cases hhalt : opcode = 0x76
  · subst hhalt
    have hentry : Op.dispatch cyclesMain (Op.opcodeMain ei) 0x76 m₁ =
        Op.halt (M5Z80.mCstate 4 m₁) := Op.dispatch_apply (by decide) (by decide) rfl m₁
    have hstop (m : Machine) : R m (Op.halt m).2 := h.trans (h.regs m _) (h.budget _ _)
    rw [hentry]
    exact h.trans (h.mCstate 4 m₁) (hstop _)
  by_cases hfb : opcode = 0xFB
  · subst hfb
    have hentry : Op.dispatch cyclesMain (Op.opcodeMain ei) 0xFB m₁ = ei (M5Z80.mCstate 4 m₁) :=
      Op.dispatch_apply (by decide) (by decide) rfl m₁
    rw [hentry]
    exact h.trans (h.mCstate 4 m₁) (hei _)
  · have hcycles : ∀ n ∈ cyclesMain, n ≤ 23 := by decide +kernel
    have hbuilt := Op.built_dispatch hcycles Op.built_of_mem_opcodePlain opcode
    rw [Op.dispatch_plain hhalt hfb]
    exact h.built _ m₁

/-- The instruction that `ei` runs itself. -/
theorem nextEnabled (m : Machine) : R m (Cpu.instruction eiEnabled m).2 :=
  h.instruction (fun m => h.regs m _) m

end Keeps

/-! ## what passes keep -/

/-- A relation that a change of the request bits keeps, too. -/
structure KeepsFlag (R : Machine → Machine → Prop) : Prop extends Keeps R where
  intflag : ∀ (m : Machine) (flag : UInt32), R m { m with z80Intflag := flag }

namespace KeepsFlag

variable {R : Machine → Machine → Prop} (h : KeepsFlag R)
include h

/-- A request is taken out of the flag. -/
theorem takeRequest (bit : UInt32) (m : Machine) : R m (takeRequest bit m).2 := by
  unfold Cpu.takeRequest
  split
  · exact h.intflag m _
  · exact h.refl m

/-- An acceptance in IM 2. -/
theorem interruptIm2 (j : Int32) (m : Machine) : R m (interruptIm2 j m).2 := by
  obtain ⟨x, hx, heq⟩ := built_interruptIm2 j m
  rw [heq]
  exact h.trans (h.takeRequest 2 m) (h.built x _)

/-- An acceptance in IM 1. -/
theorem interruptIm1 (ei : Cpu Unit) (m : Machine) : R m (interruptIm1 ei m).2 := by
  obtain ⟨x, hx, heq⟩ := built_interruptIm1 ei m
  rw [heq]
  exact h.trans (h.takeRequest 1 m) (h.built x _)

/-- An acceptance in any mode, or none. -/
theorem interrupt_zero (ei : Cpu Unit) (m : Machine) : R m (interrupt ei 0 m).2 := by
  by_cases hiff : m.r.iff1 = 0
  · rw [interrupt_of_disabled ei hiff]
    exact h.refl m
  · have hack : R m (acknowledged m) := h.regs m _
    rw [M5Z80.interrupt_zero ei hiff]
    split
    · exact h.trans hack (h.interruptIm2 0 _)
    split
    · exact h.trans hack (h.interruptIm1 ei _)
    · rw [interruptIm0_apply]
      exact h.trans hack (h.mCstate 4 _)

/-- A check that is past its tick. -/
theorem checked (m : Machine) : R (checkPit m) (z80Interrupt m).2 := by
  cases hdue : tickDue m with
  | false =>
      rw [z80Interrupt_of_not_due hdue, checkPit, hdue]
      exact h.refl m
  | true =>
      have hcheck : checkPit m = (pitCount (countTick m)).2 := if_pos hdue
      rw [hcheck]
      obtain ⟨hnot, -⟩ | ⟨-, heq⟩ | ⟨-, heq⟩ := z80Interrupt_cases m
      · rw [hdue] at hnot
        cases hnot
      · rw [heq]
        exact h.refl _
      · rw [heq]
        exact h.trans (h.intflag _ _) (h.interrupt_zero _ _)

end KeepsFlag

/-- A relation that a tick that is due keeps, too. -/
structure KeepsAll (R : Machine → Machine → Prop) : Prop extends KeepsFlag R where
  tick : ∀ m, tickDue m = true → R m (pitCount (countTick m)).2

namespace KeepsAll

variable {R : Machine → Machine → Prop} (h : KeepsAll R)
include h

/-- The check serves a tick, with the request it may make. -/
theorem checkPit (m : Machine) : R m (checkPit m) := by
  unfold M5Z80.checkPit
  split
  · exact h.tick m ‹_›
  · exact h.refl m

/-- The check that begins a pass. -/
theorem z80Interrupt (m : Machine) : R m (z80Interrupt m).2 :=
  h.trans (h.checkPit m) (h.checked m)

/-- The check of EI, and the instruction that it runs. -/
theorem ei (m : Machine) : R m (ei m).2 := by
  by_cases hiff : m.r.iff1 = 0
  · have henable : R m (enabled m) := h.regs m _
    rw [ei_of_disabled hiff]
    exact h.trans (h.trans henable (h.nextEnabled _)) (h.z80Interrupt _)
  · rw [ei_of_enabled hiff]
    exact h.regs m _

/-- A pass keeps what its parts keep. -/
theorem pass (m : Machine) : R m (M5Z80.pass m) :=
  h.trans (h.trans (h.regs m _) (h.z80Interrupt _)) (h.instruction h.ei _)

end KeepsAll

end Cpu

/-! ## the two checks of a pass -/

/-- The machine where a pass checks for an interrupt first. -/
def startCheck (m : Machine) : Machine := (Op.incR m).2

/-- The machine where a pass that executes an enabling `EI` checks again:
behind the instruction that follows the `EI`. -/
def eiCheck (m : Machine) : Option Machine :=
  (behindEi (fetching m)).map fun m₁ => (Cpu.instruction Cpu.eiEnabled m₁).2

/-- A pass begins with its check. -/
theorem fetching_eq (m : Machine) : fetching m = (Cpu.z80Interrupt (startCheck m)).2 := rfl

/-- What follows an EI is its opcode fetch with interrupts enabled. -/
theorem behindEi_some {m m₁ : Machine} (h : behindEi m = some m₁) :
    (Cpu.rdmemOpcode m).1 = 0xFB ∧ m₁ = enabled (mCstate 4 (Cpu.rdmemOpcode m).2) := by
  rw [behindEi] at h
  split at h
  · rename_i hei
    exact ⟨hei.1, (Option.some.inj h).symm⟩
  · cases h

/-- An `EI` that enables interrupts. -/
theorem instruction_of_some {m m₁ : Machine} (h : behindEi m = some m₁) :
    Cpu.instruction Cpu.ei m = Cpu.z80Interrupt (Cpu.instruction Cpu.eiEnabled m₁).2 := by
  obtain ⟨_, h', -, heq⟩ | ⟨h', -⟩ := behindEi_cases m
  · rw [h, Option.some.injEq] at h'
    rw [h', heq]
  · rw [h] at h'
    cases h'

/-- Any other instruction does not run the entry of `ei`, or finds
interrupts enabled there. -/
theorem instruction_of_none {m : Machine} (h : behindEi m = none) :
    Cpu.instruction Cpu.ei m = Cpu.instruction Cpu.eiEnabled m := by
  by_cases hei : (Cpu.rdmemOpcode m).1 = 0xFB
  · have hiff : (Cpu.rdmemOpcode m).2.r.iff1 ≠ 0 := by
      intro hzero
      rw [behindEi, if_pos ⟨hei, hzero⟩] at h
      cases h
    rw [instruction_ei _ hei, instruction_ei _ hei, ei_of_enabled (by rwa [r_mCstate])]
  · simp only [Cpu.instruction, Cpu.bind_apply]
    rw [Op.dispatch_of_ne hei]

/-- A pass ends with its second check, or else with its instruction. -/
theorem pass_of_some {m s : Machine} (h : eiCheck m = some s) :
    pass m = (Cpu.z80Interrupt s).2 := by
  obtain ⟨m₁, hbehind, rfl⟩ := Option.map_eq_some_iff.mp h
  rw [← instruction_of_some hbehind]
  rfl

/-- A pass without an EI runs one instruction. -/
theorem pass_of_none {m : Machine} (h : eiCheck m = none) :
    pass m = (Cpu.instruction Cpu.eiEnabled (fetching m)).2 := by
  rw [← instruction_of_none (Option.map_eq_none_iff.mp h)]
  rfl

end M5Z80
