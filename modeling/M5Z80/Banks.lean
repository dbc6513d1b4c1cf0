import M5Z80.Frame
import M5Z80.Lib.Store

/-!
# M5Z80.Banks

The address space as the CPU sees it: a monitor ROM of 4K, a video RAM of
4K and a main RAM of 64K, of which ports `E0`-`E4` choose what the CPU's
addresses show.  The abstract `mz700` says so without pages; the machine's
32 pages, their offsets and the pointers cached by `update_membank` refine
it for every run of bank switches, writes and reads after a reset.
-/

namespace M5Z80

/-! ## the three stores -/

/-- A byte of one of the three stores. -/
inductive Cell
  | rom (i : Fin 0x1000)
  | vram (i : Fin 0x1000)
  | ram (a : UInt16)
deriving DecidableEq

namespace Cell

/-- Where the byte is in `mem`. -/
def place : Cell → Nat
  | .rom i => romStart + i
  | .vram i => vidStart + i
  | .ram a => ramStart + a.toNat

/-- No two bytes of the three stores share a byte of `mem`. -/
theorem place_injective : Function.Injective place := by
  intro c c' h
  cases c <;> cases c' <;> simp only [place, romStart, vidStart, ramStart] at h
  case rom.rom i j => rw [show i = j by omega]
  case vram.vram i j => rw [show i = j by omega]
  case ram.ram a b => rw [show a = b from UInt16.toNat_inj.mp (by omega)]
  all_goals omega

/-- The bank base that shows the byte's store. -/
def base : Cell → MemBase
  | .rom _ => .rom1
  | .vram _ => .vram
  | .ram _ => .ram

/-- No cell is in the dummy bank, which takes the writes to ROM. -/
theorem base_ne_dummy (c : Cell) : c.base ≠ .dummy := by
  cases c <;> simp [base]

/-- All banks with cells are parts of `mem`. -/
theorem block_base (c : Cell) : (bankBase c.base).1.block = .mem := by
  cases c <;> rfl

/-- Writes reach the video RAM and the main RAM. -/
def writable : Cell → Bool
  | .rom _ => false
  | .vram _ => true
  | .ram _ => true

/-- The attribute of a cell's page says whether it takes writes. -/
theorem attr_base (c : Cell) : (bankBase c.base).2 = 0 ↔ c.writable = false := by
  cases c <;> simp [base, bankBase, writable]

end Cell

/-! ## the abstract address space -/

/-- The configuration: is `0000`-`0FFF` RAM, and is `D000`-`FFFF` RAM? -/
structure BankConfig where
  low : Bool
  high : Bool
deriving DecidableEq

/-- What an address shows.  `none` is memory-mapped I/O. -/
def BankConfig.decode (g : BankConfig) (a : UInt16) : Option Cell :=
  if a < 0x1000 then
    some (if g.low then .ram a else .rom (Fin.ofNat _ a.toNat))
  else if a < 0xD000 then some (.ram a)
  else if g.high then some (.ram a)
  else if a < 0xE000 then some (.vram (Fin.ofNat _ (a - 0xD000).toNat))
  else none

/-- A bit that port `on` sets and the ports `off` clear.  Only the low byte
of a port counts. -/
def latch (on : UInt16) (off : List UInt16) (port : UInt16) (b : Bool) : Bool :=
  if port &&& 0xFF = on then true else if port &&& 0xFF ∈ off then false else b

/-- What a port does to the configuration. -/
def BankConfig.out (port : UInt16) (g : BankConfig) : BankConfig where
  low := latch 0xE0 [0xE2, 0xE4] port g.low
  high := latch 0xE1 [0xE3, 0xE4] port g.high

/-- The banked address space of the MZ-700. -/
def mz700 : Store.Banking BankConfig UInt16 UInt16 Cell where
  decode := BankConfig.decode
  writable := Cell.writable
  switch := BankConfig.out

/-! ## what the pages show -/

/-- Only the dummy base is memory-mapped I/O. -/
theorem bankBase_mmio {b : MemBase} (hb : b ≠ .dummy) : (bankBase b).2 &&& 2 = 0 := by
  cases b
  case dummy => exact absurd rfl hb
  all_goals decide

/-- Where an access goes: to the MMIO registers or to a byte of a block. -/
inductive Target
  | mmio
  | byte (b : Block) (i : Nat)
deriving DecidableEq

/-- The page of an address. -/
def pageOf (a : UInt16) : Fin 32 := ⟨a.toNat / 0x800, by have := a.toNat_lt; omega⟩

/-- Where the page tables send an access. -/
def Machine.target (m : Machine) (a : UInt16) : Target :=
  if (m.hw700.memctrl (pageOf a)).attr &&& 2 ≠ 0 then .mmio
  else .byte (m.memptr (pageOf a)).block ((m.memptr (pageOf a)).ofs + a.toNat % 0x800)

/-- Base and offset of a page. -/
def Machine.bank (m : Machine) (i : Fin 32) : MemBase × UInt16 :=
  ((m.hw700.memctrl i).base, (m.hw700.memctrl i).ofs)

/-- The attributes and the pointers are those of the bases and offsets. -/
def Machine.Consistent (m : Machine) : Prop :=
  ∀ i, (m.hw700.memctrl i).attr = (bankBase (m.bank i).1).2 ∧
    m.memptr i =
      ⟨(bankBase (m.bank i).1).1.block, (bankBase (m.bank i).1).1.ofs + (m.bank i).2.toNat⟩

@[simp] theorem bank_updateMembank (m : Machine) : (updateMembank m).bank = m.bank := rfl

/-- `update_membank` sets the pointers of every page from its bank. -/
theorem consistent_updateMembank (m : Machine) : (updateMembank m).Consistent :=
  fun _ => ⟨rfl, rfl⟩

@[simp] theorem bank_setBank (i : Fin 32) (base : MemBase) (ofs : UInt16) (m : Machine) :
    (setBank i base ofs m).bank = Function.update m.bank i (base, ofs) := by
  funext j
  simp only [Machine.bank, setBank, Function.update_apply]
  split <;> rfl

/-- The pages of a configuration. -/
def BankConfig.page (g : BankConfig) (i : Fin 32) : MemBase × UInt16 :=
  let whole : UInt16 := (i.val * 0x800).toUInt16
  if i.val < 2 then (if g.low then (.ram, whole) else (.rom1, whole))
  else if i.val < 26 then (.ram, whole)
  else if g.high then (.ram, whole)
  else if i.val < 28 then (.vram, ((i.val - 26) * 0x800).toUInt16)
  else (.dummy, (i.val % 2 * 0x800).toUInt16)

/-- The machine's pages are those of a configuration. -/
structure HasBanks (g : BankConfig) (m : Machine) : Prop where
  bank : m.bank = g.page
  consistent : m.Consistent

/-! ## the bank commands -/

/-- The first two pages after `OUT E0`: RAM at 0000 and 0800. -/
theorem page_outE0 (g : BankConfig) :
    Function.update (Function.update g.page 0 (.ram, 0x000)) 1 (.ram, 0x800) =
      BankConfig.page ⟨true, g.high⟩ := by
  funext i
  obtain ⟨low, high⟩ := g
  revert low high i
  decide

/-- The first two pages after `OUT E2`: the monitor ROM again. -/
theorem page_outE2 (g : BankConfig) :
    Function.update (Function.update g.page 0 (.rom1, 0x0000)) 1 (.rom1, 0x0800) =
      BankConfig.page ⟨false, g.high⟩ := by
  funext i
  obtain ⟨low, high⟩ := g
  revert low high i
  decide

/-- `OUT E1` makes every page from D000 on RAM. -/
theorem bank_outE1 {g : BankConfig} {m : Machine} (h : m.bank = g.page) :
    (outE1 m).bank = BankConfig.page ⟨g.low, true⟩ := by
  simp only [outE1, bank_updateMembank, bank_setBank, h]
  funext i
  obtain ⟨low, high⟩ := g
  clear h
  revert low high i
  decide

/-- Port `E3` sets the upper pages whatever they were. -/
theorem bank_outE3 {g : BankConfig} {m : Machine} (h : ∀ i : Fin 32, i < 26 → m.bank i = g.page i) :
    (outE3 m).bank = BankConfig.page ⟨g.low, false⟩ := by
  have hlower : ∀ (low high : Bool) (i : Fin 32), i < 26 →
      BankConfig.page ⟨low, high⟩ i = BankConfig.page ⟨low, false⟩ i := by decide
  simp only [outE3, bank_updateMembank, bank_setBank]
  funext i
  have hi : i < 26 ∨ i = 26 ∨ i = 27 ∨ i = 28 ∨ i = 29 ∨ i = 30 ∨ i = 31 := by omega
  obtain hi | rfl | rfl | rfl | rfl | rfl | rfl := hi
  · rw [← hlower g.low g.high i hi, ← h i hi]
    iterate 6 rw [Function.update_of_ne (by omega)]
  all_goals rfl

/-- `OUT E0` switches the low bank to RAM and leaves the high one. -/
theorem HasBanks.outE0 {g : BankConfig} {m : Machine} (h : HasBanks g m) :
    HasBanks ⟨true, g.high⟩ (outE0 m) :=
  ⟨by simp only [M5Z80.outE0, bank_updateMembank, bank_setBank, h.bank, page_outE0],
    consistent_updateMembank _⟩

/-- `OUT E2` switches the low bank back to ROM and leaves the high one. -/
theorem HasBanks.outE2 {g : BankConfig} {m : Machine} (h : HasBanks g m) :
    HasBanks ⟨false, g.high⟩ (outE2 m) :=
  ⟨by simp only [M5Z80.outE2, bank_updateMembank, bank_setBank, h.bank, page_outE2],
    consistent_updateMembank _⟩

/-- `OUT E1` switches the high bank to RAM and leaves the low one. -/
theorem HasBanks.outE1 {g : BankConfig} {m : Machine} (h : HasBanks g m) :
    HasBanks ⟨g.low, true⟩ (outE1 m) :=
  ⟨bank_outE1 h.bank, consistent_updateMembank _⟩

/-- `OUT E3` switches the high bank to video RAM and registers and leaves the low one. -/
theorem HasBanks.outE3 {g : BankConfig} {m : Machine} (h : HasBanks g m) :
    HasBanks ⟨g.low, false⟩ (outE3 m) :=
  ⟨bank_outE3 fun i _ => by rw [h.bank], consistent_updateMembank _⟩

/-- `Z80_Out` makes the configuration that the port stands for. -/
theorem HasBanks.z80Out {g : BankConfig} {m : Machine} (h : HasBanks g m) (port value : UInt16) :
    HasBanks (g.out port) (z80Out port value m) := by
  simp only [M5Z80.z80Out, BankConfig.out, latch, List.mem_cons, List.not_mem_nil, or_false]
  generalize port &&& 0xFF = p
  by_cases h0 : p = 0xE0
  · subst h0; exact h.outE0
  by_cases h1 : p = 0xE1
  · subst h1; exact h.outE1
  by_cases h2 : p = 0xE2
  · subst h2; exact h.outE2
  by_cases h3 : p = 0xE3
  · subst h3; exact h.outE3
  by_cases h4 : p = 0xE4
  · subst h4; exact h.outE2.outE3
  · simp only [h0, h1, h2, h3, h4, or_self, if_false]
    exact h

/-- After `mz_reset` the monitor ROM, the video RAM and the MMIO registers
are there. -/
theorem hasBanks_mzReset (rand : UInt32) (m : Machine) :
    HasBanks ⟨false, false⟩ (mzReset rand m) := by
  have hinit : ∀ i : Fin 32, i < 26 →
      (M5Z80.outE2 (initBanks (pitInit (clearHardware m)))).bank i =
        BankConfig.page ⟨false, false⟩ i := by
    intro i hi
    have hlow : ∀ i : Fin 32, i < 26 →
        Function.update (Function.update (fun i : Fin 32 => (MemBase.ram, (i.val * 0x800).toUInt16))
          0 (.rom1, 0x0000)) 1 (.rom1, 0x0800) i = BankConfig.page ⟨false, false⟩ i := by decide
    rw [← hlow i hi]
    simp only [M5Z80.outE2, bank_updateMembank, bank_setBank]
    simp only [Function.update_apply]
    split
    · rfl
    split
    · rfl
    · simp only [Machine.bank, initBanks]
      rw [if_pos (by omega)]
  have hbanks : (initHardware m).bank = BankConfig.page ⟨false, false⟩ := by
    simp only [initHardware, bank_updateMembank]
    exact bank_outE3 hinit
  have hcons : (initHardware m).Consistent := consistent_updateMembank _
  exact ⟨hbanks, hcons⟩

/-! ## where an access goes -/

/-- What a configuration shows at an address, as a place in memory. -/
def BankConfig.target (g : BankConfig) (a : UInt16) : Target :=
  match g.decode a with
  | some c => .byte .mem c.place
  | none => .mmio

/-- The page of an address has the base of the cell the configuration shows
there, and an offset that leads to the cell. -/
theorem HasBanks.shows {g : BankConfig} {m : Machine} (h : HasBanks g m) (a : UInt16) :
    ∃ ofs, m.bank (pageOf a) = ((g.decode a).elim .dummy Cell.base, ofs) ∧
      ∀ c, g.decode a = some c →
        (bankBase c.base).1.ofs + ofs.toNat + a.toNat % 0x800 = c.place := by
  have ha := a.toNat_lt
  have hbank := congrFun h.bank (pageOf a)
  have hwhole : ((a.toNat / 0x800) * 0x800).toUInt16.toNat = a.toNat / 0x800 * 0x800 := by
    rw [Nat.toUInt16_eq, UInt16.toNat_ofNat']
    omega
  have hram : ∀ c, some (Cell.ram a) = some c → (bankBase c.base).1.ofs +
      ((a.toNat / 0x800) * 0x800).toUInt16.toNat + a.toNat % 0x800 = c.place := by
    rintro c ⟨⟩
    simp only [Cell.base, bankBase, Cell.place, hwhole]
    omega
  have hval : (pageOf a).val = a.toNat / 0x800 := rfl
  simp only [BankConfig.page, hval] at hbank
  simp only [BankConfig.decode, UInt16.lt_iff_toNat_lt, UInt16.reduceToNat]
  by_cases h0 : a.toNat < 0x1000
  · rw [if_pos (show a.toNat / 0x800 < 2 by omega)] at hbank
    rw [if_pos h0]
    cases hlow : g.low with
    | true =>
        rw [hlow, if_pos rfl] at hbank
        exact ⟨_, hbank, hram⟩
    | false =>
        simp only [hlow, Bool.false_eq_true, if_false] at hbank ⊢
        refine ⟨_, hbank, ?_⟩
        rintro c ⟨⟩
        simp only [Cell.base, bankBase, Cell.place, hwhole, Fin.ofNat]
        omega
  rw [if_neg (show ¬ a.toNat / 0x800 < 2 by omega)] at hbank
  rw [if_neg h0]
  by_cases h1 : a.toNat < 0xD000
  · rw [if_pos (show a.toNat / 0x800 < 26 by omega)] at hbank
    rw [if_pos h1]
    exact ⟨_, hbank, hram⟩
  rw [if_neg (show ¬ a.toNat / 0x800 < 26 by omega)] at hbank
  rw [if_neg h1]
  cases hhigh : g.high with
  | true =>
      rw [hhigh, if_pos rfl] at hbank
      exact ⟨_, hbank, hram⟩
  | false =>
      simp only [hhigh, Bool.false_eq_true, if_false] at hbank ⊢
      by_cases h2 : a.toNat < 0xE000
      · rw [if_pos (show a.toNat / 0x800 < 28 by omega)] at hbank
        rw [if_pos h2]
        refine ⟨_, hbank, ?_⟩
        rintro c ⟨⟩
        have hofs : (((a.toNat / 0x800 - 26) * 0x800).toUInt16).toNat =
            (a.toNat / 0x800 - 26) * 0x800 := by
          rw [Nat.toUInt16_eq, UInt16.toNat_ofNat']
          omega
        have hsub : (a - 0xD000).toNat = a.toNat - 0xD000 := by
          refine UInt16.toNat_sub_of_le _ _ ?_
          rw [UInt16.le_iff_toNat_le]
          exact Nat.le_of_not_lt h1
        simp only [Cell.base, bankBase, Cell.place, hofs, hsub, Fin.ofNat]
        omega
      · rw [if_neg (show ¬ a.toNat / 0x800 < 28 by omega)] at hbank
        rw [if_neg h2]
        refine ⟨_, hbank, ?_⟩
        rintro c ⟨⟩

/-- The attribute of an address: bit 1 for MMIO, none for ROM. -/
theorem HasBanks.attr {g : BankConfig} {m : Machine} (h : HasBanks g m) (a : UInt16) :
    (m.hw700.memctrl (pageOf a)).attr = (bankBase ((g.decode a).elim .dummy Cell.base)).2 := by
  obtain ⟨ofs, hbank, -⟩ := h.shows a
  rw [(h.consistent (pageOf a)).1, hbank]

/-- The page tables send every access where the configuration says. -/
theorem HasBanks.target {g : BankConfig} {m : Machine} (h : HasBanks g m) (a : UInt16) :
    m.target a = g.target a := by
  obtain ⟨ofs, hbank, hofs⟩ := h.shows a
  have hptr := (h.consistent (pageOf a)).2
  have hattr := h.attr a
  simp only [hbank] at hptr
  simp only [Machine.target, BankConfig.target]
  cases hdec : g.decode a with
  | none =>
      rw [hattr, hdec]
      rfl
  | some c =>
      have hplace := hofs c hdec
      rw [hdec, Option.elim_some] at hattr hptr
      rw [hattr, if_neg (not_not_intro (bankBase_mmio (Cell.base_ne_dummy c)))]
      rw [hptr, hplace, Cell.block_base]

/-! ## reads and writes -/

/-- The page number that `Z80_RDMEM` and `Z80_WRMEM` take from an address. -/
theorem page_toUInt32 (a : UInt16) : (a.toUInt32 >>> 11).toNat = (pageOf a).val := by
  rw [UInt32.toNat_shiftRight, UInt16.toNat_toUInt32]
  exact Nat.shiftRight_eq_div_pow _ 11

/-- The offset in the page that they take from it. -/
theorem ofs_toUInt32 (a : UInt16) : (a.toUInt32 &&& 0x7FF).toNat = a.toNat % 0x800 := by
  rw [UInt32.toNat_and, UInt16.toNat_toUInt32]
  exact Nat.and_two_pow_sub_one_eq_mod _ 11

theorem bytes_congr {m m' : Machine} (h : m'.core = m.core) : m'.bytes = m.bytes := by
  funext b i
  cases b with
  | mem => exact congrFun (congrArg Core.mem h) i
  | junk => exact congrFun (congrArg Core.junk h) i
  | mzFont => exact congrFun (congrArg Core.mzFont h) i

/-- A read returns the byte the page tables point at, or what the MMIO
register gives; before that it may wait. -/
theorem z80Rdmem_target (a : UInt16) (m : Machine) : ∃ m₁ : Machine, m₁.core = m.core ∧
    z80Rdmem a.toUInt32 m =
      match m.target a with
      | .mmio => (UInt32.ofInt (mmioIn a.toUInt32 m₁).1, (mmioIn a.toUInt32 m₁).2)
      | .byte b i => ((m.bytes b i).toUInt32, m₁) := by
  have heq := z80Rdmem_eq (page_toUInt32 a) m
  generalize hm₁ : readWait (m.hw700.memctrl (pageOf a)).attr (m.use .memctrl (pageOf a).val) = m₁
    at heq
  have hcore : m₁.core = m.core := by rw [← hm₁, core_readWait, core_use]
  have hptr : m₁.memptr (pageOf a) = m.memptr (pageOf a) :=
    congrFun (congrArg Core.memptr hcore) _
  refine ⟨m₁, hcore, ?_⟩
  rw [heq, Machine.target]
  simp only [Machine.deref, bytes_congr hcore, hptr, ofs_toUInt32]
  by_cases hattr : (m.hw700.memctrl (pageOf a)).attr &&& 2 ≠ 0
  · rw [if_pos hattr, if_pos hattr]
  · rw [if_neg hattr, if_neg hattr]

/-- A write to MMIO. -/
theorem z80Wrmem_mmio {a : UInt16} {m : Machine} (h : m.target a = .mmio) (v : UInt32) :
    z80Wrmem a.toUInt32 v m = mmioOut a.toUInt32 v (m.use .memctrl (pageOf a).val) := by
  rw [z80Wrmem_eq (page_toUInt32 a)]
  rw [Machine.target] at h
  split at h
  · next hattr => exact if_pos hattr
  · cases h

/-- A write where no write is allowed does nothing. -/
theorem z80Wrmem_readonly {a : UInt16} {m : Machine}
    (h : (m.hw700.memctrl (pageOf a)).attr = 0) (v : UInt32) :
    z80Wrmem a.toUInt32 v m = m.use .memctrl (pageOf a).val := by
  rw [z80Wrmem_eq (page_toUInt32 a), h]
  rfl

/-- A write to memory changes one byte of the core. -/
theorem core_z80Wrmem_byte {a : UInt16} {m : Machine} {b : Block} {i : Nat}
    (h : m.target a = .byte b i) (hattr : (m.hw700.memctrl (pageOf a)).attr ≠ 0) (v : UInt32) :
    (z80Wrmem a.toUInt32 v m).core = (m.store ⟨b, i⟩ 0 v.toUInt8).core := by
  rw [Machine.target] at h
  split at h
  · cases h
  · next hmmio =>
      injection h with hb hi
      let m₁ := (m.use .memctrl (pageOf a).val).store (m.memptr (pageOf a)) (a.toNat % 0x800)
        v.toUInt8
      have hstore : m₁.core = (m.store ⟨b, i⟩ 0 v.toUInt8).core := by
        rw [← hb, ← hi]
        simp only [m₁, Machine.store, Nat.add_zero]
        cases (m.memptr (pageOf a)).block <;> rfl
      rw [z80Wrmem_eq (page_toUInt32 a), ofs_toUInt32]
      simp only
      rw [if_neg hmmio, if_pos hattr]
      change (if _ then mCstate vramAccessWait m₁ else m₁).core = _
      split
      · rw [core_mCstate, hstore]
      · exact hstore

/-! ## refinement -/

/-- The machine shows the configuration, and its memory holds the cells. -/
def Refines (m : Machine) (q : BankConfig × (Cell → UInt8)) : Prop :=
  HasBanks q.1 m ∧ ∀ c : Cell, m.mem c.place = q.2 c

/-- Only the core of the machine counts for the banks and the stores. -/
theorem Refines.congr {m m' : Machine} {q : BankConfig × (Cell → UInt8)} (h : Refines m q)
    (hcore : m'.core = m.core) : Refines m' q := by
  have hctrl : m'.hw700.memctrl = m.hw700.memctrl := congrArg Core.memctrl hcore
  have hptr : m'.memptr = m.memptr := congrArg Core.memptr hcore
  have hmem : m'.mem = m.mem := congrArg Core.mem hcore
  have hbank : m'.bank = m.bank := by
    funext i
    simp only [Machine.bank, hctrl]
  refine ⟨⟨by rw [hbank, h.1.bank], ?_⟩, by rw [hmem]; exact h.2⟩
  simp only [Machine.Consistent, hbank, hctrl, hptr]
  exact h.1.consistent

/-- A bank command, a write and a read of the CPU.  The value of an `OUT`
and the upper bytes of a written value do not count. -/
inductive BusStep
  | out (port value : UInt16)
  | write (a : UInt16) (v : UInt32)
  | read (a : UInt16)

namespace BusStep

/-- The machine after a step. -/
def apply : BusStep → Machine → Machine
  | .out port value, m => z80Out port value m
  | .write a v, m => z80Wrmem a.toUInt32 v m
  | .read a, m => (z80Rdmem a.toUInt32 m).2

/-- The step of the abstract address space. -/
def abs : BusStep → Store.Op UInt16 UInt16 UInt8
  | .out port _ => .switch port
  | .write a v => .write a v.toUInt8
  | .read a => .read a

/-- A write reaches the cell it shows and no other. -/
theorem refines_write {m : Machine} {q : BankConfig × (Cell → UInt8)} (h : Refines m q)
    (a : UInt16) (v : UInt32) :
    Refines (z80Wrmem a.toUInt32 v m) (mz700.step (.write a v.toUInt8) q) := by
  obtain ⟨g, s⟩ := q
  have htarget := h.1.target a
  have hattr := h.1.attr a
  simp only [BankConfig.target] at htarget
  simp only [Store.Banking.step, Store.Banking.target, mz700]
  cases hdec : g.decode a with
  | none =>
      rw [hdec] at htarget
      rw [z80Wrmem_mmio htarget]
      exact h.congr (by rw [core_mmioOut, core_use])
  | some c =>
      rw [hdec] at htarget
      rw [hdec, Option.elim_some] at hattr
      cases hw : c.writable with
      | false =>
          rw [z80Wrmem_readonly (hattr.trans (c.attr_base.mpr hw))]
          simp only [Option.filter_some, hw, Bool.false_eq_true, if_false]
          exact h.congr (core_use _ _ m)
      | true =>
          have hne : (m.hw700.memctrl (pageOf a)).attr ≠ 0 := by
            rw [hattr, Ne, c.attr_base, hw]
            decide
          simp only [Option.filter_some, hw, if_true, Option.map_some, Option.getD_some]
          refine Refines.congr (m := m.store ⟨.mem, c.place⟩ 0 v.toUInt8) ⟨?_, ?_⟩
            (core_z80Wrmem_byte htarget hne v)
          · exact ⟨h.1.bank, h.1.consistent⟩
          · intro c'
            change Function.update m.mem (c.place + 0) v.toUInt8 c'.place =
              Function.update s c v.toUInt8 c'
            rw [Nat.add_zero, ← (funext h.2 : _ = s)]
            exact congrFun (Function.update_comp_eq_of_injective' m.mem Cell.place_injective c _) c'

/-- Every step of the machine refines the abstract one. -/
theorem refines_apply (m : Machine) (q : BankConfig × (Cell → UInt8)) (o : BusStep)
    (h : Refines m q) : Refines (o.apply m) (mz700.step o.abs q) := by
  cases o with
  | out port value =>
      refine ⟨h.1.z80Out port value, ?_⟩
      have hmem : (z80Out port value m).unbanked.mem = m.unbanked.mem := by
        rw [unbanked_z80Out]
      intro c
      exact (congrFun hmem _).trans (h.2 c)
  | write a v => exact refines_write h a v
  | read a => exact h.congr (core_z80Rdmem _ m)

/-- The last of the given ports that a run writes. -/
def lastPort (ports : List UInt16) : List BusStep → Option UInt16
  | [] => none
  | .out port _ :: ops =>
      (lastPort ports ops).or (if port &&& 0xFF ∈ ports then some (port &&& 0xFF) else none)
  | .write _ _ :: ops => lastPort ports ops
  | .read _ :: ops => lastPort ports ops

/-- The configuration after a run of bank commands and accesses. -/
def configAfter (ops : List BusStep) : BankConfig where
  low := lastPort [0xE0, 0xE2, 0xE4] ops = some 0xE0
  high := lastPort [0xE1, 0xE3, 0xE4] ops = some 0xE1

/-- The value a run last wrote to a cell. -/
def lastWritten (ops : List BusStep) (c : Cell) : Option UInt8 :=
  Store.lastTo c (mz700.log (ops.map abs) ⟨false, false⟩)

/-- A bit of the configuration is what the last port that touches it made it. -/
theorem config_latch (bit : BankConfig → Bool) {on : UInt16} {off : List UInt16}
    (hbit : ∀ port g, bit (g.out port) = latch on off port (bit g)) (ops : List BusStep)
    (g : BankConfig) :
    bit (mz700.config (ops.map abs) g) =
      ((lastPort (on :: off) ops).map (· == on)).getD (bit g) := by
  induction ops generalizing g with
  | nil => rfl
  | cons o ops ih =>
      cases o with
      | write a v => exact ih g
      | read a => exact ih g
      | out port value =>
          simp only [List.map_cons, abs, Store.Banking.config, ih, lastPort]
          cases lastPort (on :: off) ops with
          | some p => rfl
          | none =>
              change bit (g.out port) = _
              rw [hbit, latch]
              by_cases hon : port &&& 0xFF = on
              · simp [hon]
              by_cases hoff : port &&& 0xFF ∈ off
              · simp [hon, hoff]
              · simp [hon, hoff]

/-- After a reset the configuration is the one of the last ports written. -/
theorem config_eq (ops : List BusStep) :
    mz700.config (ops.map abs) ⟨false, false⟩ = configAfter ops := by
  have hlast (o : Option UInt16) (v : UInt16) :
      (o.map (· == v)).getD false = decide (o = some v) := by
    cases o with
    | none => rfl
    | some p => by_cases h : p = v <;> simp [h]
  have hlow := config_latch BankConfig.low (fun _ _ => rfl) ops ⟨false, false⟩
  have hhigh := config_latch BankConfig.high (fun _ _ => rfl) ops ⟨false, false⟩
  rw [hlast] at hlow hhigh
  generalize mz700.config (ops.map abs) ⟨false, false⟩ = g at hlow hhigh
  obtain ⟨low, high⟩ := g
  simp only at hlow hhigh
  rw [hlow, hhigh]
  rfl

end BusStep

/-! ## every run -/

/-- What holds of the machine `m'` that the run `ops` makes of `m`. -/
structure BankedMemory (ops : List BusStep) (m m' : Machine) : Prop where
  /-- Addresses show what the last bank commands made them show. -/
  mapping : ∀ a, m'.target a = (BusStep.configAfter ops).target a
  /-- A read returns the last byte written to the cell, or its first one. -/
  read : ∀ a c, (BusStep.configAfter ops).decode a = some c →
    (z80Rdmem a.toUInt32 m').1 =
      ((BusStep.lastWritten ops c).getD (m.mem c.place)).toUInt32
  /-- Where no store is shown, a read and a write go to the MMIO registers. -/
  mmioRead : ∀ a, (BusStep.configAfter ops).decode a = none → ∃ m₁ : Machine,
    m₁.core = m'.core ∧ z80Rdmem a.toUInt32 m' =
      (UInt32.ofInt (mmioIn a.toUInt32 m₁).1, (mmioIn a.toUInt32 m₁).2)
  mmioWrite : ∀ a v, (BusStep.configAfter ops).decode a = none → ∃ m₁ : Machine,
    m₁.core = m'.core ∧ z80Wrmem a.toUInt32 v m' = mmioOut a.toUInt32 v m₁
  /-- A write to the ROM is noted in the trace and changes nothing. -/
  romWrite : ∀ a i v, (BusStep.configAfter ops).decode a = some (.rom i) →
    (z80Wrmem a.toUInt32 v m').untraced = m'.untraced
  /-- The ROM's area of `mem` is as it was. -/
  romArea : ∀ i, romStart ≤ i → i < romStart + 0x1000 → m'.mem i = m.mem i

/-- The banked memory is three disjoint stores, in every run of bank
commands, writes and reads after a reset, and no two bytes of the stores
share a byte of `mem`. -/
theorem bankedMemory (rand : UInt32) (m : Machine) (ops : List BusStep) :
    BankedMemory ops (mzReset rand m) (Run.exec BusStep.apply ops (mzReset rand m)) ∧
      Function.Injective Cell.place := by
  refine ⟨?_, Cell.place_injective⟩
  have hinit : Refines (mzReset rand m)
      (⟨false, false⟩, fun c : Cell => (mzReset rand m).mem c.place) :=
    ⟨hasBanks_mzReset rand m, fun _ => rfl⟩
  have hrun := Run.exec_simulates BusStep.abs mz700.step BusStep.refines_apply ops hinit
  rw [Store.Banking.exec_step, BusStep.config_eq] at hrun
  generalize Run.exec BusStep.apply ops (mzReset rand m) = m' at hrun ⊢
  obtain ⟨hbanks, hcells⟩ := hrun
  dsimp only at hbanks hcells
  have htarget (a : UInt16) (hdec : (BusStep.configAfter ops).decode a = none) :
      m'.target a = .mmio := by rw [hbanks.target a, BankConfig.target, hdec]
  constructor
  case mapping => exact hbanks.target
  case read =>
    intro a c hdec
    obtain ⟨m₁, -, hread⟩ := z80Rdmem_target a m'
    rw [hread, hbanks.target a, BankConfig.target, hdec]
    change (m'.mem c.place).toUInt32 = _
    rw [hcells c, Store.replay_apply]
    rfl
  case mmioRead =>
    intro a hdec
    obtain ⟨m₁, hcore, hread⟩ := z80Rdmem_target a m'
    rw [htarget a hdec] at hread
    exact ⟨m₁, hcore, hread⟩
  case mmioWrite =>
    intro a v hdec
    exact ⟨_, core_use _ _ m', z80Wrmem_mmio (htarget a hdec) v⟩
  case romWrite =>
    intro a i v hdec
    have hattr := hbanks.attr a
    rw [hdec] at hattr
    rw [z80Wrmem_readonly hattr]
    rfl
  case romArea =>
    intro i hlo hhi
    have hcell := hcells (.rom ⟨i - romStart, by omega⟩)
    rw [Store.Banking.replay_log_of_not_writable (B := mz700) _ _ _ rfl] at hcell
    simp only [Cell.place, Nat.add_sub_cancel' hlo] at hcell
    exact hcell

end M5Z80
