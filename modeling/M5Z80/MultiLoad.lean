import M5Z80.Containers
import M5Z80.Lib.Overlay

/-!
# M5Z80.MultiLoad

Loading a plain file of several machine-code records.  Their bodies lie one
over the other in the main RAM in the order of the file, the program counter
is that of the last one, and nothing else of the machine changes.
-/

namespace M5Z80

/-! ## records in memory -/

/-- The body of a record, at its load address in the main RAM. -/
def MztRecord.block (r : MztRecord) : Overlay.Block UInt8 := ⟨word16At r.header 0x14, r.body⟩

/-- The same block in `mem`. -/
def MztRecord.memBlock (r : MztRecord) : Overlay.Block UInt8 :=
  ⟨ramStart + word16At r.header 0x14, r.body⟩

/-- A record that is loaded is a block laid over memory. -/
theorem mem_store_loaded (r : MztRecord) (m : Machine) :
    (r.loaded.store m).mem = Overlay.place m.mem r.memBlock := by
  funext i
  rw [LoadRecord.store, mem_readToRam, Overlay.place, Overlay.Block.cell]
  change (if ramStart + word16At r.header 0x14 ≤ i then _ else _) = _
  split
  · next h =>
      rw [MztRecord.memBlock, if_pos h, List.getD_eq_getElem?_getD]
      rfl
  · next h =>
      rw [MztRecord.memBlock, if_neg h]
      rfl

/-- Records lie over memory in their order. -/
theorem storeAll_loaded (records : List MztRecord) (m : Machine) :
    storeAll (records.map MztRecord.loaded) m =
      (records.map MztRecord.memBlock).foldl Overlay.place m.mem := by
  induction records generalizing m with
  | nil => rfl
  | cons r records ih =>
      rw [List.map_cons, storeAll_cons, ih, mem_store_loaded]
      rfl

/-- The byte that the last of the records to cover it has for an address of
the main RAM. -/
def lastByte (records : List MztRecord) (a : Nat) : Option UInt8 :=
  Overlay.topCell (records.map MztRecord.block) a

/-- A cell of RAM is covered by a record as its address is. -/
theorem cell_memBlock (r : MztRecord) (a : Nat) :
    r.memBlock.cell (ramStart + a) = r.block.cell a := by
  have hle : ramStart + word16At r.header 0x14 ≤ ramStart + a ↔ word16At r.header 0x14 ≤ a :=
    Nat.add_le_add_iff_left
  have hsub : ramStart + a - (ramStart + word16At r.header 0x14) = a - word16At r.header 0x14 :=
    Nat.add_sub_add_left ..
  exact if_congr hle (congrArg (fun i => r.body[i]?) hsub) rfl

/-- The record on top at a cell is the last one at its address. -/
theorem topCell_memBlock (records : List MztRecord) (a : Nat) :
    Overlay.topCell (records.map MztRecord.memBlock) (ramStart + a) = lastByte records a := by
  rw [lastByte]
  induction records with
  | nil => rfl
  | cons r records ih =>
      rw [List.map_cons, List.map_cons, Overlay.topCell_cons, Overlay.topCell_cons, ih,
        cell_memBlock]

/-! ## the machine after a load -/

/-- Machine code loads into memory and changes the registers. -/
theorem loadPlain_frame (mztFile : String) {rs : List LoadRecord} (hmode : ∀ r ∈ rs, r.mode = 1)
    (m : Machine) : ∃ mem r, loadPlain mztFile rs m = { m with mem := mem, r := r } := by
  induction rs generalizing m with
  | nil => exact ⟨m.mem, m.r, rfl⟩
  | cons r rs ih =>
      obtain ⟨mem, regs, h⟩ := ih (fun r' hr' => hmode r' (List.mem_cons_of_mem r hr'))
        (setStart r.addr (r.store m))
      rw [loadPlain, if_neg (not_not_intro (hmode r List.mem_cons_self)), h]
      exact ⟨mem, regs, rfl⟩

/-- The machine `m'` is `m` with the records loaded: a byte of the main RAM
is that of the last record that covers it, `PC` is the execution address of
the last record, and the rest is as before. -/
structure Loaded (records : List MztRecord) (hne : records ≠ []) (m m' : Machine) : Prop where
  ram : ∀ a < 0x10000, m'.mem (ramStart + a) = (lastByte records a).getD (m.mem (ramStart + a))
  regs : m'.r = { m.r with
    pc := Pair.ofD (word16At (records.getLast hne).header 0x16).toUInt32 }
  mem : ∀ i, ¬ (ramStart ≤ i ∧ i < ramStart + 0x10000) → m'.mem i = m.mem i
  frame : m' = { m with mem := m'.mem, r := m'.r }

/-- Every plain file of complete machine-code records that fit in the main
RAM, with less than a header behind them, is loaded record by record. -/
theorem setMztToMemory_loaded (startRegs : Nat → Z80Regs) (mztFile : String) (m : Machine)
    (records : List MztRecord) (hne : records ≠ []) (stray : List UInt8)
    (hmode : ∀ r ∈ records, r.header.getD 0 0 = 1)
    (hfits : ∀ r ∈ records, word16At r.header 0x14 + word16At r.header 0x12 ≤ 0x10000)
    (hstray : stray.length < 128)
    (hfile : m.files (mztPath mztFile) = some (mztBytes records stray)) :
    (setMztToMemory startRegs mztFile m).1 = true ∧
      Loaded records hne m (setMztToMemory startRegs mztFile m).2 := by
  have hplain : ¬ IsMz20 (mztBytes records stray) := by
    obtain ⟨r, records, rfl⟩ := List.exists_cons_of_ne_nil hne
    refine not_isMz20_of_mode ?_
    rw [getD_mztBytes, hmode r List.mem_cons_self]
  have hmode' : ∀ r ∈ records.map MztRecord.loaded, r.mode = 1 := by
    intro r hr
    obtain ⟨r', hr', rfl⟩ := List.mem_map.mp hr
    exact hmode r' hr'
  have hload : (setMztToMemory startRegs mztFile m).2 =
      loadPlain mztFile (records.map MztRecord.loaded) m := by
    rw [setMztToMemory_eq startRegs hfile, if_neg hplain, plainRecords_mztBytes records hstray]
  have hmem : (setMztToMemory startRegs mztFile m).2.mem =
      (records.map MztRecord.memBlock).foldl Overlay.place m.mem := by
    rw [hload, mem_loadPlain, List.takeWhile_eq_self_iff.mpr fun r hr => decide_eq_true (hmode' r hr),
      storeAll_loaded]
  refine ⟨?_, fun a _ => ?_, ?_, fun i hi => ?_, ?_⟩
  · rw [setMztToMemory, hfile]
    change (if IsMz20 (mztBytes records stray) then _ else _ : Bool × Machine).1 = true
    rw [if_neg hplain]
  · rw [hmem, Overlay.foldl_place, topCell_memBlock]
  · rw [hload, r_loadPlain mztFile (by simpa using hne) hmode', List.getLast_map]
    rfl
  · rw [hmem, Overlay.foldl_place, Overlay.topCell_eq_none]
    · rfl
    · intro b hb
      obtain ⟨r, hr, rfl⟩ := List.mem_map.mp hb
      have hend := hfits r hr
      rw [Overlay.Block.cell_eq_none_iff]
      change ¬ (ramStart + word16At r.header 0x14 ≤ i ∧
        i < ramStart + word16At r.header 0x14 + r.body.length)
      rw [r.length_body]
      omega
  · obtain ⟨mem, regs, hframe⟩ := loadPlain_frame mztFile hmode' m
    rw [hload, hframe]

/-! ### two records -/

/-- A record of two bytes at `1200`, and one of a byte at `1201` behind it. -/
def overlappingRecords : List MztRecord :=
  [{ header := (0x01 : UInt8) :: List.replicate 17 0x00 ++ [(0x02 : UInt8), 0x00, 0x00, 0x12, 0x00, 0x12] ++
      List.replicate 104 0x00
     body := [0x3E, 0x00]
     length_header := rfl
     length_body := by decide },
   { header := (0x01 : UInt8) :: List.replicate 17 0x00 ++ [(0x01 : UInt8), 0x00, 0x01, 0x12, 0x00, 0x12] ++
      List.replicate 104 0x00
     body := [0x2A]
     length_header := rfl
     length_body := by decide }]

/-- The second record wins at `1201`. -/
example : lastByte overlappingRecords 0x1200 = some 0x3E ∧
    lastByte overlappingRecords 0x1201 = some 0x2A ∧ lastByte overlappingRecords 0x1202 = none := by
  decide

/-- A machine with this file, and a stray byte at its end. -/
def overlappingMachine : Machine :=
  { Machine.cold with files := fun _ => some (mztBytes overlappingRecords [0x1A]) }

/-- Two records that overlap, with a stray byte behind them. -/
theorem setMztToMemory_overlapping :
    (setMztToMemory (fun _ => Z80Regs.zero) "A.MZT" overlappingMachine).1 = true ∧
      Loaded overlappingRecords (by simp [overlappingRecords]) overlappingMachine
        (setMztToMemory (fun _ => Z80Regs.zero) "A.MZT" overlappingMachine).2 :=
  setMztToMemory_loaded (fun _ => Z80Regs.zero) "A.MZT" overlappingMachine overlappingRecords
    (by simp [overlappingRecords]) [0x1A] (by decide) (by decide) (by decide) rfl

end M5Z80
