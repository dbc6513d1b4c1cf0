import Mathlib.Data.List.GetD
import Mathlib.Data.List.TakeWhile
import M5Z80.Records
import M5Z80.TapeCodec

/-!
# M5Z80.Containers

The same program in a plain file and in an `mz20` container.  Both loops of
`setMztToMemory` put the same bytes into RAM and set the same program
counter; the loop for plain files keeps the other registers, and the loop
for containers takes them from a variable it never assigned.
-/

namespace M5Z80

/-! ## the two files -/

/-- A record of machine code whose body fits in RAM, and the checksum bytes
that a container puts after its header and its body. -/
structure CodeRecord extends MztRecord where
  mode : header.getD 0 0 = 1
  fits : word16At header 0x14 + body.length ≤ 0x10000
  headerSum : List UInt8
  bodySum : List UInt8
  length_headerSum : headerSum.length = 2
  length_bodySum : bodySum.length = 2

/-- What the loader finds of a record. -/
def CodeRecord.loaded (r : CodeRecord) : LoadRecord := ⟨r.header, r.body⟩

/-- The records in a plain file. -/
def plainFile (rs : List CodeRecord) : List UInt8 := mztBytes (rs.map (·.toMztRecord)) []

/-- The signature of an `mz20` file. -/
structure Signature where
  bytes : List UInt8
  length_bytes : bytes.length = 8
  isMz20 : IsMz20 bytes

/-- A record in an `mz20` file. -/
def CodeRecord.contained (r : CodeRecord) : List UInt8 :=
  r.header ++ r.headerSum ++ (r.body ++ r.bodySum)

/-- The records in an `mz20` file. -/
def mz20File (sig : Signature) (rs : List CodeRecord) : List UInt8 :=
  sig.bytes ++ rs.flatMap CodeRecord.contained

/-! ## parsing -/

/-- What the loader finds of a record. -/
def MztRecord.loaded (r : MztRecord) : LoadRecord := ⟨r.header, r.body⟩

/-- What the loader finds in a plain file are its records, if too little for another header
is left. -/
theorem plainRecords_mztBytes (records : List MztRecord) {stray : List UInt8}
    (h : stray.length < 128) :
    plainRecords (mztBytes records stray) = records.map MztRecord.loaded := by
  induction records with
  | nil =>
      rw [show mztBytes [] stray = stray from rfl, plainRecords, dif_pos h]
      rfl
  | cons r rs ih =>
      let rest := mztBytes rs stray
      have hlong : ¬ (r.header ++ (r.body ++ rest)).length < 128 := by
        rw [List.length_append, r.length_header]
        omega
      have hsize : word16At r.header 0x12 ≤ (r.body ++ rest).length := by
        rw [← r.length_body, List.length_append]
        omega
      rw [mztBytes_cons, plainRecords, dif_neg hlong]
      simp only [List.take_left' r.length_header, List.drop_left' r.length_header]
      rw [if_pos hsize, List.take_left' r.length_body, List.drop_left' r.length_body, ih]
      rfl

/-- What it finds in the plain file of a program. -/
theorem plainRecords_plainFile (rs : List CodeRecord) :
    plainRecords (plainFile rs) = rs.map CodeRecord.loaded := by
  rw [plainFile, plainRecords_mztBytes _ (by decide), List.map_map]
  rfl

/-- In a container every record is found behind its checksums. -/
theorem mz20Records_contained (rs : List CodeRecord) :
    mz20Records (rs.flatMap CodeRecord.contained) = rs.map CodeRecord.loaded := by
  induction rs with
  | nil => rw [mz20Records]; rfl
  | cons r rs ih =>
      let rest := rs.flatMap CodeRecord.contained
      have hhead : (r.header ++ r.headerSum).length = 128 + 2 := by
        rw [List.length_append, r.length_header, r.length_headerSum]
      have hbody : (r.body ++ r.bodySum).length = word16At r.header 0x12 + 2 := by
        rw [List.length_append, r.length_body, r.length_bodySum]
      have hfile : (r :: rs).flatMap CodeRecord.contained =
          r.header ++ r.headerSum ++ (r.body ++ r.bodySum ++ rest) := by
        rw [List.flatMap_cons, CodeRecord.contained, List.append_assoc]
      have hlong : ¬ (r.header ++ r.headerSum ++ (r.body ++ r.bodySum ++ rest)).length < 128 + 2 + 2 := by
        rw [List.length_append, hhead, List.length_append, hbody]
        omega
      have hsize : word16At r.header 0x12 + 2 ≤ (r.body ++ r.bodySum ++ rest).length := by
        rw [List.length_append, hbody]
        omega
      have hheader : (r.header ++ r.headerSum ++ (r.body ++ r.bodySum ++ rest)).take 128 =
          r.header := by
        rw [List.append_assoc, List.take_left' r.length_header]
      rw [hfile, mz20Records, dif_neg hlong]
      simp only [hheader, List.drop_left' hhead]
      rw [if_pos hsize, List.drop_left' hbody, ih, List.append_assoc, List.take_left' r.length_body]
      rfl

/-- A file that starts with a machine-code record has no signature. -/
theorem not_isMz20_of_mode {fd : List UInt8} (h : fd.getD 0 0 = 1) : ¬ IsMz20 fd := by
  intro hmz20
  cases fd with
  | nil => exact absurd h (by decide)
  | cons b bs =>
      rw [List.getD_cons_zero] at h
      rw [IsMz20, h] at hmz20
      exact absurd (List.head_eq_of_cons_eq hmz20) (by decide)

/-- The first byte of a file is the mode of its first record. -/
theorem getD_mztBytes (r : MztRecord) (records : List MztRecord) (stray : List UInt8) :
    (mztBytes (r :: records) stray).getD 0 0 = r.header.getD 0 0 := by
  rw [mztBytes_cons, List.getD_append]
  rw [r.length_header]
  decide

/-- A plain file begins with a mode, not with the letters of a container. -/
theorem not_isMz20_plainFile {rs : List CodeRecord} (h : rs ≠ []) : ¬ IsMz20 (plainFile rs) := by
  obtain ⟨r, rs, rfl⟩ := List.exists_cons_of_ne_nil h
  refine not_isMz20_of_mode ?_
  rw [plainFile, List.map_cons, getD_mztBytes, r.mode]

theorem isMz20_mz20File (sig : Signature) (rs : List CodeRecord) : IsMz20 (mz20File sig rs) := by
  have hlen : 4 ≤ sig.bytes.length := by
    rw [sig.length_bytes]
    decide
  rw [IsMz20, mz20File, List.take_append_of_le_length hlen]
  exact sig.isMz20

/-- The records of a plain file that go to memory are all of them. -/
theorem storedRecords_plainFile {rs : List CodeRecord} (hne : rs ≠ []) :
    storedRecords (plainFile rs) = rs.map CodeRecord.loaded := by
  have hmode : ∀ r ∈ rs.map CodeRecord.loaded, decide (r.mode = 1) = true := by
    intro r hr
    obtain ⟨r', -, rfl⟩ := List.mem_map.mp hr
    exact decide_eq_true r'.mode
  rw [storedRecords, if_neg (not_isMz20_plainFile hne), plainRecords_plainFile,
    List.takeWhile_eq_self_iff.mpr hmode]

/-- So are those of a container. -/
theorem storedRecords_mz20File (sig : Signature) (rs : List CodeRecord) :
    storedRecords (mz20File sig rs) = rs.map CodeRecord.loaded := by
  rw [storedRecords, if_pos (isMz20_mz20File sig rs), mz20File, List.drop_left' sig.length_bytes,
    mz20Records_contained]

/-! ## registers -/

/-- A plain file leaves the registers as they were, and `PC` at its last record. -/
theorem r_loadPlain (mztFile : String) {rs : List LoadRecord} (hne : rs ≠ [])
    (hmode : ∀ r ∈ rs, r.mode = 1) (m : Machine) :
    (loadPlain mztFile rs m).r = { m.r with pc := Pair.ofD (rs.getLast hne).addr.toUInt32 } := by
  induction rs generalizing m with
  | nil => exact absurd rfl hne
  | cons r rs ih =>
      rw [loadPlain, if_neg (not_not_intro (hmode r List.mem_cons_self))]
      by_cases hrest : rs = []
      · subst hrest
        rfl
      · rw [ih hrest (fun r' hr' => hmode r' (List.mem_cons_of_mem r hr')), List.getLast_cons hrest]
        rfl

/-- A container leaves the registers of the variable that its last record found. -/
theorem r_loadContained (startRegs : Nat → Z80Regs) (k : Nat) {rs : List LoadRecord}
    (hne : rs ≠ []) (m : Machine) :
    (loadContained startRegs k rs m).r =
      { startRegs (k + (rs.length - 1)) with pc := Pair.ofD (rs.getLast hne).addr.toUInt32 } := by
  induction rs generalizing k m with
  | nil => exact absurd rfl hne
  | cons r rs ih =>
      rw [loadContained]
      by_cases hrest : rs = []
      · subst hrest
        rfl
      · have hlen : k + 1 + (rs.length - 1) = k + ((r :: rs).length - 1) := by
          have := List.length_pos_iff.mpr hrest
          rw [List.length_cons]
          omega
        rw [ih (k + 1) hrest, List.getLast_cons hrest, hlen]

/-- The registers after a container: `PC` is that of the last record, and
the others are what its variable held. -/
theorem r_mz20File (startRegs : Nat → Z80Regs) {m : Machine} {rs : List CodeRecord}
    {sig : Signature} {contained : String} (hne : rs.map CodeRecord.loaded ≠ [])
    (h : m.files (mztPath contained) = some (mz20File sig rs)) :
    (setMztToMemory startRegs contained m).2.r = { startRegs (rs.length - 1) with
      pc := Pair.ofD ((rs.map CodeRecord.loaded).getLast hne).addr.toUInt32 } := by
  rw [setMztToMemory_eq startRegs h, if_pos (isMz20_mz20File sig rs), mz20File,
    List.drop_left' sig.length_bytes, mz20Records_contained, r_loadContained startRegs 0 hne,
    List.length_map, Nat.zero_add]

/-! ## the same program -/

/-- From the machine `m`, two loads have given the same RAM and the same
registers, and neither has changed a register other than `PC`. -/
structure SameLoad (m p q : Machine) : Prop where
  ram : ∀ a < 0x10000, p.mem (ramStart + a) = q.mem (ramStart + a)
  regs : p.r = q.r
  plain : { p.r with pc := m.r.pc } = m.r
  contained : { q.r with pc := m.r.pc } = m.r

/-- A program is the same in both containers, as far as memory goes. -/
theorem mem_containers (startRegs : Nat → Z80Regs) (m : Machine) (rs : List CodeRecord)
    (sig : Signature) {plain contained : String} (hne : rs ≠ [])
    (hplain : m.files (mztPath plain) = some (plainFile rs))
    (hcontained : m.files (mztPath contained) = some (mz20File sig rs)) :
    (setMztToMemory startRegs plain m).2.mem = (setMztToMemory startRegs contained m).2.mem := by
  rw [mem_setMztToMemory startRegs hplain, mem_setMztToMemory startRegs hcontained,
    storedRecords_plainFile hne, storedRecords_mz20File]

/-- Both files give the same RAM and registers, and keep the registers but
`PC`, exactly when the variable that the last record of the container finds
holds these registers. -/
theorem containers_iff (startRegs : Nat → Z80Regs) (m : Machine) (rs : List CodeRecord)
    (sig : Signature) {plain contained : String} (hne : rs ≠ [])
    (hplain : m.files (mztPath plain) = some (plainFile rs))
    (hcontained : m.files (mztPath contained) = some (mz20File sig rs)) :
    SameLoad m (setMztToMemory startRegs plain m).2 (setMztToMemory startRegs contained m).2 ↔
      { startRegs (rs.length - 1) with pc := m.r.pc } = m.r := by
  have hne' : rs.map CodeRecord.loaded ≠ [] := by simpa using hne
  have hmem := mem_containers startRegs m rs sig hne hplain hcontained
  let pc := Pair.ofD ((rs.map CodeRecord.loaded).getLast hne').addr.toUInt32
  have hr : (setMztToMemory startRegs plain m).2.r = { m.r with pc := pc } := by
    rw [setMztToMemory_eq startRegs hplain, if_neg (not_isMz20_plainFile hne),
      plainRecords_plainFile]
    refine r_loadPlain plain hne' (fun r hr => ?_) m
    obtain ⟨r', -, rfl⟩ := List.mem_map.mp hr
    exact r'.mode
  have hr' : (setMztToMemory startRegs contained m).2.r =
      { startRegs (rs.length - 1) with pc := pc } := r_mz20File startRegs hne' hcontained
  constructor
  · intro h
    have hcontained := h.contained
    rwa [hr'] at hcontained
  · intro h
    refine ⟨fun a _ => by rw [hmem], ?_, by rw [hr], by rw [hr']; exact h⟩
    calc (setMztToMemory startRegs plain m).2.r
        = { m.r with pc := pc } := hr
      _ = { ({ startRegs (rs.length - 1) with pc := m.r.pc } : Z80Regs) with pc := pc } := by rw [h]
      _ = (setMztToMemory startRegs contained m).2.r := hr'.symm

/-! ### one record, and two -/

/-- A record without a body, for execution at `1200`. -/
def bareRecord : CodeRecord where
  header := (0x01 : UInt8) :: List.replicate 21 0x00 ++ [(0x00 : UInt8), 0x12] ++ List.replicate 104 0x00
  body := []
  length_header := rfl
  length_body := by decide
  mode := by decide
  fits := by decide
  headerSum := [0, 0]
  bodySum := [0, 0]
  length_headerSum := rfl
  length_bodySum := rfl

/-- A signature. -/
def signature : Signature where
  bytes := ['m', 'z', '2', '0', ' ', ' ', ' ', ' '].map (·.toNat.toUInt8)
  length_bytes := rfl
  isMz20 := by rw [IsMz20]; rfl

/-- A machine with the record in both containers. -/
def containersMachine : Machine :=
  { Machine.cold with
    files := fun path =>
      if path = mztPath "A.MZT" then some (plainFile [bareRecord])
      else some (mz20File signature [bareRecord]) }

/-- Two bytes for `2000`, executed there. -/
def firstRecord : CodeRecord where
  header := (0x01 : UInt8) :: List.replicate 17 0x00 ++
    [(0x02 : UInt8), 0x00, 0x00, 0x20, 0x00, 0x20] ++ List.replicate 104 0x00
  body := [0x3E, 0x41]
  length_header := rfl
  length_body := by decide
  mode := by decide
  fits := by decide
  headerSum := [0x05, 0x00]
  bodySum := [0x07, 0x00]
  length_headerSum := rfl
  length_bodySum := rfl

/-- Another byte, for `1300`. -/
def secondRecord : CodeRecord where
  header := (0x01 : UInt8) :: List.replicate 17 0x00 ++
    [(0x01 : UInt8), 0x00, 0x00, 0x13, 0x00, 0x13] ++ List.replicate 104 0x00
  body := [0xC9]
  length_header := rfl
  length_body := by decide
  mode := by decide
  fits := by decide
  headerSum := [0x08, 0x00]
  bodySum := [0x04, 0x00]
  length_headerSum := rfl
  length_bodySum := rfl

/-- Registers in use. -/
def usedRegs : Z80Regs :=
  { Z80Regs.zero with sp := ⟨0xF000, 0⟩, hl := ⟨0x1234, 0⟩, bc := ⟨0x0056, 0⟩ }

/-- A machine with both records in both containers. -/
def twoRecords : Machine :=
  { Machine.cold with
    r := { usedRegs with pc := ⟨0x4141, 0⟩ }
    files := fun path =>
      if path = mztPath "A.MZT" then some (plainFile [firstRecord, secondRecord])
      else some (mz20File signature [firstRecord, secondRecord]) }

/-- The variable happens to hold the registers. -/
theorem containers_two :
    SameLoad twoRecords (setMztToMemory (fun _ => usedRegs) "A.MZT" twoRecords).2
      (setMztToMemory (fun _ => usedRegs) "B.MZT" twoRecords).2 :=
  (containers_iff (fun _ => usedRegs) twoRecords [firstRecord, secondRecord] signature (by simp) rfl
    rfl).mpr rfl

/-- A stack pointer of `F000` in the variable gets into the registers. -/
theorem not_containers : ¬ ∀ (startRegs : Nat → Z80Regs) (m : Machine) (rs : List CodeRecord)
    (sig : Signature) (plain contained : String), rs ≠ [] →
    m.files (mztPath plain) = some (plainFile rs) →
    m.files (mztPath contained) = some (mz20File sig rs) →
    SameLoad m (setMztToMemory startRegs plain m).2 (setMztToMemory startRegs contained m).2 := by
  intro h
  let startRegs : Nat → Z80Regs := fun _ => { Z80Regs.zero with sp := ⟨0xF000, 0⟩ }
  have hsame := h startRegs containersMachine [bareRecord] signature "A.MZT" "B.MZT" (by simp) rfl rfl
  have hkept := hsame.contained
  rw [r_mz20File startRegs (by simp) rfl] at hkept
  exact absurd (congrArg (·.sp.wl) hkept) (by decide)

end M5Z80
