import M5Z80.Mounting
import M5Z80.Loader

/-!
# M5Z80.Records

An MZT file as a list of records.  The two loops of `setMztToMemory` parse
and load at once; here they are cut in two, the records that a file holds
and what loading a list of records does.
-/

namespace M5Z80

/-- A record as the loader finds it.  `body` is what it reads to RAM, which
is nothing when the file ends before the body does. -/
structure LoadRecord where
  header : List UInt8
  body : List UInt8
deriving DecidableEq

namespace LoadRecord

/-- `header[0]`. -/
def mode (r : LoadRecord) : UInt8 := r.header.getD 0 0

/-- `size`: the length of the body, by the header. -/
def size (r : LoadRecord) : Nat := word16At r.header 0x12

/-- `offs`: the load address. -/
def offs (r : LoadRecord) : Nat := word16At r.header 0x14

/-- `addr`: the execution address. -/
def addr (r : LoadRecord) : Nat := word16At r.header 0x16

/-- The machine with the body in RAM. -/
def store (r : LoadRecord) (m : Machine) : Machine := readToRam r.offs r.body m

end LoadRecord

/-! ## the records of a file -/

/-- The records of a plain file. -/
def plainRecords (fd : List UInt8) : List LoadRecord :=
  if _h : fd.length < 128 then []
  else
    let header := fd.take 128
    let fd := fd.drop 128
    let size := word16At header 0x12
    ⟨header, if size ≤ fd.length then fd.take size else []⟩ :: plainRecords (fd.drop size)
termination_by fd.length
decreasing_by
  simp only [List.length_drop]
  omega

/-- The records of an `mz20` file, without the signature. -/
def mz20Records (fd : List UInt8) : List LoadRecord :=
  if _h : fd.length < 128 + 2 + 2 then []
  else
    let header := fd.take 128
    let fd := fd.drop (128 + 2)
    let size := word16At header 0x12
    ⟨header, if size + 2 ≤ fd.length then fd.take size else []⟩ :: mz20Records (fd.drop (size + 2))
termination_by fd.length
decreasing_by
  simp only [List.length_drop]
  omega

/-- The file is in an `mz20` container. -/
def IsMz20 (fd : List UInt8) : Prop := fd.take 4 = ['m', 'z', '2', '0'].map (·.toNat.toUInt8)

instance (fd : List UInt8) : Decidable (IsMz20 fd) := inferInstanceAs (Decidable (_ = _))

/-! ## loading records -/

/-- Load the records of a plain file. -/
def loadPlain (mztFile : String) : List LoadRecord → Machine → Machine
  | [], m => m
  | r :: rs, m =>
      if r.mode ≠ 1 then startTape mztFile m
      else loadPlain mztFile rs (setStart r.addr (r.store m))

/-- Load the records of an `mz20` file, the first of which is the `k`-th. -/
def loadContained (startRegs : Nat → Z80Regs) : Nat → List LoadRecord → Machine → Machine
  | _, [], m => m
  | k, r :: rs, m =>
      loadContained startRegs (k + 1) rs
        { r.store m with r := { startRegs k with pc := Pair.ofD r.addr.toUInt32 } }

/-- No bytes, no change. -/
theorem readToRam_nil (offs : Nat) (m : Machine) : readToRam offs [] m = m := by
  simp only [readToRam, List.getD_nil, ite_self]

/-- The body of a record is read when all of it is there. -/
theorem store_eq (header body : List UInt8) (p : Prop) [Decidable p] (m : Machine) :
    LoadRecord.store ⟨header, if p then body else []⟩ m =
      if p then readToRam (word16At header 0x14) body m else m := by
  rw [LoadRecord.store]
  split
  · rfl
  · exact readToRam_nil _ m

/-- The loop over a plain file loads the records that are found in it. -/
theorem loadMzt_eq (mztFile : String) (fd : List UInt8) (m : Machine) :
    loadMzt mztFile fd m = loadPlain mztFile (plainRecords fd) m := by
  induction fd, m using loadMzt.induct with
  | case1 fd m h =>
      rw [loadMzt_of_short h, plainRecords, dif_pos h, loadPlain]
  | case2 fd m h header hmode =>
      have hrecord (body : List UInt8) : LoadRecord.mode ⟨header, body⟩ ≠ 1 := hmode
      rw [plainRecords, dif_neg h, loadPlain, if_pos (hrecord _), loadMzt, dif_neg h]
      exact if_pos hmode
  | case3 fd m h header rest hmode size offs addr loaded ih =>
      have hrecord (body : List UInt8) : ¬ LoadRecord.mode ⟨header, body⟩ ≠ 1 := hmode
      rw [plainRecords, dif_neg h, loadPlain, if_neg (hrecord _), store_eq, loadMzt, dif_neg h]
      dsimp only
      rw [if_neg hmode]
      exact ih

/-- The loop over a container loads the records that are found in it. -/
theorem loadMz20_eq (startRegs : Nat → Z80Regs) (k : Nat) (fd : List UInt8) (m : Machine) :
    loadMz20 startRegs k fd m = loadContained startRegs k (mz20Records fd) m := by
  induction k, fd, m using loadMz20.induct startRegs with
  | case1 k fd m h =>
      rw [loadMz20, dif_pos h, mz20Records, dif_pos h, loadContained]
  | case2 k fd m h header rest size offs addr loaded ih =>
      rw [loadMz20, dif_neg h, mz20Records, dif_neg h, loadContained, store_eq]
      exact ih

/-- `setMztToMemory`, by the records of the file. -/
theorem setMztToMemory_eq (startRegs : Nat → Z80Regs) {mztFile : String} {m : Machine}
    {fd : List UInt8} (h : m.files (mztPath mztFile) = some fd) :
    (setMztToMemory startRegs mztFile m).2 =
      if IsMz20 fd then loadContained startRegs 0 (mz20Records (fd.drop 8)) m
      else loadPlain mztFile (plainRecords fd) m := by
  rw [setMztToMemory, h]
  change (if IsMz20 fd then (true, loadMz20 startRegs 0 (fd.drop 8) m)
    else (true, loadMzt mztFile fd m)).2 = _
  rw [apply_ite Prod.snd, loadMz20_eq, loadMzt_eq]

/-! ## memory -/

/-- The records that a load reads to RAM: of a plain file, those before the
first one that is not machine code. -/
def storedRecords (fd : List UInt8) : List LoadRecord :=
  if IsMz20 fd then mz20Records (fd.drop 8) else (plainRecords fd).takeWhile (·.mode = 1)

/-- Memory after reading the bodies of records to RAM. -/
def storeAll (rs : List LoadRecord) (m : Machine) : Nat → UInt8 :=
  (rs.foldl (fun m r => r.store m) m).mem

/-- The first record is stored first, so that the last is on top. -/
theorem storeAll_cons (r : LoadRecord) (rs : List LoadRecord) (m : Machine) :
    storeAll (r :: rs) m = storeAll rs (r.store m) := rfl

/-- Bodies depend on memory only. -/
theorem storeAll_congr (rs : List LoadRecord) {m m' : Machine} (h : m'.mem = m.mem) :
    storeAll rs m' = storeAll rs m := by
  induction rs generalizing m m' with
  | nil => exact h
  | cons r rs ih =>
      rw [storeAll_cons, storeAll_cons]
      refine ih ?_
      simp only [LoadRecord.store, readToRam, h]

/-- Every record of a container is stored. -/
theorem mem_loadContained (startRegs : Nat → Z80Regs) (k : Nat) (rs : List LoadRecord)
    (m : Machine) : (loadContained startRegs k rs m).mem = storeAll rs m := by
  induction rs generalizing k m with
  | nil => rfl
  | cons r rs ih =>
      rw [loadContained, ih, storeAll_cons]
      exact storeAll_congr rs rfl

/-- The records of a plain file are stored up to the first that is no machine code. -/
theorem mem_loadPlain (mztFile : String) (rs : List LoadRecord) (m : Machine) :
    (loadPlain mztFile rs m).mem = storeAll (rs.takeWhile (·.mode = 1)) m := by
  induction rs generalizing m with
  | nil => rfl
  | cons r rs ih =>
      rw [loadPlain]
      by_cases hmode : r.mode = 1
      · rw [if_neg (not_not_intro hmode), List.takeWhile_cons_of_pos (by simpa using hmode), ih,
          storeAll_cons]
        exact storeAll_congr _ rfl
      · rw [if_pos hmode, List.takeWhile_cons_of_neg (by simpa using hmode), mem_startTape]
        rfl

/-- Memory after a load. -/
theorem mem_setMztToMemory (startRegs : Nat → Z80Regs) {mztFile : String} {m : Machine}
    {fd : List UInt8} (h : m.files (mztPath mztFile) = some fd) :
    (setMztToMemory startRegs mztFile m).2.mem = storeAll (storedRecords fd) m := by
  rw [setMztToMemory_eq startRegs h, storedRecords]
  split
  · exact mem_loadContained startRegs 0 _ m
  · exact mem_loadPlain mztFile _ m

end M5Z80
