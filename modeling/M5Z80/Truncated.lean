import M5Z80.Bounds
import M5Z80.Containers

/-!
# M5Z80.Truncated

Files that end before a record does.  The size field of a header promises
a body; `set_mztData` reads it to its end without looking for the end of the
file, and `setMztToMemory` does not read it, but starts the program at its
execution address all the same.
-/

namespace M5Z80

/-! ## complete records -/

namespace LoadRecord

/-- The loader has found all of the body. -/
def Complete (r : LoadRecord) : Prop := r.body.length = r.size

instance (r : LoadRecord) : Decidable r.Complete := inferInstanceAs (Decidable (_ = _))

/-- A body that is read when `p` holds is complete exactly then. -/
theorem complete_ite (header rest : List UInt8) {p : Prop} [Decidable p]
    (hlong : p → word16At header 0x12 ≤ rest.length) (hempty : word16At header 0x12 = 0 → p) :
    Complete ⟨header, if p then rest.take (word16At header 0x12) else []⟩ ↔ p := by
  rw [Complete, size]
  by_cases h : p
  · rw [if_pos h]
    exact iff_of_true (List.length_take_of_le (hlong h)) h
  · rw [if_neg h]
    exact iff_of_false (fun hzero => h (hempty hzero.symm)) h

end LoadRecord

/-! ## indices into the table of patterns -/

theorem inBounds_writeUINT32 (data : UInt32) (m : Machine) :
    (writeUINT32 data m).InBounds ↔ m.InBounds := by
  have hpush (bs : List UInt8) (m : Machine) : (bs.foldl pushSaveBuf m).trace = m.trace := by
    induction bs generalizing m with
    | nil => rfl
    | cons b bs ih => exact (ih (pushSaveBuf m b)).trans rfl
  refine inBounds_congr ?_
  rw [← hpush (uint32Bytes data) m]
  unfold writeUINT32 flushTapeBuf
  dsimp only
  split
  · split <;> rfl
  · rfl

/-- A word goes to the buffer, and to no table. -/
theorem inBounds_putWord (data : UInt32) (s : Int × Machine) :
    (putWord data s).2.InBounds ↔ s.2.InBounds :=
  inBounds_writeUINT32 data s.2

theorem inBounds_putLeader (leader : Nat → UInt32) (n : Nat) (s : Int × Machine) :
    (putLeader leader n s).2.InBounds ↔ s.2.InBounds := by
  rw [putLeader]
  induction List.range n generalizing s with
  | nil => rfl
  | cons i l ih => exact (ih _).trans (inBounds_putWord (leader i) s)

/-- A byte is looked up in the table at its own value, which may be -1. -/
theorem inBounds_putByte (s : UInt32 × Int × Machine) (bb : Int) :
    (putByte s bb).2.2.InBounds ↔ s.2.2.InBounds ∧ 0 ≤ bb ∧ bb < 256 :=
  (inBounds_putWord _ _).trans (inBounds_use .pwmTable bb s.2.2)

/-- By induction on the bytes. -/
theorem inBounds_foldl_putByte (bytes : List Int) (s : UInt32 × Int × Machine) :
    (bytes.foldl putByte s).2.2.InBounds ↔ s.2.2.InBounds ∧ ∀ bb ∈ bytes, 0 ≤ bb ∧ bb < 256 := by
  induction bytes generalizing s with
  | nil => simp
  | cons bb bytes ih =>
      rw [List.foldl_cons, ih, inBounds_putByte, List.forall_mem_cons, and_assoc]

/-- The indices of a block are its bytes, and two bytes of a checksum. -/
theorem inBounds_putBlock (bytes : List Int) (s : Int × Machine) :
    (putBlock bytes s).2.InBounds ↔ s.2.InBounds ∧ ∀ bb ∈ bytes, 0 ≤ bb ∧ bb < 256 := by
  obtain ⟨sum, s', hs⟩ : ∃ sum s', bytes.foldl putByte (0, s) = (sum, s') := ⟨_, _, rfl⟩
  have hbytes := inBounds_foldl_putByte bytes (0, s)
  have hbyte (x : UInt32) : (0 : Int) ≤ (x &&& 0xff).toNat ∧ ((x &&& 0xff).toNat : Int) < 256 := by
    have hle : (x &&& 0xff).toNat ≤ 255 := by
      rw [UInt32.toNat_and]
      exact Nat.and_le_right
    omega
  rw [hs] at hbytes
  rw [putBlock, hs]
  dsimp only
  rw [inBounds_putWord, inBounds_putByte, inBounds_putByte, and_iff_left (hbyte sum),
    and_iff_left (hbyte (sum >>> 8))]
  exact hbytes

/-- `fd.read()` returns bytes as long as the file has some. -/
theorem readInts_byte_iff (fd : List UInt8) (n : Nat) :
    (∀ bb ∈ readInts fd n, 0 ≤ bb ∧ bb < 256) ↔ n ≤ fd.length := by
  constructor
  · intro h
    by_contra hshort
    have hnone : fd[fd.length]? = none := List.getElem?_eq_none (Nat.le_refl _)
    have hmem : (-1 : Int) ∈ readInts fd n := by
      refine List.mem_map.mpr ⟨fd.length, List.mem_range.mpr (by omega), ?_⟩
      rw [hnone]
    exact absurd (h _ hmem).1 (by decide)
  · intro h bb hbb
    obtain ⟨i, hi, rfl⟩ := List.mem_map.mp hbb
    have hlt : i < fd.length := Nat.lt_of_lt_of_le (List.mem_range.mp hi) h
    have hbyte := fd[i].toNat_lt
    rw [List.getElem?_eq_getElem hlt]
    dsimp only
    omega

/-- By recursion over the file: every byte that is there is looked up inside the table. -/
theorem inBounds_mztRecords (fd : List UInt8) (s : Int × Machine) :
    (mztRecords fd s).2.InBounds ↔ s.2.InBounds ∧ ∀ r ∈ plainRecords fd, r.Complete := by
  induction fd, s using mztRecords.induct with
  | case1 fd s tmpBuf hshort =>
      have hfd : fd.length < 128 := by
        rw [List.length_take] at hshort
        omega
      rw [mztRecords, dif_pos hshort, inBounds_putLeader, plainRecords, dif_pos hfd]
      simp
  | case2 fd s leader tmpBuf hlong header bsize leader' body ih =>
      have hfd : ¬ fd.length < 128 := by
        rw [List.length_take] at hlong
        omega
      have hheader : 128 ≤ tmpBuf.length := Nat.le_of_not_lt hlong
      have hbody : body.2.InBounds ↔ s.2.InBounds ∧ bsize ≤ (fd.drop 128).length := by
        simp only [body, leader', header, leader, inBounds_putBlock, inBounds_putLeader,
          readInts_byte_iff, and_iff_left hheader]
      have hfirst := LoadRecord.complete_ite tmpBuf (fd.drop 128) (p := bsize ≤ (fd.drop 128).length)
        id (fun hzero => (Nat.le_of_eq hzero).trans (Nat.zero_le _))
      rw [mztRecords, dif_neg hlong, plainRecords, dif_neg hfd, List.forall_mem_cons]
      refine ih.trans ?_
      rw [hbody, and_assoc]
      exact and_congr_right fun _ => and_congr_left' hfirst.symm

/-- A mount looks up the bytes of all records. -/
theorem inBounds_setMztData {mztFile : String} {m : Machine} {fd : List UInt8}
    (h : m.files (mztPath mztFile) = some fd) :
    (setMztData mztFile m).2.InBounds ↔
      (openTmpTapeData m).InBounds ∧ ∀ r ∈ plainRecords fd, r.Complete := by
  have hflush (m : Machine) : (flushTapeBuf m).trace = m.trace := by
    unfold flushTapeBuf
    split <;> rfl
  rw [setMztData_some h, inBounds_congr (hflush _)]
  exact inBounds_mztRecords fd (0, openTmpTapeData m)

/-- Mounting a file looks up bytes only in the table of patterns exactly
when every record of the file is complete. -/
theorem mountInBounds_iff {mztFile : String} {m : Machine} {fd : List UInt8}
    (h : m.files (mztPath mztFile) = some fd) :
    (setMztData mztFile m.untraced).2.InBounds ↔ ∀ r ∈ plainRecords fd, r.Complete := by
  have hempty : (openTmpTapeData m.untraced).InBounds := by
    intro u hu
    cases hu
  have hfile : m.untraced.files (mztPath mztFile) = some fd := h
  rw [inBounds_setMztData hfile]
  exact and_iff_right hempty

/-! ## the record that is cut short -/

/-- Only the last record can be incomplete, and nothing of its body is read. -/
def CutShort (rs : List LoadRecord) : Prop :=
  ∀ pre r post, rs = pre ++ r :: post → ¬ r.Complete → post = [] ∧ r.body = []

/-- No records, none cut short. -/
theorem cutShort_nil : CutShort [] := by
  intro pre r post h
  simp at h

/-- Only the last record may be cut short. -/
theorem CutShort.cons {r : LoadRecord} {rs : List LoadRecord} (h : CutShort rs)
    (hr : ¬ r.Complete → rs = [] ∧ r.body = []) : CutShort (r :: rs) := by
  intro pre r' post heq hincomplete
  cases pre with
  | nil =>
      obtain ⟨rfl, rfl⟩ := List.cons.inj heq
      exact hr hincomplete
  | cons first pre => exact h pre r' post (List.cons.inj heq).2 hincomplete

/-- A plain file runs out in its last record only. -/
theorem cutShort_plainRecords (fd : List UInt8) : CutShort (plainRecords fd) := by
  induction fd using plainRecords.induct with
  | case1 fd h =>
      rw [plainRecords, dif_pos h]
      exact cutShort_nil
  | case2 fd h header rest size ih =>
      rw [plainRecords, dif_neg h]
      refine ih.cons fun hincomplete => ?_
      have hcut : ¬ size ≤ rest.length := fun hle =>
        hincomplete ((LoadRecord.complete_ite header rest id
          (fun hzero => (Nat.le_of_eq hzero).trans (Nat.zero_le _))).mpr hle)
      refine ⟨?_, if_neg hcut⟩
      rw [List.drop_eq_nil_of_le (by omega), plainRecords, dif_pos (by decide)]

/-- So does a container. -/
theorem cutShort_mz20Records (fd : List UInt8) : CutShort (mz20Records fd) := by
  induction fd using mz20Records.induct with
  | case1 fd h =>
      rw [mz20Records, dif_pos h]
      exact cutShort_nil
  | case2 fd h header rest size ih =>
      have hrest : 2 ≤ rest.length := by
        rw [List.length_drop]
        omega
      rw [mz20Records, dif_neg h]
      refine ih.cons fun hincomplete => ?_
      have hcut : ¬ size + 2 ≤ rest.length := fun hle =>
        hincomplete ((LoadRecord.complete_ite header rest (fun hle => by omega)
          (fun hzero => by omega)).mpr hle)
      refine ⟨?_, if_neg hcut⟩
      rw [List.drop_eq_nil_of_le (by omega), mz20Records, dif_pos (by decide)]

/-! ## loading it -/

/-- The records of a file, plain or in an `mz20` container. -/
def fileRecords (fd : List UInt8) : List LoadRecord :=
  if IsMz20 fd then mz20Records (fd.drop 8) else plainRecords fd

/-- Load the records `rs` as `setMztToMemory` loads those of the file `fd`. -/
def loadRecords (startRegs : Nat → Z80Regs) (mztFile : String) (fd : List UInt8)
    (rs : List LoadRecord) (m : Machine) : Machine :=
  if IsMz20 fd then loadContained startRegs 0 rs m else loadPlain mztFile rs m

/-- The loader goes through the records that it finds. -/
theorem setMztToMemory_records (startRegs : Nat → Z80Regs) {mztFile : String} {m : Machine}
    {fd : List UInt8} (h : m.files (mztPath mztFile) = some fd) :
    (setMztToMemory startRegs mztFile m).2 = loadRecords startRegs mztFile fd (fileRecords fd) m := by
  rw [setMztToMemory_eq startRegs h, loadRecords, fileRecords]
  split <;> rfl

/-- Of any file only the last record may be cut short. -/
theorem cutShort_fileRecords (fd : List UInt8) : CutShort (fileRecords fd) := by
  rw [fileRecords]
  split
  · exact cutShort_mz20Records _
  · exact cutShort_plainRecords fd

/-- No incomplete record of the file changes memory or the registers: the
load leaves them as the records before it do. -/
def IncompleteNotRun (startRegs : Nat → Z80Regs) (mztFile : String) (fd : List UInt8)
    (m : Machine) : Prop :=
  ∀ rs r rs', fileRecords fd = rs ++ r :: rs' → ¬ r.Complete →
    (setMztToMemory startRegs mztFile m).2.mem = (loadRecords startRegs mztFile fd rs m).mem ∧
      (setMztToMemory startRegs mztFile m).2.r = (loadRecords startRegs mztFile fd rs m).r

/-- The registers that the records `rs` of the file leave. -/
def leftRegs (startRegs : Nat → Z80Regs) (fd : List UInt8) (rs : List LoadRecord) (m : Machine) :
    Z80Regs :=
  match rs.getLast? with
  | none => m.r
  | some r => { (if IsMz20 fd then startRegs (rs.length - 1) else m.r) with
      pc := Pair.ofD r.addr.toUInt32 }

/-- What the record `r` behind `rs` copies to the registers is what the
records before it have left there.  In a plain file a record that is not
machine code, or comes behind one, copies nothing. -/
def CopiesSame (startRegs : Nat → Z80Regs) (fd : List UInt8) (rs : List LoadRecord)
    (r : LoadRecord) (m : Machine) : Prop :=
  (¬ IsMz20 fd → ∀ r' ∈ rs ++ [r], r'.mode = 1) →
    { (if IsMz20 fd then startRegs rs.length else leftRegs startRegs fd rs m) with
      pc := Pair.ofD r.addr.toUInt32 } = leftRegs startRegs fd rs m

/-- The last record of a container is loaded behind the others. -/
theorem loadContained_append (startRegs : Nat → Z80Regs) (k : Nat) (rs : List LoadRecord)
    (r : LoadRecord) (m : Machine) :
    loadContained startRegs k (rs ++ [r]) m =
      { r.store (loadContained startRegs k rs m) with
        r := { startRegs (k + rs.length) with pc := Pair.ofD r.addr.toUInt32 } } := by
  induction rs generalizing k m with
  | nil => rfl
  | cons r' rs ih =>
      have hlen : k + 1 + rs.length = k + (r' :: rs).length := by
        rw [List.length_cons]
        omega
      rw [List.cons_append, loadContained, ih, hlen]
      rfl

/-- Machine code is loaded record by record. -/
theorem loadPlain_append (mztFile : String) {rs : List LoadRecord} (hmode : ∀ r ∈ rs, r.mode = 1)
    (rs' : List LoadRecord) (m : Machine) :
    loadPlain mztFile (rs ++ rs') m = loadPlain mztFile rs' (loadPlain mztFile rs m) := by
  induction rs generalizing m with
  | nil => rfl
  | cons r rs ih =>
      have hr : ¬ r.mode ≠ 1 := not_not_intro (hmode r List.mem_cons_self)
      rw [List.cons_append, loadPlain, loadPlain, if_neg hr, if_neg hr,
        ih fun r' hr' => hmode r' (List.mem_cons_of_mem r hr')]

/-- Nothing behind a record that is not machine code is loaded. -/
theorem loadPlain_append_of_tape (mztFile : String) {rs : List LoadRecord}
    (hmode : ¬ ∀ r ∈ rs, r.mode = 1) (rs' : List LoadRecord) (m : Machine) :
    loadPlain mztFile (rs ++ rs') m = loadPlain mztFile rs m := by
  induction rs generalizing m with
  | nil => exact absurd (List.forall_mem_nil _) hmode
  | cons r rs ih =>
      rw [List.cons_append, loadPlain, loadPlain]
      by_cases hr : r.mode = 1
      · rw [if_neg (not_not_intro hr), if_neg (not_not_intro hr)]
        refine ih (fun hrs => hmode ?_) _
        exact List.forall_mem_cons.mpr ⟨hr, hrs⟩
      · rw [if_pos hr, if_pos hr]

/-- The registers that records leave, up to the first one that is not
machine code. -/
theorem r_loadRecords (startRegs : Nat → Z80Regs) (mztFile : String) {fd : List UInt8}
    {rs : List LoadRecord} (hmode : ¬ IsMz20 fd → ∀ r ∈ rs, r.mode = 1) (m : Machine) :
    (loadRecords startRegs mztFile fd rs m).r = leftRegs startRegs fd rs m := by
  rw [loadRecords, leftRegs]
  by_cases hne : rs = []
  · subst hne
    split <;> rfl
  · rw [List.getLast?_eq_some_getLast hne]
    dsimp only
    by_cases hmz20 : IsMz20 fd
    · rw [if_pos hmz20, if_pos hmz20, r_loadContained startRegs 0 hne, Nat.zero_add]
    · rw [if_neg hmz20, if_neg hmz20, r_loadPlain mztFile hne (hmode hmz20)]

/-- An incomplete record changes the registers exactly when it copies other
ones, and never changes memory. -/
theorem loadRecords_incomplete (startRegs : Nat → Z80Regs) (mztFile : String) (fd : List UInt8)
    (rs : List LoadRecord) {r : LoadRecord} (hbody : r.body = []) (m : Machine) :
    (loadRecords startRegs mztFile fd (rs ++ [r]) m).mem =
        (loadRecords startRegs mztFile fd rs m).mem ∧
      ((loadRecords startRegs mztFile fd (rs ++ [r]) m).r =
          (loadRecords startRegs mztFile fd rs m).r ↔ CopiesSame startRegs fd rs r m) := by
  have hstore (m : Machine) : r.store m = m := by rw [LoadRecord.store, hbody, readToRam_nil]
  by_cases hmz20 : IsMz20 fd
  · have hleft : (loadRecords startRegs mztFile fd rs m).r = leftRegs startRegs fd rs m :=
      r_loadRecords startRegs mztFile (fun h => absurd hmz20 h) m
    rw [hleft, loadRecords, loadRecords, if_pos hmz20, if_pos hmz20, loadContained_append, hstore,
      CopiesSame, if_pos hmz20, Nat.zero_add, forall_prop_of_true fun h => absurd hmz20 h]
    exact ⟨rfl, Iff.rfl⟩
  · by_cases hall : ∀ r' ∈ rs, r'.mode = 1
    · have hleft : (loadRecords startRegs mztFile fd rs m).r = leftRegs startRegs fd rs m :=
        r_loadRecords startRegs mztFile (fun _ => hall) m
      rw [hleft, CopiesSame, if_neg hmz20]
      rw [loadRecords, if_neg hmz20] at hleft
      rw [loadRecords, loadRecords, if_neg hmz20, if_neg hmz20, loadPlain_append mztFile hall,
        loadPlain]
      by_cases hr : r.mode = 1
      · have hcode : ¬ IsMz20 fd → ∀ r' ∈ rs ++ [r], r'.mode = 1 := fun _ =>
          List.forall_mem_append.mpr ⟨hall, List.forall_mem_singleton.mpr hr⟩
        rw [if_neg (not_not_intro hr), hstore, loadPlain, forall_prop_of_true hcode, ← hleft]
        exact ⟨rfl, Iff.rfl⟩
      · rw [if_pos hr, mem_startTape, r_startTape, hleft]
        refine ⟨rfl, iff_of_true rfl fun hcode => absurd ?_ hr⟩
        exact hcode hmz20 r (List.mem_append_right rs (List.mem_singleton_self r))
    · rw [loadRecords, loadRecords, if_neg hmz20, if_neg hmz20, loadPlain_append_of_tape mztFile hall]
      refine ⟨rfl, iff_of_true rfl fun hcode => absurd (fun r' hr' => ?_) hall⟩
      exact hcode hmz20 r' (List.mem_append_left [r] hr')

/-- The load leaves memory and the registers as the records before an
incomplete one do exactly when that copies what the registers hold. -/
theorem setMztToMemory_incomplete (startRegs : Nat → Z80Regs) {mztFile : String} {m : Machine}
    {fd : List UInt8} (h : m.files (mztPath mztFile) = some fd) {rs rs' : List LoadRecord}
    {r : LoadRecord} (hrecords : fileRecords fd = rs ++ r :: rs') (hincomplete : ¬ r.Complete) :
    (setMztToMemory startRegs mztFile m).2.mem = (loadRecords startRegs mztFile fd rs m).mem ∧
        (setMztToMemory startRegs mztFile m).2.r = (loadRecords startRegs mztFile fd rs m).r ↔
      CopiesSame startRegs fd rs r m := by
  obtain ⟨rfl, hbody⟩ := cutShort_fileRecords fd rs r rs' hrecords hincomplete
  obtain ⟨hmem, hregs⟩ := loadRecords_incomplete startRegs mztFile fd rs hbody m
  rw [setMztToMemory_records startRegs h, hrecords, hregs]
  exact and_iff_right hmem

/-- Incomplete records are not run exactly when each one finds, in the
variable it copies to the registers, what they hold already. -/
theorem incompleteNotRun_iff (startRegs : Nat → Z80Regs) {mztFile : String} {m : Machine}
    {fd : List UInt8} (h : m.files (mztPath mztFile) = some fd) :
    IncompleteNotRun startRegs mztFile fd m ↔
      ∀ rs r rs', fileRecords fd = rs ++ r :: rs' → ¬ r.Complete →
        CopiesSame startRegs fd rs r m :=
  forall_congr' fun _ => forall_congr' fun _ => forall_congr' fun _ =>
    forall_congr' fun hrecords => forall_congr' fun hincomplete =>
      setMztToMemory_incomplete startRegs h hrecords hincomplete

/-! ### a header that promises one byte -/

/-- The header of a machine-code record of one byte, for execution at
`1200`. -/
def codeHeader : List UInt8 :=
  (0x01 : UInt8) :: List.replicate 17 0x00 ++ [(0x01 : UInt8), 0x00, 0x00, 0x12, 0x00, 0x12] ++
    List.replicate 104 0x00

/-- A machine with a file of this header and the bytes behind it. -/
def codeMachine (body : List UInt8) : Machine :=
  { Machine.cold with files := fun _ => some (codeHeader ++ body) }

/-- The file is one record, complete with one byte of a body, and is no container. -/
theorem fileRecords_code {body : List UInt8} (h : body.length ≤ 1) :
    fileRecords (codeHeader ++ body) = [⟨codeHeader, body⟩] ∧
      plainRecords (codeHeader ++ body) = [⟨codeHeader, body⟩] ∧ ¬ IsMz20 (codeHeader ++ body) := by
  have hlen : codeHeader.length = 128 := rfl
  have hsize : word16At codeHeader 0x12 = 1 := by decide
  have hlong : ¬ (codeHeader ++ body).length < 128 := by
    rw [List.length_append, hlen]
    omega
  have hplain : ¬ IsMz20 (codeHeader ++ body) := by
    rw [IsMz20, List.take_append_of_le_length (by rw [hlen]; decide)]
    decide
  have hbody : (if 1 ≤ body.length then body.take 1 else []) = body := by
    split
    · exact List.take_of_length_le h
    · exact (List.length_eq_zero_iff.mp (by omega)).symm
  have hrecords : plainRecords (codeHeader ++ body) = [⟨codeHeader, body⟩] := by
    rw [plainRecords, dif_neg hlong]
    simp only [List.take_left' hlen, List.drop_left' hlen, hsize, hbody,
      List.drop_eq_nil_of_le h]
    rw [plainRecords, dif_pos (by decide)]
  refine ⟨?_, hrecords, hplain⟩
  rw [fileRecords, if_neg hplain, hrecords]

/-- With its byte the record is mounted inside the arrays. -/
theorem mountInBounds_code : (setMztData "A.MZT" (codeMachine [0xC9]).untraced).2.InBounds :=
  (mountInBounds_iff (m := codeMachine [0xC9]) rfl).mpr (by
    rw [(fileRecords_code (by decide)).2.1]
    decide)

/-- Without its byte the record looks up `-1`. -/
theorem not_mountInBounds : ¬ ∀ (mztFile : String) (m : Machine) (fd : List UInt8),
    m.files (mztPath mztFile) = some fd → (setMztData mztFile m.untraced).2.InBounds := by
  intro h
  have hbounds := h "A.MZT" (codeMachine []) (codeHeader ++ []) rfl
  have hfile : (codeMachine []).untraced.files (mztPath "A.MZT") = some (codeHeader ++ []) := rfl
  rw [inBounds_setMztData hfile, (fileRecords_code (by decide)).2.1] at hbounds
  exact absurd (hbounds.2 _ List.mem_cons_self) (by decide)

/-- The machine is at the execution address of the incomplete record already. -/
theorem incompleteNotRun_there :
    IncompleteNotRun (fun _ => Z80Regs.zero) "A.MZT" (codeHeader ++ [])
      { codeMachine [] with r.pc := ⟨0x1200, 0⟩ } :=
  (incompleteNotRun_iff (m := { codeMachine [] with r.pc := ⟨0x1200, 0⟩ }) _ rfl).mpr (by
    intro rs r rs' hrecords _
    obtain ⟨hcode, -, hplain⟩ := fileRecords_code (show ([] : List UInt8).length ≤ 1 by decide)
    rw [hcode, eq_comm, List.append_eq_singleton_iff] at hrecords
    obtain ⟨rfl, hr⟩ | ⟨-, hr⟩ := hrecords
    · obtain ⟨rfl, -⟩ := List.cons_eq_cons.mp hr
      intro _
      rw [if_neg hplain]
      rfl
    · cases hr)

/-- Without its byte the record is executed at `1200` all the same. -/
theorem not_incompleteNotRun : ¬ ∀ (startRegs : Nat → Z80Regs) (mztFile : String) (m : Machine)
    (fd : List UInt8), m.files (mztPath mztFile) = some fd →
      IncompleteNotRun startRegs mztFile fd m := by
  intro h
  have hnotRun := h (fun _ => Z80Regs.zero) "A.MZT" (codeMachine []) (codeHeader ++ []) rfl
  obtain ⟨hrecords, -, hplain⟩ := fileRecords_code (show ([] : List UInt8).length ≤ 1 by decide)
  have hincomplete : ¬ LoadRecord.Complete ⟨codeHeader, []⟩ := by decide
  have hcopies := (setMztToMemory_incomplete (m := codeMachine []) _ rfl hrecords hincomplete).mp
    (hnotRun [] ⟨codeHeader, []⟩ [] hrecords hincomplete)
  have hsame := hcopies (fun _ => by decide)
  rw [if_neg hplain] at hsame
  exact absurd (congrArg (·.pc.wl) hsame) (by decide)

end M5Z80
