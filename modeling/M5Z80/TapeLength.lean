import M5Z80.Position
import M5Z80.Records

/-!
# M5Z80.TapeLength

How long a tape can be.  `cmt_read` keeps the time the tape has run in an
`int`, and a word of the tape takes 27 bits of signal, so the last words of
a file with many records are never reached: before them the time overflows.
-/

namespace M5Z80

/-! ## the words of a tape -/

/-- The number of words that `set_mztData` makes of a file: a leader, a
block and its checksum for the header and for the body of each record, and
the leader that it writes before it finds the end of the file. -/
def tapeLength (fd : List UInt8) : Nat :=
  ((plainRecords fd).map fun r => (450 + (128 + 3)) + (437 + (r.size + 3))).sum + 450

/-- A write for each element of a list counts it. -/
theorem count_foldl {α σ : Type} (count : σ → Int) {put : σ → α → σ}
    (hput : ∀ s a, count (put s a) = count s + 1) (l : List α) (s : σ) :
    count (l.foldl put s) = count s + l.length := by
  induction l generalizing s with
  | nil => exact (Int.add_zero _).symm
  | cons a l ih =>
      rw [List.foldl_cons, ih, hput, List.length_cons]
      omega

/-- A leader takes a word for each of its pulses. -/
theorem count_putLeader (leader : Nat → UInt32) (n : Nat) (s : Int × Machine) :
    (putLeader leader n s).1 = s.1 + n := by
  rw [putLeader, count_foldl Prod.fst (fun _ _ => rfl), List.length_range]

/-- A block takes a word for each byte, and three for its checksum and its mark. -/
theorem count_putBlock (bytes : List Int) (s : Int × Machine) :
    (putBlock bytes s).1 = s.1 + (bytes.length + 3) := by
  have hbytes : (bytes.foldl putByte (0, s)).2.1 = s.1 + bytes.length :=
    count_foldl (fun s : UInt32 × Int × Machine => s.2.1) (fun _ _ => rfl) bytes (0, s)
  calc (putBlock bytes s).1 = (bytes.foldl putByte (0, s)).2.1 + 1 + 1 + 1 := rfl
    _ = s.1 + (bytes.length + 3) := by rw [hbytes]; omega

theorem length_readInts (fd : List UInt8) (n : Nat) : (readInts fd n).length = n := by
  rw [readInts, List.length_map, List.length_range]

/-- By recursion over the file: the words written are those of its records. -/
theorem count_mztRecords (fd : List UInt8) (s : Int × Machine) :
    (mztRecords fd s).1 = s.1 + tapeLength fd := by
  induction fd, s using mztRecords.induct with
  | case1 fd s tmpBuf hshort =>
      have hfd : fd.length < 128 := by
        rw [List.length_take] at hshort
        omega
      rw [mztRecords, dif_pos hshort, count_putLeader, tapeLength, plainRecords, dif_pos hfd]
      rfl
  | case2 fd s leader tmpBuf hlong header bsize leader' body ih =>
      have hfd : ¬ fd.length < 128 := by
        rw [List.length_take] at hlong
        omega
      have hbody : body.1 = s.1 + ((450 + (128 + 3)) + (437 + (bsize + 3))) := by
        simp only [body, leader', header, leader, count_putBlock, count_putLeader, length_readInts]
        omega
      have hlen : tapeLength fd =
          ((450 + (128 + 3)) + (437 + (bsize + 3))) + tapeLength ((fd.drop 128).drop bsize) := by
        rw [tapeLength, plainRecords, dif_neg hfd, List.map_cons, List.sum_cons, Nat.add_assoc]
        rfl
      rw [mztRecords, dif_neg hlong]
      refine ih.trans ?_
      rw [hbody, hlen]
      omega

/-- The words of the tape in the deck. -/
theorem mztBsize_setMztData {mztFile : String} {m : Machine} {fd : List UInt8}
    (h : m.files (mztPath mztFile) = some fd) :
    (setMztData mztFile m).2.ts700.mztBsize = tapeLength fd := by
  rw [setMztData_some h, mztBsize_flushTapeBuf]
  exact (count_mztRecords fd _).trans (Int.zero_add _)

/-! ## the position -/

/-- The position that `cmt_read` computes in `s` is the one after `n`
T-states of playing time. -/
structure PlaysAt (s : Machine) (n : Nat) : Prop where
  elapsed : elapsed s = n
  tword : twordOf s.mzMode (M5Z80.elapsed s) = n / (27 * calcParam s.mzMode)
  tbit : tbitOf s.mzMode (M5Z80.elapsed s) = n % (27 * calcParam s.mzMode) / calcParam s.mzMode

/-- The playing time of the whole tape, as far as its file and the mode of
the machine say. -/
def playTimeOf (mode : MzMode) (fd : List UInt8) : Int := 27 * calcParam mode * tapeLength fd

/-- In every run of a mounted tape that is made of time, motor writes and
polls before the end, `cmt_read` computes the position of the playing time
up to the time `total` of the whole tape; the word is never negative, and a
poll at the end of the tape stops the deck. -/
def ReachesEnd (total : Int) (mztFile : String) (m : Machine) : Prop :=
  ∀ ops : List TapeStep,
    Run.Along TapeStep.apply (fun m o => o.BeforeEnd m) ops (startTape mztFile m) →
    let s := Run.exec TapeStep.apply ops (startTape mztFile m)
    let n := playedTime ops (startTape mztFile m)
    s.ts700.cmtTstates = 1 → n ≤ total →
    PlaysAt s n ∧ 0 ≤ twordOf s.mzMode (elapsed s) ∧
      (n = total → (cmtRead s).2.ts700.cmtPlay = 0)

/-- A position below `2^31` is played at itself. -/
theorem playsAt_of_elapsed {s : Machine} {n : Nat} (h : elapsed s = n) : PlaysAt s n := by
  have hpos := calcParam_pos s.mzMode
  have hmod : 0 ≤ (n : Int) % (27 * calcParam s.mzMode) := Int.emod_nonneg _ (by omega)
  refine ⟨h, ?_, ?_⟩
  · rw [h, twordOf, Int.tdiv_eq_ediv_of_nonneg (Int.natCast_nonneg n)]
  · rw [h, tbitOf, Int.tmod_eq_emod_of_nonneg (Int.natCast_nonneg n),
      Int.tdiv_eq_ediv_of_nonneg hmod]

/-! ## every run -/

/-- A run before the end of the tape leaves the tape and the mode of the
machine alone. -/
theorem mztBsize_exec (ops : List TapeStep) {m : Machine}
    (hops : Run.Along TapeStep.apply (fun m o => o.BeforeEnd m) ops m) :
    (Run.exec TapeStep.apply ops m).ts700.mztBsize = m.ts700.mztBsize ∧
      (Run.exec TapeStep.apply ops m).mzMode = m.mzMode := by
  refine Run.Along.invariant (P := fun s : Machine =>
    s.ts700.mztBsize = m.ts700.mztBsize ∧ s.mzMode = m.mzMode) ?_ hops ⟨rfl, rfl⟩
  rintro s o ⟨hsize, hmode⟩ ho
  have hedge (t : T700Ts) : t.edge.mztBsize = t.mztBsize := by
    unfold T700Ts.edge
    split
    · split <;> rfl
    · rfl
  cases o with
  | clock n =>
      obtain ⟨_, _, _, heq, -⟩ := mCstate_eq n s
      rw [TapeStep.apply, heq]
      exact ⟨hsize, hmode⟩
  | portC val =>
      refine ⟨?_, (congrArg Core.mzMode (core_mmioOut 0xE002 val s)).trans hmode⟩
      rw [← hsize]
      obtain hsame | ⟨-, hmoved⟩ := ts700_writePortC val s
      · exact congrArg T700Ts.mztBsize hsame
      · exact (congrArg T700Ts.mztBsize hmoved).trans (hedge _)
  | portCBit val =>
      refine ⟨?_, (congrArg Core.mzMode (core_mmioOut 0xE003 val s)).trans hmode⟩
      rw [← hsize]
      obtain hsame | ⟨-, hmoved⟩ := ts700_writePortCBit val s
      · exact congrArg T700Ts.mztBsize hsame
      · exact (congrArg T700Ts.mztBsize hmoved).trans (hedge _)
  | poll =>
      refine ⟨?_, (congrArg Core.mzMode (core_cmtRead s)).trans hmode⟩
      rw [← hsize]
      exact congrArg T700Ts.mztBsize (ts700_cmtRead ho)

/-- A file that opens is mounted. -/
theorem setMztData_mounts {mztFile : String} {m : Machine} {fd : List UInt8}
    (h : m.files (mztPath mztFile) = some fd) : (setMztData mztFile m).1 = true := by
  rw [setMztData_some h]

/-- The deck after time has passed that it ran for. -/
theorem playedTime_clocks (n : Nat) {k : Nat} {m : Machine} (h : m.ts700.cmtTstates = 1) :
    playedTime (List.replicate k (.clock n)) m = k * n ∧
      Run.Along TapeStep.apply (fun m o => o.BeforeEnd m) (List.replicate k (.clock n)) m ∧
      (Run.exec TapeStep.apply (List.replicate k (.clock n)) m).ts700.cmtTstates = 1 := by
  induction k generalizing m with
  | zero => exact ⟨(Nat.zero_mul n).symm, trivial, h⟩
  | succ k ih =>
      have hclock : (TapeStep.apply (.clock n) m).ts700.cmtTstates = 1 := by
        obtain ⟨_, _, _, heq, -⟩ := mCstate_eq n m
        rw [TapeStep.apply, heq]
        exact h
      obtain ⟨htime, halong, hplay⟩ := ih hclock
      rw [List.replicate_succ]
      refine ⟨?_, ⟨trivial, halong⟩, hplay⟩
      rw [playedTime, htime, TapeStep.playTime, if_pos h, Nat.succ_mul, Nat.add_comm]

/-- A poll at the end of the tape stops the deck. -/
theorem cmtPlay_cmtRead_end {s : Machine} (hplay : s.ts700.cmtTstates ≠ 0)
    (hend : s.ts700.mztBsize ≤ twordOf s.mzMode (elapsed s)) :
    (cmtRead s).2.ts700.cmtPlay = 0 := by
  rw [cmtRead, if_neg hplay]
  dsimp only
  rw [if_pos hend]
  rfl

/-- The playing time of a tape that is played to its end fits in an `int`. -/
theorem playTimeOf_lt_of_reachesEnd {mztFile : String} {m : Machine} {fd : List UInt8}
    (h : m.files (mztPath mztFile) = some fd)
    (hreaches : ReachesEnd (playTimeOf m.mzMode fd) mztFile m) : playTimeOf m.mzMode fd < 2 ^ 31 := by
  have hat := at_startTape (setMztData_mounts h)
  by_contra hlong
  -- four T-states at a time until the counter turns negative
  obtain ⟨k, hk⟩ : ∃ k, k * 4 = 2 ^ 31 := ⟨2 ^ 29, by decide⟩
  have hrunning : (startTape mztFile m).ts700.cmtTstates = 1 := rfl
  obtain ⟨htime, halong, hplay⟩ := playedTime_clocks 4 (k := k) hrunning
  rw [hk] at htime
  have hexact := (hreaches _ halong hplay (by rw [htime]; omega)).1.elapsed
  obtain ⟨-, ⟨-, hwrapped⟩ | ⟨hstopped, -⟩⟩ := at_exec _ hat halong
  · rw [elapsed, hwrapped, htime] at hexact
    exact absurd hexact (by decide)
  · rw [hplay] at hstopped
    cases hstopped

/-- `cmt_read` reaches every word of a tape exactly when the playing time
of the whole tape fits in an `int`. -/
theorem reachesEnd_iff {mztFile : String} {m : Machine} {fd : List UInt8}
    (h : m.files (mztPath mztFile) = some fd) :
    ReachesEnd (playTimeOf m.mzMode fd) mztFile m ↔ playTimeOf m.mzMode fd < 2 ^ 31 := by
  have hat := at_startTape (setMztData_mounts h)
  have hpos := calcParam_pos m.mzMode
  have hstart : (startTape mztFile m).ts700.mztBsize = tapeLength fd ∧
      (startTape mztFile m).mzMode = m.mzMode :=
    ⟨mztBsize_setMztData h, mzMode_setMztData h⟩
  constructor
  · exact playTimeOf_lt_of_reachesEnd h
  · intro hshort ops hops s n hplay hn
    have hexact : elapsed s = n := by
      have hrun := at_exec ops hat hops
      rw [Int32.zero_add] at hrun
      exact hrun.elapsed hplay (by omega)
    obtain ⟨hsize, hmode⟩ := mztBsize_exec ops hops
    have hplays := playsAt_of_elapsed hexact
    have hword : 0 ≤ twordOf s.mzMode (elapsed s) := by
      rw [hplays.tword, hmode, hstart.2]
      exact Int.ediv_nonneg (Int.natCast_nonneg n) (by omega)
    refine ⟨hplays, hword, fun hend => ?_⟩
    refine cmtPlay_cmtRead_end (by rw [hplay]; decide) ?_
    refine Int.le_of_eq ?_
    rw [hplays.tword, hsize, hstart.1, hmode, hstart.2, hend, playTimeOf,
      Int.mul_ediv_cancel_left _ (by omega)]

/-! ### headers without a body -/

/-- A file of `n` headers that are all zeros. -/
def headersFile (n : Nat) : List UInt8 := List.replicate (128 * n) 0x00

/-- Headers without bodies take 1021 words each, and the last leader 450. -/
theorem tapeLength_headersFile (n : Nat) : tapeLength (headersFile n) = 1021 * n + 450 := by
  induction n with
  | zero =>
      rw [tapeLength, plainRecords, dif_pos (by decide)]
      rfl
  | succ n ih =>
      have hfile : headersFile (n + 1) = List.replicate 128 0x00 ++ headersFile n := by
        rw [headersFile, headersFile, List.replicate_append_replicate, Nat.mul_succ, Nat.add_comm]
      have hlen : (List.replicate 128 (0x00 : UInt8)).length = 128 := List.length_replicate
      have hsize : word16At (List.replicate 128 0x00) 0x12 = 0 := by decide
      have hlong : ¬ (headersFile (n + 1)).length < 128 := by
        rw [headersFile, List.length_replicate]
        omega
      rw [tapeLength, plainRecords, dif_neg hlong, List.map_cons, List.sum_cons, Nat.add_assoc,
        hfile]
      simp only [LoadRecord.size, List.take_left' hlen, List.drop_left' hlen, hsize, List.drop_zero]
      change (450 + (128 + 3)) + (437 + (0 + 3)) + tapeLength (headersFile n) = _
      rw [ih]
      omega

/-- A machine with such a file to mount. -/
def headersMachine (n : Nat) : Machine :=
  { Machine.cold with files := fun _ => some (headersFile n) }

/-- A single header. -/
theorem reachesEnd_header :
    ReachesEnd (playTimeOf .mode700 (headersFile 1)) "A.MZT" (headersMachine 1) :=
  (reachesEnd_iff (m := headersMachine 1) rfl).mpr (by
    rw [playTimeOf, tapeLength_headersFile]
    decide)

/-- The tape of 102 headers is too long. -/
theorem not_reachesEnd : ¬ ∀ (mztFile : String) (m : Machine) (fd : List UInt8),
    m.files (mztPath mztFile) = some fd → ReachesEnd (playTimeOf m.mzMode fd) mztFile m := by
  intro h
  have hreaches := h "A.MZT" (headersMachine 102) (headersFile 102) rfl
  have hshort := playTimeOf_lt_of_reachesEnd (m := headersMachine 102) rfl hreaches
  rw [playTimeOf, tapeLength_headersFile] at hshort
  exact absurd hshort (by decide)

end M5Z80
