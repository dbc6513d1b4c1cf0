import M5Z80.Bus
import M5Z80.Tape
import M5Z80.Lib.Chunks
import M5Z80.Lib.Staged

/-!
# M5Z80.TapeCodec

The tape encoder.  A tape is a signal of words, 27 bits each: a byte is a
start bit and eight data bits, three bits of signal for one of them.  The
tape rule below reads such a signal without a table; `set_mztData` writes
one that it reads back, for every file of complete records.
-/

namespace M5Z80

/-! ## the tape rule -/

/-- The `k`-th group of three bits of a word: `110` is a one and `100` a
zero. -/
def decodeBit (w : UInt32) (k : Nat) : Option Bool :=
  let pulse := w.toNat / 2 ^ (29 - 3 * k) % 8
  if pulse = 6 then some true else if pulse = 4 then some false else none

/-- A data word: a start bit that is one, then the bits of a byte, most
significant first. -/
def decodeWord (w : UInt32) : Option UInt8 :=
  if decodeBit w 0 = some true then
    (List.range 8).foldlM (fun b k => do
      let bit ← decodeBit w (k + 1)
      return b * 2 + bit.toUInt8) 0
  else none

/-- The word after a block. -/
def terminator : UInt32 := 0xC0000000

/-- The bytes up to the next terminator, and the words after it. -/
def readBlock : List UInt32 → Option (List UInt8 × List UInt32)
  | [] => none
  | w :: ws =>
      if w = terminator then some ([], ws)
      else do
        let b ← decodeWord w
        let (bs, rest) ← readBlock ws
        return (b :: bs, rest)

/-- A block that is read has used up words. -/
theorem length_readBlock {ws rest : List UInt32} {bs : List UInt8}
    (h : readBlock ws = some (bs, rest)) : rest.length < ws.length := by
  induction ws generalizing bs rest with
  | nil => cases h
  | cons w ws ih =>
      rw [readBlock] at h
      split at h
      · injection h with h
        rw [← (Prod.mk.inj h).2]
        exact Nat.lt_succ_self _
      · obtain ⟨b, -, h⟩ := Option.bind_eq_some_iff.mp h
        obtain ⟨⟨bs', rest'⟩, hrec, h⟩ := Option.bind_eq_some_iff.mp h
        injection h with h
        rw [← (Prod.mk.inj h).2]
        exact Nat.lt_succ_of_lt (ih hrec)

/-- The blocks of a tape: a leader of 450 words before a header, one of 437
words before a body, and one more leader at the end. -/
def decodeTape (ws : List UInt32) : Option (List (List UInt8)) :=
  if ws.length = 450 then some []
  else
    match _h₁ : readBlock (ws.drop 450) with
    | none => none
    | some (header, ws₁) =>
        match _h₂ : readBlock (ws₁.drop 437) with
        | none => none
        | some (body, ws₂) => (decodeTape ws₂).map fun blocks => header :: body :: blocks
termination_by ws.length
decreasing_by
  have h₁ := length_readBlock _h₁
  have h₂ := length_readBlock _h₂
  rw [List.length_drop] at h₁ h₂
  omega

/-! ## MZT files -/

/-- A record of an MZT file: the size field of the header is the length of
the body. -/
structure MztRecord where
  header : List UInt8
  body : List UInt8
  length_header : header.length = 128
  length_body : body.length = word16At header 0x12

/-- A file of complete records, and stray bytes after the last of them. -/
def mztBytes (records : List MztRecord) (stray : List UInt8) : List UInt8 :=
  records.flatMap (fun r => r.header ++ r.body) ++ stray

/-- The number of `1` bits of a byte. -/
def oneBits (b : UInt8) : Nat := ((List.range 8).filter b.toNat.testBit).length

/-- The two checksum bytes of a block: its number of `1` bits modulo 65536,
high byte first. -/
def checksum (block : List UInt8) : List UInt8 :=
  let n := (block.map oneBits).sum % 65536
  [(n / 256).toUInt8, (n % 256).toUInt8]

/-- What a record leaves on the tape. -/
def MztRecord.blocks (r : MztRecord) : List (List UInt8) :=
  [r.header ++ checksum r.header, r.body ++ checksum r.body]

/-- The bytes of a word, least significant first. -/
def littleEndian (w : UInt32) : List UInt8 :=
  (List.range 4).map fun i => (w.toNat / 256 ^ i).toUInt8

theorem length_littleEndian (w : UInt32) : (littleEndian w).length = 4 := rfl

/-! ## the pulse patterns -/

/-- The table of `makePWM`: the tape rule reads the byte back, no pattern
is a terminator, and the third column counts the `1` bits. -/
theorem pwmTable_spec : ∀ i < 256, decodeWord (pwmTable i).pattern = some i.toUInt8 ∧
    (pwmTable i).pattern ≠ terminator ∧ (pwmTable i).ones = (oneBits i.toUInt8).toUInt32 := by
  decide +kernel

/-- A word is written low byte first. -/
theorem uint32Bytes_eq (w : UInt32) : uint32Bytes w = littleEndian w := by
  have hbyte (i : Nat) (hi : i < 4) :
      ((w >>> (8 * i).toUInt32) &&& 255).toUInt8 = (w.toNat / 256 ^ i).toUInt8 := by
    have hshift : (8 * i).toUInt32.toNat % 32 = 8 * i := by
      rw [Nat.toUInt32_eq, UInt32.toNat_ofNat']
      omega
    rw [← UInt8.toNat_inj, UInt32.toNat_toUInt8, UInt32.toNat_and, UInt32.toNat_shiftRight, hshift,
      Nat.shiftRight_eq_div_pow, Nat.pow_mul, Nat.toUInt8_eq, UInt8.toNat_ofNat']
    simp only [UInt32.reduceToNat, Nat.reducePow, Nat.and_two_pow_sub_one_eq_mod _ 8]
    exact Nat.mod_mod _ _
  have h0 : (w &&& 255).toUInt8 = (w.toNat / 256 ^ 0).toUInt8 := by
    have hzero : Nat.toUInt32 (8 * 0) = 0 := rfl
    rw [← hbyte 0 (by decide), hzero, UInt32.shiftRight_zero]
  have h1 : ((w >>> 8) &&& 255).toUInt8 = (w.toNat / 256 ^ 1).toUInt8 := hbyte 1 (by decide)
  have h2 : ((w >>> 16) &&& 255).toUInt8 = (w.toNat / 256 ^ 2).toUInt8 := hbyte 2 (by decide)
  have h3 : ((w >>> 24) &&& 255).toUInt8 = (w.toNat / 256 ^ 3).toUInt8 := hbyte 3 (by decide)
  rw [uint32Bytes, h0, h1, h2, h3]
  rfl

/-! ## writing words -/

/-- The temporary file and the byte buffer are a staged writer. -/
structure Stages (m : Machine) (st : Staged UInt8) : Prop where
  out : m.files tmpTapeDataPath = some st.out
  pending : st.pending = (List.range m.tape.tapeReadBufCount).map m.tape.tapeDataSaveBuf

/-- The count of the buffer is the length of what is staged. -/
theorem Stages.count {m : Machine} {st : Staged UInt8} (h : Stages m st) :
    m.tape.tapeReadBufCount = st.pending.length := by
  rw [h.pending, List.length_map, List.length_range]

/-- A flush of the buffer is a flush of the stage. -/
theorem Stages.flushTapeBuf {m : Machine} {st : Staged UInt8} (h : Stages m st) :
    Stages (flushTapeBuf m) st.flush := by
  unfold M5Z80.flushTapeBuf
  split
  · refine ⟨?_, rfl⟩
    simp only [Function.update_self, h.out, Option.getD_some, h.pending, Staged.flush]
  · next hcount =>
      have hpending : st.pending = [] := by
        rw [← List.length_eq_zero_iff, ← h.count]
        omega
      refine ⟨?_, ?_⟩
      · rw [h.out, Staged.flush, hpending, List.append_nil]
      · rw [Staged.flush, ← h.pending, hpending]

/-- A byte in the buffer is staged. -/
theorem Stages.pushSaveBuf {m : Machine} {st : Staged UInt8} (h : Stages m st) (b : UInt8) :
    Stages (pushSaveBuf m b) ⟨st.out, st.pending ++ [b]⟩ := by
  refine ⟨h.out, ?_⟩
  have hold : (List.range m.tape.tapeReadBufCount).map
      (Function.update m.tape.tapeDataSaveBuf m.tape.tapeReadBufCount b) = st.pending := by
    rw [h.pending]
    refine List.map_congr_left fun i hi => ?_
    rw [Function.update_of_ne (Nat.ne_of_lt (List.mem_range.mp hi))]
  simp only [M5Z80.pushSaveBuf, List.range_succ, List.map_append, hold, List.map_cons,
    List.map_nil, Function.update_self]

/-- So are bytes. -/
theorem Stages.pushBytes {m : Machine} {st : Staged UInt8} (h : Stages m st) (bs : List UInt8) :
    Stages (bs.foldl M5Z80.pushSaveBuf m) ⟨st.out, st.pending ++ bs⟩ := by
  induction bs generalizing m st with
  | nil =>
      rw [List.append_nil]
      exact h
  | cons b bs ih =>
      have hrest := ih (h.pushSaveBuf b)
      rwa [List.append_assoc] at hrest

/-- A word goes through the buffer byte by byte. -/
theorem Stages.writeUINT32 {m : Machine} {st : Staged UInt8} (h : Stages m st) (w : UInt32) :
    Stages (writeUINT32 w m) (st.put 1600 (littleEndian w)) := by
  have hpush := h.pushBytes (littleEndian w)
  rw [← uint32Bytes_eq] at hpush ⊢
  simp only [M5Z80.writeUINT32, Staged.put, hpush.count]
  split
  · exact hpush.flushTapeBuf
  · exact hpush

/-- The step from one word count and machine to another writes `ws`. -/
structure Wrote (ws : List UInt32) (s s' : Int × Machine) : Prop where
  count : s'.1 = s.1 + ws.length
  stages : ∀ st, Stages s.2 st → Stages s'.2 (st.puts 1600 littleEndian ws)

/-- Nothing written. -/
theorem Wrote.refl (s : Int × Machine) : Wrote [] s s :=
  ⟨(Int.add_zero _).symm, fun _ h => h⟩

/-- What is written behind what was written. -/
theorem Wrote.trans {ws ws' : List UInt32} {s s' s'' : Int × Machine} (h : Wrote ws s s')
    (h' : Wrote ws' s' s'') : Wrote (ws ++ ws') s s'' := by
  refine ⟨?_, fun st hst => ?_⟩
  · rw [h'.count, h.count, List.length_append]
    omega
  · rw [Staged.puts_append]
    exact h'.stages _ (h.stages st hst)

/-- At first nothing is staged. -/
theorem stages_openTmpTapeData (m : Machine) : Stages (openTmpTapeData m) ⟨[], []⟩ :=
  ⟨by simp only [openTmpTapeData, Function.update_self], rfl⟩

/-- While a tape is written the byte buffer has room for the next word. -/
theorem Wrote.room {ws : List UInt32} {m : Machine} {s : Int × Machine}
    (h : Wrote ws (0, openTmpTapeData m) s) : s.2.tape.tapeReadBufCount + 4 ≤ 1600 := by
  have hopen : Staged.Fits 1600 4 (⟨[], []⟩ : Staged UInt8) := ⟨by decide, Nat.dvd_zero 4⟩
  have hfits := hopen.puts length_littleEndian ws
  rw [(h.stages _ (stages_openTmpTapeData m)).count]
  exact hfits.room (by decide)

/-- A word is written as it is. -/
theorem wrote_putWord (w : UInt32) (s : Int × Machine) : Wrote [w] s (putWord w s) :=
  ⟨rfl, fun _ h => h.writeUINT32 w⟩

/-- A word for each element of a list. -/
theorem wrote_foldl {α : Type} (f : α → UInt32) (l : List α) (s : Int × Machine) :
    Wrote (l.map f) s (l.foldl (fun s a => putWord (f a) s) s) := by
  induction l generalizing s with
  | nil => exact Wrote.refl s
  | cons a l ih => exact (wrote_putWord (f a) s).trans (ih _)

/-- A leader is written word by word. -/
theorem wrote_putLeader (leader : Nat → UInt32) (n : Nat) (s : Int × Machine) :
    Wrote ((List.range n).map leader) s (putLeader leader n s) :=
  wrote_foldl leader (List.range n) s

/-! ## writing blocks -/

/-- The word of a byte. -/
def pattern (b : UInt8) : UInt32 := (pwmTable b.toNat).pattern

/-- The pattern of a byte is read back as the byte. -/
theorem decodeWord_pattern (b : UInt8) : decodeWord (pattern b) = some b := by
  rw [pattern, (pwmTable_spec b.toNat b.toNat_lt).1, Nat.toUInt8_eq, UInt8.ofNat_toNat]

/-- No byte looks like the mark behind a block. -/
theorem pattern_ne_terminator (b : UInt8) : pattern b ≠ terminator :=
  (pwmTable_spec b.toNat b.toNat_lt).2.1

/-- The table counts the one bits of each byte. -/
theorem ones_pwmTable (b : UInt8) : (pwmTable b.toNat).ones = (oneBits b).toUInt32 := by
  rw [(pwmTable_spec b.toNat b.toNat_lt).2.2, Nat.toUInt8_eq, UInt8.ofNat_toNat]

/-- The table is used inside its bounds for bytes. -/
theorem pwmAt_byte (b : UInt8) : pwmAt b.toNat = pwmTable b.toNat := by
  have := b.toNat_lt
  rw [pwmAt, if_pos (by omega)]
  rfl

/-- What `fd.read()` returns for the bytes of a list. -/
def ints (l : List UInt8) : List Int := l.map fun b => (b.toNat : Int)

/-- A byte adds its one bits to the checksum and writes its pattern. -/
theorem putByte_eq (b : UInt8) (s : UInt32 × Int × Machine) :
    putByte s b.toNat = (s.1 + (oneBits b).toUInt32,
      putWord (pattern b) (s.2.1, s.2.2.use .pwmTable b.toNat)) := by
  rw [putByte, pwmAt_byte, ones_pwmTable, pattern]

/-- What is written for an index outside the table is what lies there. -/
theorem wrote_putInt (bb : Int) (s : UInt32 × Int × Machine) :
    Wrote [(pwmAt bb).pattern] s.2 (putByte s bb).2 := by
  refine ⟨rfl, fun st h => ?_⟩
  have huse : Stages (s.2.2.use .pwmTable bb) st := ⟨h.out, h.pending⟩
  exact huse.writeUINT32 (pwmAt bb).pattern

/-- What is written for a byte is its pattern. -/
theorem wrote_putByte (b : UInt8) (s : UInt32 × Int × Machine) :
    Wrote [pattern b] s.2 (putByte s b.toNat).2 := by
  rw [pattern, ← pwmAt_byte]
  exact wrote_putInt b.toNat s

/-- The bytes of a block, and the sum of their `1` bits. -/
theorem wrote_putBytes (l : List UInt8) (s : UInt32 × Int × Machine) :
    ((ints l).foldl putByte s).1 = s.1 + (l.map oneBits).sum.toUInt32 ∧
      Wrote (l.map pattern) s.2 ((ints l).foldl putByte s).2 := by
  induction l generalizing s with
  | nil => exact ⟨(UInt32.add_zero _).symm, Wrote.refl s.2⟩
  | cons b l ih =>
      obtain ⟨hsum, hwrote⟩ := ih (putByte s b.toNat)
      have hcons : (ints (b :: l)).foldl putByte s =
          (ints l).foldl putByte (putByte s b.toNat) := by
        rw [ints, List.map_cons, List.foldl_cons, ints]
      rw [hcons, List.map_cons, List.map_cons, List.sum_cons]
      refine ⟨?_, (wrote_putByte b s).trans hwrote⟩
      rw [hsum, putByte_eq, UInt32.add_assoc]
      congr 1
      exact (UInt32.ofNat_add _ _).symm

/-- The high byte of the checksum, of which 16 bits are written. -/
theorem checksum_hi (n : Nat) :
    ((n.toUInt32 >>> 8) &&& 0xff).toNat = (n % 65536 / 256).toUInt8.toNat := by
  simp only [UInt32.toNat_and, UInt32.toNat_shiftRight, Nat.toUInt32_eq, UInt32.toNat_ofNat',
    UInt32.reduceToNat, Nat.reduceMod, Nat.shiftRight_eq_div_pow, Nat.toUInt8_eq,
    UInt8.toNat_ofNat', Nat.and_two_pow_sub_one_eq_mod _ 8, Nat.reducePow]
  omega

/-- The low byte of the checksum. -/
theorem checksum_lo (n : Nat) : (n.toUInt32 &&& 0xff).toNat = (n % 65536 % 256).toUInt8.toNat := by
  simp only [UInt32.toNat_and, Nat.toUInt32_eq, UInt32.toNat_ofNat', UInt32.reduceToNat,
    Nat.toUInt8_eq, UInt8.toNat_ofNat', Nat.and_two_pow_sub_one_eq_mod _ 8, Nat.reducePow]
  omega

/-- The words of a block: its bytes, its checksum and a terminator. -/
def blockWords (block : List UInt8) : List UInt32 :=
  (block ++ checksum block).map pattern ++ [terminator]

/-- A block is written as its words. -/
theorem wrote_putBlock (block : List UInt8) (s : Int × Machine) :
    Wrote (blockWords block) s (putBlock (ints block) s) := by
  obtain ⟨hsum, hbytes⟩ := wrote_putBytes block (0, s)
  let n := (block.map oneBits).sum
  let s₁ := ((ints block).foldl putByte (0, s)).2
  let s₂ := (putByte (0, s₁) ((n % 65536 / 256).toUInt8.toNat : Int)).2
  let s₃ := (putByte (0, s₂) ((n % 65536 % 256).toUInt8.toNat : Int)).2
  have hputs : putBlock (ints block) s = putWord terminator s₃ := by
    change putWord 0xC0000000
      (putByte (0, (putByte (0, s₁) (((ints block).foldl putByte (0, s)).1 >>> 8 &&& 0xff).toNat).2)
        (((ints block).foldl putByte (0, s)).1 &&& 0xff).toNat).2 = _
    rw [hsum, UInt32.zero_add, checksum_hi, checksum_lo]
    rfl
  have hwords : blockWords block = block.map pattern ++
      ([pattern (n % 65536 / 256).toUInt8] ++ ([pattern (n % 65536 % 256).toUInt8] ++ [terminator])) := by
    rw [blockWords, List.map_append, List.append_assoc]
    rfl
  rw [hputs, hwords]
  exact hbytes.trans <| (wrote_putByte _ (0, s₁)).trans <| (wrote_putByte _ (0, s₂)).trans <|
    wrote_putWord terminator s₃

/-! ## writing records -/

/-- Whole reads give the bytes of the file. -/
theorem readInts_eq (l rest : List UInt8) : readInts (l ++ rest) l.length = ints l := by
  rw [readInts, ints]
  refine List.ext_getElem (by simp) fun i hi _ => ?_
  have hlt : i < l.length := by simpa using hi
  simp [List.getElem?_append_left hlt, List.getElem?_eq_getElem hlt]

/-- The two leaders. -/
def leader1 : List UInt32 := (List.range 450).map mztLeader1

def leader2 : List UInt32 := (List.range 437).map mztLeader2

/-- The words of a record. -/
def MztRecord.words (r : MztRecord) : List UInt32 :=
  leader1 ++ (blockWords r.header ++ (leader2 ++ blockWords r.body))

/-- The words of a tape.  The last leader is written before the end of the
file is found. -/
def tapeWords (records : List MztRecord) : List UInt32 :=
  records.flatMap MztRecord.words ++ leader1

/-- The first record and the rest of a file. -/
theorem mztBytes_cons (r : MztRecord) (records : List MztRecord) (stray : List UInt8) :
    mztBytes (r :: records) stray = r.header ++ (r.body ++ mztBytes records stray) := by
  simp only [mztBytes, List.flatMap_cons, List.append_assoc]

/-- A complete record at the front of the file. -/
theorem mztRecords_record (r : MztRecord) (fd : List UInt8) (s : Int × Machine) :
    mztRecords (r.header ++ (r.body ++ fd)) s =
      mztRecords fd (putBlock (ints r.body) (putLeader mztLeader2 437
        (putBlock (ints r.header) (putLeader mztLeader1 450 s)))) := by
  have hheader : (r.header ++ (r.body ++ fd)).take 128 = r.header := List.take_left' r.length_header
  have hrest : (r.header ++ (r.body ++ fd)).drop 128 = r.body ++ fd := List.drop_left' r.length_header
  have hlen : ¬ r.header.length < 128 := by rw [r.length_header]; decide
  have hints : readInts r.header 128 = ints r.header := by
    have h := readInts_eq r.header []
    rwa [List.append_nil, r.length_header] at h
  rw [mztRecords]
  simp only [hheader, hrest, dif_neg hlen, hints, ← r.length_body, readInts_eq, List.drop_left]

/-- By induction on the records: a file is written as its tape. -/
theorem wrote_mztRecords (records : List MztRecord) {stray : List UInt8} (h : stray.length < 128)
    (s : Int × Machine) : Wrote (tapeWords records) s (mztRecords (mztBytes records stray) s) := by
  induction records generalizing s with
  | nil =>
      have hshort : (stray.take 128).length < 128 := by
        rw [List.length_take]
        omega
      change Wrote leader1 s (mztRecords stray s)
      rw [mztRecords]
      simp only [dif_pos hshort]
      exact wrote_putLeader mztLeader1 450 s
  | cons r records ih =>
      have hrecord := (wrote_putLeader mztLeader1 450 s).trans <| (wrote_putBlock r.header _).trans <|
        (wrote_putLeader mztLeader2 437 _).trans (wrote_putBlock r.body _)
      rw [mztBytes_cons, mztRecords_record, tapeWords, List.flatMap_cons, List.append_assoc]
      exact hrecord.trans (ih _)

/-! ## any file -/

/-- A block writes words, whatever `fd.read()` returned. -/
theorem exists_wrote_putBlock (bytes : List Int) (s : Int × Machine) :
    ∃ ws, Wrote ws s (putBlock bytes s) := by
  have hbytes (s' : UInt32 × Int × Machine) : ∃ ws, Wrote ws s'.2 (bytes.foldl putByte s').2 := by
    induction bytes generalizing s' with
    | nil => exact ⟨[], Wrote.refl s'.2⟩
    | cons bb bytes ih =>
        obtain ⟨ws, hws⟩ := ih (putByte s' bb)
        exact ⟨_, (wrote_putInt bb s').trans hws⟩
  obtain ⟨ws, hws⟩ := hbytes (0, s)
  exact ⟨_, hws.trans <| (wrote_putInt _ _).trans <| (wrote_putInt _ _).trans <|
    wrote_putWord terminator _⟩

/-- Every tape starts with a leader. -/
theorem exists_wrote_mztRecords (fd : List UInt8) (s : Int × Machine) :
    ∃ ws, Wrote (leader1 ++ ws) s (mztRecords fd s) := by
  induction fd, s using mztRecords.induct with
  | case1 fd s tmpBuf hshort =>
      refine ⟨[], ?_⟩
      rw [mztRecords, List.append_nil]
      simp only
      rw [dif_pos hshort]
      exact wrote_putLeader mztLeader1 450 s
  | case2 fd s s₁ tmpBuf hlen s₂ bsize s₃ s₄ ih =>
      obtain ⟨ws₁, hheader⟩ := exists_wrote_putBlock (readInts tmpBuf 128) s₁
      obtain ⟨ws₂, hbody⟩ := exists_wrote_putBlock (readInts (fd.drop 128) bsize) s₃
      obtain ⟨ws, hrest⟩ := ih
      rw [mztRecords]
      simp only
      rw [dif_neg hlen]
      exact ⟨_, (wrote_putLeader mztLeader1 450 s).trans <| hheader.trans <|
        (wrote_putLeader mztLeader2 437 s₂).trans <| hbody.trans hrest⟩

/-! ## reading the tape back -/

/-- A block that was written is read back with its checksum. -/
theorem readBlock_blockWords (block : List UInt8) (rest : List UInt32) :
    readBlock (blockWords block ++ rest) = some (block ++ checksum block, rest) := by
  rw [blockWords]
  induction block ++ checksum block with
  | nil => rfl
  | cons b l ih =>
      rw [List.map_cons, List.cons_append, List.cons_append, readBlock,
        if_neg (pattern_ne_terminator b), decodeWord_pattern, ih]
      rfl

theorem length_leader1 : leader1.length = 450 := by
  rw [leader1, List.length_map, List.length_range]

theorem length_leader2 : leader2.length = 437 := by
  rw [leader2, List.length_map, List.length_range]

/-- A tape that starts with a record. -/
theorem decodeTape_record (r : MztRecord) (ws : List UInt32) :
    decodeTape (r.words ++ ws) = (decodeTape ws).map (r.blocks ++ ·) := by
  have hne : (r.words ++ ws).length ≠ 450 := by
    simp only [MztRecord.words, blockWords, List.length_append, length_leader1, List.length_singleton]
    omega
  have hheader : (r.words ++ ws).drop 450 =
      blockWords r.header ++ (leader2 ++ (blockWords r.body ++ ws)) := by
    simp only [MztRecord.words, List.append_assoc]
    exact List.drop_left' length_leader1
  have hbody : (leader2 ++ (blockWords r.body ++ ws)).drop 437 = blockWords r.body ++ ws :=
    List.drop_left' length_leader2
  rw [decodeTape, if_neg hne]
  split
  · next h₁ => rw [hheader, readBlock_blockWords] at h₁; cases h₁
  · next h₁ =>
      rw [hheader, readBlock_blockWords] at h₁
      cases h₁
      split
      · next h₂ => rw [hbody, readBlock_blockWords] at h₂; cases h₂
      · next h₂ =>
          rw [hbody, readBlock_blockWords] at h₂
          cases h₂
          rfl

/-- A tape that was written is read back record by record. -/
theorem decodeTape_tapeWords (records : List MztRecord) :
    decodeTape (tapeWords records) = some (records.flatMap MztRecord.blocks) := by
  induction records with
  | nil =>
      change decodeTape leader1 = some []
      rw [decodeTape, if_pos length_leader1]
  | cons r records ih =>
      have hcons : tapeWords (r :: records) = r.words ++ tapeWords records := by
        rw [tapeWords, List.flatMap_cons, List.append_assoc, tapeWords]
      rw [hcons, decodeTape_record, ih, List.flatMap_cons]
      rfl

/-! ## the temporary file -/

/-- A file that opens is written to the buffer and mounted. -/
theorem setMztData_some {mztFile : String} {m : Machine} {fd : List UInt8}
    (h : m.files (mztPath mztFile) = some fd) :
    setMztData mztFile m =
      (true, flushTapeBuf (setTape (mztRecords fd (0, openTmpTapeData m)).1
        (mztRecords fd (0, openTmpTapeData m)).2)) := by
  rw [setMztData, h]

/-- The flush does not change the length of the tape. -/
theorem mztBsize_flushTapeBuf (m : Machine) :
    (flushTapeBuf m).ts700.mztBsize = m.ts700.mztBsize := by
  unfold flushTapeBuf
  split <;> rfl

/-- A tape is in the deck when its words are: the temporary file holds
them, and their number is known. -/
structure Mounted (ws : List UInt32) (m : Machine) : Prop where
  file : m.files tmpTapeDataPath = some (ws.flatMap littleEndian)
  size : m.ts700.mztBsize = ws.length

/-- The words that the record loop writes are in the deck afterwards. -/
theorem mounted_setMztData {mztFile : String} {m : Machine} {fd : List UInt8} {ws : List UInt32}
    (hfile : m.files (mztPath mztFile) = some fd)
    (hwrote : Wrote ws (0, openTmpTapeData m) (mztRecords fd (0, openTmpTapeData m))) :
    Mounted ws (setMztData mztFile m).2 := by
  have hopen := stages_openTmpTapeData m
  have hset : Stages (setTape (mztRecords fd (0, openTmpTapeData m)).1
      (mztRecords fd (0, openTmpTapeData m)).2) (Staged.puts 1600 littleEndian ws ⟨[], []⟩) :=
    ⟨(hwrote.stages _ hopen).out, (hwrote.stages _ hopen).pending⟩
  rw [setMztData_some hfile]
  refine ⟨?_, ?_⟩
  · rw [hset.flushTapeBuf.out, Staged.out_flush, Staged.contents_puts]
    rfl
  · rw [mztBsize_flushTapeBuf]
    exact hwrote.count.trans (Int.zero_add _)

/-- Mounting a file of complete records writes its tape, word by word, and
the tape gives every block back with its checksum. -/
theorem setMztData_decodes (mztFile : String) (m : Machine) (records : List MztRecord)
    (stray : List UInt8) (hstray : stray.length < 128)
    (hfile : m.files (mztPath mztFile) = some (mztBytes records stray)) :
    ∃ ws : List UInt32, (setMztData mztFile m).1 = true ∧
      (setMztData mztFile m).2.files tmpTapeDataPath = some (ws.flatMap littleEndian) ∧
      (setMztData mztFile m).2.ts700.mztBsize = ws.length ∧
      decodeTape ws = some (records.flatMap MztRecord.blocks) := by
  have hmounted := mounted_setMztData hfile (wrote_mztRecords records hstray _)
  refine ⟨tapeWords records, ?_, hmounted.file, hmounted.size, decodeTape_tapeWords records⟩
  rw [setMztData_some hfile]

/-- A record with one byte of body. -/
def shortRecord : MztRecord where
  header := List.replicate 0x12 0 ++ 1 :: List.replicate 109 0
  body := [0xA5]
  length_header := by simp
  length_body := by simp [word16At]

/-- A short record and a stray byte. -/
theorem setMztData_decodes_short :
    ∃ ws : List UInt32,
      (setMztData "A.MZT"
        { Machine.cold with files := fun _ => some (mztBytes [shortRecord] [0x1A]) }).1 = true ∧
      (setMztData "A.MZT"
        { Machine.cold with files := fun _ => some (mztBytes [shortRecord] [0x1A]) }).2.files
          tmpTapeDataPath = some (ws.flatMap littleEndian) ∧
      (setMztData "A.MZT"
        { Machine.cold with files := fun _ => some (mztBytes [shortRecord] [0x1A]) }).2.ts700.mztBsize
          = ws.length ∧
      decodeTape ws = some [shortRecord.header ++ checksum shortRecord.header, [0xA5, 0x00, 0x04]] :=
  setMztData_decodes "A.MZT" _ [shortRecord] [0x1A] (by decide) rfl

end M5Z80
