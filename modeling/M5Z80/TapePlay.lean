import Mathlib.Data.Nat.Bitwise
import M5Z80.Frame
import M5Z80.TapeCodec
import M5Z80.Lib.Run
import M5Z80.Lib.Window

/-!
# M5Z80.TapePlay

Playing a tape.  `cmt_read` is a reader with a window of 400 words of the
temporary file, and polls that go forward by less than that give the bits
of the image.  The reader takes position 0 as read before it has read
anything, so that the first word plays as zero.
-/

namespace M5Z80

/-! ## words of the temporary file -/

/-- Bits that do not overlap add up. -/
theorem or_shiftLeft {a k : Nat} (h : a < 2 ^ k) (b : Nat) : a ||| b <<< k = a + b * 2 ^ k := by
  rw [Nat.shiftLeft_eq, Nat.or_comm, Nat.mul_comm, ← Nat.two_pow_add_eq_or_of_lt h, Nat.add_comm]

/-- Four bytes of the buffer that hold a word. -/
theorem saveBufWord_littleEndian {buf : Nat → UInt8} {i : Nat} {w : UInt32}
    (h : ∀ j < 4, (littleEndian w)[j]? = some (buf (i + j))) : saveBufWord buf i = w := by
  have hbyte (j : Nat) (hj : j < 4) : (buf (i + j)).toNat = w.toNat / 256 ^ j % 256 := by
    have hj' := h j hj
    rw [littleEndian, List.getElem?_map, List.getElem?_range hj, Option.map_some] at hj'
    rw [← Option.some.inj hj', Nat.toUInt8_eq, UInt8.toNat_ofNat']
  have hfirst : (buf i).toNat = w.toNat / 256 ^ 0 % 256 := hbyte 0 (by decide)
  have hw := w.toNat_lt
  have hshift {a k : Nat} (ha : a * 2 ^ k < 4294967296) : a <<< k % 4294967296 = a <<< k := by
    rw [Nat.shiftLeft_eq, Nat.mod_eq_of_lt ha]
  rw [← UInt32.toNat_inj]
  simp only [saveBufWord, UInt32.toNat_or, UInt32.toNat_shiftLeft, UInt8.toNat_toUInt32,
    UInt32.reduceToNat, Nat.reduceMod, Nat.reducePow]
  rw [hfirst, hbyte 1 (by decide), hbyte 2 (by decide), hbyte 3 (by decide)]
  simp only [Nat.reducePow, Nat.div_one]
  rw [hshift (by omega), hshift (by omega), hshift (by omega), or_shiftLeft (k := 8) (by omega),
    or_shiftLeft (k := 16) (by omega), or_shiftLeft (k := 24) (by omega)]
  omega

/-- Every position of a word has a byte. -/
theorem getElem?_littleEndian (w : UInt32) {j : Nat} (hj : j < 4) :
    ∃ b, (littleEndian w)[j]? = some b :=
  ⟨_, List.getElem?_eq_getElem (by rwa [length_littleEndian])⟩

/-- The words of a file. -/
def wordsOf (bytes : List UInt8) : List UInt32 :=
  (List.range (bytes.length / 4)).map fun i => saveBufWord (fun j => bytes.getD j 0) (4 * i)

/-- Words are read back from their bytes. -/
theorem wordsOf_flatMap (ws : List UInt32) : wordsOf (ws.flatMap littleEndian) = ws := by
  have hlen : (ws.flatMap littleEndian).length / 4 = ws.length := by
    rw [Chunks.length_flatMap length_littleEndian]
    omega
  rw [wordsOf, hlen]
  refine List.ext_getElem (by simp) fun i _ hi => ?_
  rw [List.getElem_map, List.getElem_range]
  refine saveBufWord_littleEndian fun j hj => ?_
  obtain ⟨b, hb⟩ := getElem?_littleEndian ws[i] hj
  rw [List.getD_eq_getElem?_getD,
    Chunks.getElem?_flatMap length_littleEndian (List.getElem?_eq_getElem hi) hj, hb,
    Option.getD_some]

/-- The image in the deck. -/
def Machine.tapeImage (m : Machine) : List UInt32 :=
  wordsOf ((m.files tmpTapeDataPath).getD [])

/-- The image of a mounted tape is what was written. -/
theorem Mounted.tapeImage {ws : List UInt32} {m : Machine} (h : Mounted ws m) :
    m.tapeImage = ws := by
  rw [Machine.tapeImage, h.file, Option.getD_some, wordsOf_flatMap]

/-! ## the window -/

/-- The buffer variables are a window. -/
structure ShowsWindow (t : TapeBuf) (w : Window UInt32) : Prop where
  start : t.bufStartTword = w.start
  next : t.readTword = w.next
  buf : t.tapeDataBuf = w.buf

/-- Reading 1600 bytes is reading 400 words. -/
theorem ShowsWindow.refill {t : TapeBuf} {w : Window UInt32} (h : ShowsWindow t w)
    (ws : List UInt32) :
    ShowsWindow (refill (ws.flatMap littleEndian) t) (w.refill 400 ws) := by
  obtain ⟨chunk, hchunk⟩ : ∃ chunk, (ws.drop w.next).take 400 = chunk := ⟨_, rfl⟩
  have hpos : ((w.next : Int) * 4).toNat = 4 * w.next := by omega
  have hdata : ((ws.flatMap littleEndian).drop ((w.next : Int) * 4).toNat).take 1600 =
      chunk.flatMap littleEndian := by
    rw [hpos, Chunks.drop_flatMap length_littleEndian, ← hchunk]
    exact Chunks.take_flatMap length_littleEndian _ 400
  have hlen : (chunk.flatMap littleEndian).length = 4 * chunk.length :=
    Chunks.length_flatMap length_littleEndian chunk
  refine ⟨h.next, ?_, ?_⟩
  · simp only [M5Z80.refill, h.next, hdata, hlen, Window.refill, hchunk]
    omega
  · funext k
    simp only [M5Z80.refill, h.next, hdata, hlen, Window.refill, hchunk]
    by_cases hk : k < chunk.length
    · rw [if_pos (by omega), List.getD_eq_getElem?_getD, List.getElem?_eq_getElem hk,
        Option.getD_some]
      refine saveBufWord_littleEndian fun j hj => ?_
      obtain ⟨b, hb⟩ := getElem?_littleEndian chunk[k] hj
      rw [Chunks.getElem?_flatMap length_littleEndian (List.getElem?_eq_getElem hk) hj, hb]
    · rw [if_neg (by omega), List.getD_eq_getElem?_getD, List.getElem?_eq_none (by omega),
        Option.getD_none, h.buf]

/-- The variables of `cmt_read` are a reader. -/
structure ShowsReader (t : TapeBuf) (r : Reader UInt32) : Prop
    extends ShowsWindow t r.toWindow where
  pos : t.preTword = r.pos
  val : t.tapeData = r.val

/-- To seek a word is to read it with the window at its place. -/
theorem ShowsReader.seekTword {m : Machine} {r : Reader UInt32} {ws : List UInt32}
    (h : ShowsReader m.tape r) (hfile : m.files tmpTapeDataPath = some (ws.flatMap littleEndian))
    (tword : Nat) : ShowsReader (seekTword tword m).tape (r.read 400 ws tword) := by
  have hpos : m.tape.preTword = tword ↔ r.pos = tword := by
    rw [h.pos]
    exact Int.ofNat_inj
  by_cases hsame : r.pos = tword
  · rw [Reader.read, if_pos hsame, M5Z80.seekTword, if_neg (not_not_intro (hpos.mpr hsame))]
    exact h
  · let t : TapeBuf := { m.tape with preTword := tword }
    have ht : ShowsWindow t r.toWindow := ⟨h.start, h.next, h.buf⟩
    have hseek : ShowsWindow
        (if t.readTword ≤ tword then M5Z80.refill (ws.flatMap littleEndian) t else t)
        (r.toWindow.seek 400 ws tword) := by
      have hnext : t.readTword ≤ tword ↔ r.next ≤ tword := by
        rw [ht.next]
        exact Int.ofNat_le
      simp only [Window.seek, hnext]
      split
      · exact ht.refill ws
      · exact ht
    have hpre : (if t.readTword ≤ tword then M5Z80.refill (ws.flatMap littleEndian) t
        else t).preTword = tword := by
      split <;> rfl
    generalize hsought : (if t.readTword ≤ tword then M5Z80.refill (ws.flatMap littleEndian) t
      else t) = sought at hseek hpre
    have htape : (M5Z80.seekTword tword m).tape = { sought with
        tapeData := sought.tapeDataBuf (tword - sought.bufStartTword).toNat } := by
      rw [M5Z80.seekTword, if_pos (mt hpos.mp hsame), ← hsought, hfile]
      rfl
    rw [Reader.read, if_neg hsame, htape]
    refine ⟨⟨hseek.start, hseek.next, hseek.buf⟩, hpre, ?_⟩
    rw [hseek.buf, hseek.start, Int.toNat_sub]

/-! ## a poll -/

/-- The word of the image that plays at time `e`. -/
def wordAt (mode : MzMode) (e : Int) : Nat := (e / (27 * calcParam mode)).toNat

/-- The bit of that word, counted from its most significant one. -/
def bitAt (mode : MzMode) (e : Int) : Nat := (e % (27 * calcParam mode) / calcParam mode).toNat

/-- What bit `k` of a word sounds like. -/
def signal (w : UInt32) (k : Nat) : Int := if w.toNat.testBit (31 - k) then 0x20 else 0

/-- A word of the tape takes some time. -/
theorem calcParam_pos (mode : MzMode) : 0 < calcParam mode := by
  cases mode <;> decide

/-- In the time that has passed, the word is that of the model of the tape. -/
theorem twordOf_eq (mode : MzMode) {e : Int} (he : 0 ≤ e) : twordOf mode e = wordAt mode e := by
  have hpos := calcParam_pos mode
  have hnonneg : 0 ≤ e / (27 * calcParam mode) := Int.ediv_nonneg he (by omega)
  rw [twordOf, wordAt, Int.tdiv_eq_ediv_of_nonneg he, Int.toNat_of_nonneg hnonneg]

/-- So is the bit. -/
theorem tbitOf_eq (mode : MzMode) {e : Int} (he : 0 ≤ e) : tbitOf mode e = bitAt mode e := by
  have hpos := calcParam_pos mode
  have hmod : 0 ≤ e % (27 * calcParam mode) := Int.emod_nonneg e (by omega)
  rw [tbitOf, bitAt, Int.tmod_eq_emod_of_nonneg he, Int.tdiv_eq_ediv_of_nonneg hmod,
    Int.toNat_of_nonneg (Int.ediv_nonneg hmod (by omega))]

/-- A word has 27 bits. -/
theorem bitAt_lt (mode : MzMode) (e : Int) : bitAt mode e < 27 := by
  have hpos := calcParam_pos mode
  have hmod := Int.emod_lt_of_pos e (show 0 < 27 * calcParam mode by omega)
  have hdiv : e % (27 * calcParam mode) / calcParam mode < 27 :=
    Int.ediv_lt_of_lt_mul hpos hmod
  rw [bitAt]
  omega

/-- The shift and the mask of `cmt_read` look at one bit. -/
theorem shiftLeft_and_ne_zero (w : UInt32) {k : Nat} (hk : k < 32) :
    (w <<< k.toUInt32) &&& 0x80000000 ≠ 0 ↔ w.toNat.testBit (31 - k) = true := by
  have hshift : (k.toUInt32).toNat % 32 = k := by
    rw [Nat.toUInt32_eq, UInt32.toNat_ofNat']
    omega
  have hbit : (w.toNat <<< k % 2 ^ 32).testBit 31 = w.toNat.testBit (31 - k) := by
    rw [Nat.testBit_mod_two_pow, Nat.testBit_shiftLeft, decide_eq_true (show 31 < 32 by decide),
      decide_eq_true (show 31 ≥ k by omega), Bool.true_and, Bool.true_and]
  rw [Ne, ← UInt32.toNat_inj, UInt32.toNat_and, UInt32.toNat_shiftLeft, hshift]
  change (w.toNat <<< k % 2 ^ 32) &&& 2 ^ 31 ≠ 0 ↔ _
  rw [Nat.and_two_pow, hbit]
  cases w.toNat.testBit (31 - k) <;> simp

/-- The percentage on the screen does not move the tape. -/
theorem tape_showPercent (tword : Int) (m : Machine) : (showPercent tword m).tape = m.tape := by
  unfold showPercent
  dsimp only
  split <;> rfl

/-- Nor does it change the length of the tape. -/
theorem mztBsize_showPercent (tword : Int) (m : Machine) :
    (showPercent tword m).ts700.mztBsize = m.ts700.mztBsize := by
  unfold showPercent
  dsimp only
  split <;> rfl

theorem mztBsize_seekTword (tword : Int) (m : Machine) :
    (seekTword tword m).ts700.mztBsize = m.ts700.mztBsize := by
  unfold seekTword
  split <;> rfl

/-- What is mounted is in the files and in the length of the tape. -/
theorem Mounted.congr {ws : List UInt32} {m m' : Machine} (h : Mounted ws m)
    (hcore : m'.core = m.core) (hsize : m'.ts700.mztBsize = m.ts700.mztBsize) : Mounted ws m' :=
  ⟨by rw [show m'.files = m.files from congrArg Core.files hcore, h.file], by rw [hsize, h.size]⟩

/-- A poll while the tape plays asks the reader for the word under the
head. -/
theorem cmtRead_playing {m : Machine} {ws : List UInt32} {r : Reader UInt32}
    (hmounted : Mounted ws m) (hr : ShowsReader m.tape r) (hplay : m.ts700.cmtTstates ≠ 0)
    (he : 0 ≤ elapsed m) (hword : wordAt m.mzMode (elapsed m) < ws.length) :
    (cmtRead m).1 = signal (r.read 400 ws (wordAt m.mzMode (elapsed m))).val
        (bitAt m.mzMode (elapsed m)) ∧
      ShowsReader (cmtRead m).2.tape (r.read 400 ws (wordAt m.mzMode (elapsed m))) ∧
      Mounted ws (cmtRead m).2 := by
  let t := wordAt m.mzMode (elapsed m)
  let m₁ := seekTword t (showPercent t m)
  have hend : ¬ m.ts700.mztBsize ≤ (t : Int) := by
    rw [hmounted.size]
    omega
  have heq : cmtRead m = (if (m₁.tape.tapeData <<< (bitAt m.mzMode (elapsed m)).toUInt32) &&&
      0x80000000 ≠ 0 then 0x20 else 0, m₁) := by
    simp only [cmtRead, if_neg hplay, twordOf_eq _ he, tbitOf_eq _ he, Int.toNat_natCast]
    rw [if_neg hend]
  have hmounted' : Mounted ws (showPercent t m) :=
    hmounted.congr (core_showPercent t m) (mztBsize_showPercent t m)
  have hr' : ShowsReader (showPercent t m).tape r := by
    rw [tape_showPercent]
    exact hr
  have hread : ShowsReader m₁.tape (r.read 400 ws t) := hr'.seekTword hmounted'.file t
  rw [heq]
  refine ⟨?_, hread, hmounted'.congr (core_seekTword t _) (mztBsize_seekTword t _)⟩
  have hbit := bitAt_lt m.mzMode (elapsed m)
  simp only [shiftLeft_and_ne_zero _ (show bitAt m.mzMode (elapsed m) < 32 by omega), hread.val]
  rfl

/-! ## polls one after the other -/

/-- What a poll depends on, apart from the time and the motor: the tape in
the deck, its reader and the mode of the machine. -/
def Machine.deck (m : Machine) : TapeBuf × Option (List UInt8) × Int × MzMode :=
  (m.tape, m.files tmpTapeDataPath, m.ts700.mztBsize, m.mzMode)

/-- What the machine does before a poll: anything that leaves the deck as
it is. -/
structure Interval where
  run : Machine → Machine
  deck_run : ∀ m, (run m).deck = m.deck

namespace Interval

/-- The machine after an interval and a poll, and the time of that poll. -/
def poll (i : Interval) (s : Machine × Int) : Machine × Int :=
  ((cmtRead (i.run s.1)).2, elapsed (i.run s.1))

/-- The tape plays on: time does not go back, the word under the head is
less than 400 words on, and it is a word of the tape. -/
def PlaysOn (s : Machine × Int) (i : Interval) : Prop :=
  let m := i.run s.1
  m.ts700.cmtTstates ≠ 0 ∧ s.2 ≤ elapsed m ∧
    wordAt m.mzMode (elapsed m) < wordAt m.mzMode s.2 + 400 ∧
    wordAt m.mzMode (elapsed m) < m.ts700.mztBsize

/-- The tape winds on, by any distance: time does not go back, and the word
under the head is a word of the tape. -/
def Winds (s : Machine × Int) (i : Interval) : Prop :=
  let m := i.run s.1
  m.ts700.cmtTstates ≠ 0 ∧ s.2 ≤ elapsed m ∧ wordAt m.mzMode (elapsed m) < m.ts700.mztBsize

/-- An interval that plays on does not wind back. -/
theorem PlaysOn.winds {s : Machine × Int} {i : Interval} (h : i.PlaysOn s) : i.Winds s :=
  ⟨h.1, h.2.1, h.2.2.2⟩

/-- The poll returns the bit of `ws` under the head. -/
def Returns (ws : List UInt32) (s : Machine × Int) (i : Interval) : Prop :=
  let m := i.run s.1
  (cmtRead m).1 = signal (ws.getD (wordAt m.mzMode (elapsed m)) 0) (bitAt m.mzMode (elapsed m))

/-- The poll is not for an even bit of the first word. -/
def PastPulse (s : Machine × Int) (i : Interval) : Prop :=
  let m := i.run s.1
  ¬ (wordAt m.mzMode (elapsed m) = 0 ∧ bitAt m.mzMode (elapsed m) % 2 = 0)

end Interval

/-- The invariant of playback: the reader stands at the word under the
head, and hears nothing as long as it has not read anything. -/
structure Playing (ws : List UInt32) (s : Machine × Int) : Prop where
  mounted : Mounted ws s.1
  time : 0 ≤ s.2
  reader : ∃ r : Reader UInt32, ShowsReader s.1.tape r ∧ r.pos = wordAt s.1.mzMode s.2 ∧
    r.Forward ws ∧ (r.Fresh → r.val = 0)

/-- The even bits of the first word of a leader are ones, the odd ones
zeros. -/
theorem signal_leader {k : Nat} (hk : k < 27) :
    signal 0 k = signal 0xAAAAAAA0 k ↔ ¬ k % 2 = 0 := by
  revert k
  decide

/-- The tape goes forward as time does. -/
theorem wordAt_mono (mode : MzMode) {e e' : Int} (h : e ≤ e') : wordAt mode e ≤ wordAt mode e' := by
  have hpos := calcParam_pos mode
  have hdiv := Int.ediv_le_ediv (show 0 < 27 * calcParam mode by omega) h
  simp only [wordAt]
  omega

/-- What a poll finds, and what it leaves. -/
theorem Playing.poll_spec {ws : List UInt32} {s : Machine × Int} (h : Playing ws s) {i : Interval}
    (hi : i.Winds s) : ∃ (r : Reader UInt32) (t : Nat), t = wordAt s.1.mzMode (elapsed (i.run s.1)) ∧
      (i.run s.1).mzMode = s.1.mzMode ∧
      r.Forward ws ∧ (r.Fresh → r.val = 0) ∧ r.pos = wordAt s.1.mzMode s.2 ∧ r.pos ≤ t ∧
      t < ws.length ∧ ShowsReader (i.run s.1).tape r ∧
      (cmtRead (i.run s.1)).1 =
        signal (r.read 400 ws t).val (bitAt s.1.mzMode (elapsed (i.run s.1))) ∧
      ShowsReader (i.poll s).1.tape (r.read 400 ws t) ∧ Mounted ws (i.poll s).1 := by
  obtain ⟨hplay, hmono, hword⟩ := hi
  obtain ⟨r, hr, hpos, hforward, hzero⟩ := h.reader
  obtain ⟨htape, hfile, hsize, hmode⟩ : (i.run s.1).tape = s.1.tape ∧
      (i.run s.1).files tmpTapeDataPath = s.1.files tmpTapeDataPath ∧
      (i.run s.1).ts700.mztBsize = s.1.ts700.mztBsize ∧ (i.run s.1).mzMode = s.1.mzMode := by
    simpa [Machine.deck] using i.deck_run s.1
  have hmounted : Mounted ws (i.run s.1) :=
    ⟨hfile.trans h.mounted.file, hsize.trans h.mounted.size⟩
  rw [hmounted.size, Int.ofNat_lt] at hword
  obtain ⟨hsignal, hshows, hnext⟩ := cmtRead_playing hmounted (htape ▸ hr) hplay
    (Int.le_trans h.time hmono) hword
  rw [hmode] at hword hsignal hshows
  refine ⟨r, _, rfl, hmode, hforward, hzero, hpos, ?_, hword, htape ▸ hr, hsignal, hshows, hnext⟩
  rw [hpos]
  exact wordAt_mono s.1.mzMode hmono

/-- Playback goes on when the poll is for a word less than 400 words past
the window. -/
theorem Playing.poll_of_near {ws : List UInt32} {s : Machine × Int} (h : Playing ws s)
    {i : Interval} (hi : i.Winds s)
    (hnear : wordAt s.1.mzMode (elapsed (i.run s.1)) < (i.run s.1).tape.readTword + 400) :
    Playing ws (i.poll s) := by
  obtain ⟨r, t, ht, hmode, hforward, hzero, -, hle, hlt, hr, -, hshows, hnext⟩ := h.poll_spec hi
  have hcore : (i.poll s).1.mzMode = (i.run s.1).mzMode :=
    congrArg Core.mzMode (core_cmtRead (i.run s.1))
  have hstep : t < r.next + 400 := by
    rw [hr.next, ← ht] at hnear
    omega
  refine ⟨hnext, Int.le_trans h.time hi.2.1, _, hshows, ?_, hforward.read hle hstep hlt, ?_⟩
  · rw [Reader.pos_read, hcore, hmode]
    exact ht
  · intro hfresh
    have ht0 : t = 0 := by rw [← hfresh.pos, Reader.pos_read]
    subst ht0
    obtain ⟨hfresh', hread⟩ := hforward.read_zero (Nat.le_zero.mp hle)
    rw [hread]
    exact hzero hfresh'

/-- A word less than 400 words on is less than 400 words past the window. -/
theorem Playing.near {ws : List UInt32} {s : Machine × Int} (h : Playing ws s) {i : Interval}
    (hi : i.PlaysOn s) :
    wordAt s.1.mzMode (elapsed (i.run s.1)) < (i.run s.1).tape.readTword + 400 := by
  obtain ⟨r, t, ht, hmode, hforward, -, hpos, -, -, hr, -⟩ := h.poll_spec hi.winds
  have hstep := hi.2.2.1
  rw [hmode, ← ht, ← hpos] at hstep
  have hnext := hforward.lt_next hstep
  rw [hr.next, ← ht]
  omega

/-- Playback goes on. -/
theorem Playing.poll {ws : List UInt32} {s : Machine × Int} (h : Playing ws s) {i : Interval}
    (hi : i.PlaysOn s) : Playing ws (i.poll s) :=
  h.poll_of_near hi.winds (h.near hi)

/-- A poll is right unless it is for an even bit of the first word. -/
theorem Playing.returns_iff {ws : List UInt32} {s : Machine × Int}
    (hfirst : ws[0]? = some 0xAAAAAAA0) (h : Playing ws s) {i : Interval} (hi : i.PlaysOn s) :
    i.Returns ws s ↔ i.PastPulse s := by
  obtain ⟨r, t, ht, hmode, hforward, hzero, -, hle, hlt, hr, hsignal, -⟩ := h.poll_spec hi.winds
  have hstep : t < r.next + 400 := by
    have hnear := h.near hi
    rw [hr.next, ← ht] at hnear
    omega
  simp only [Interval.Returns, Interval.PastPulse, hsignal, hmode, ← ht]
  rw [List.getD_eq_getElem?_getD]
  by_cases ht0 : t = 0
  · -- the reader takes the first word as read
    subst ht0
    obtain ⟨hfresh, hread⟩ := hforward.read_zero (Nat.le_zero.mp hle)
    rw [hread, hzero hfresh, hfirst, Option.getD_some, signal_leader (bitAt_lt _ _)]
    simp only [true_and]
  · rw [hforward.found hle hstep hlt ht0]
    simp only [Option.getD_some, ht0, false_and, not_false_eq_true]

/-! ## every run -/

/-- A mounted tape starts with the leader. -/
theorem mounted_first {mztFile : String} {m : Machine} (h : (setMztData mztFile m).1 = true) :
    Mounted (setMztData mztFile m).2.tapeImage (setMztData mztFile m).2 ∧
      (setMztData mztFile m).2.tapeImage[0]? = some 0xAAAAAAA0 := by
  cases hfile : m.files (mztPath mztFile) with
  | none =>
      rw [setMztData, hfile] at h
      cases h
  | some fd =>
      obtain ⟨ws, hwrote⟩ := exists_wrote_mztRecords fd (0, openTmpTapeData m)
      have hmounted := mounted_setMztData hfile hwrote
      rw [hmounted.tapeImage]
      exact ⟨hmounted, rfl⟩

/-- To flush the buffer does not move the reader. -/
theorem ShowsReader.flushTapeBuf {m : Machine} {r : Reader UInt32} (h : ShowsReader m.tape r) :
    ShowsReader (flushTapeBuf m).tape r := by
  unfold M5Z80.flushTapeBuf
  split
  · exact ⟨⟨h.start, h.next, h.buf⟩, h.pos, h.val⟩
  · exact h

/-- After mounting, the reader has not read anything. -/
theorem showsReader_setMztData {mztFile : String} {m : Machine}
    (h : (setMztData mztFile m).1 = true) :
    ∃ buf, ShowsReader (setMztData mztFile m).2.tape ⟨⟨0, 0, buf⟩, 0, 0⟩ := by
  cases hfile : m.files (mztPath mztFile) with
  | none =>
      rw [setMztData, hfile] at h
      cases h
  | some fd =>
      rw [setMztData_some hfile]
      generalize mztRecords fd (0, openTmpTapeData m) = s
      have hset : ShowsReader (setTape s.1 s.2).tape ⟨⟨0, 0, s.2.tape.tapeDataBuf⟩, 0, 0⟩ :=
        ⟨⟨rfl, rfl, rfl⟩, rfl, rfl⟩
      exact ⟨_, hset.flushTapeBuf⟩

/-- A tape that was just mounted is at its first word. -/
theorem playing_setMztData {mztFile : String} {m : Machine} (h : (setMztData mztFile m).1 = true) :
    Playing (setMztData mztFile m).2.tapeImage ((setMztData mztFile m).2, 0) := by
  obtain ⟨buf, hreader⟩ := showsReader_setMztData h
  refine ⟨(mounted_first h).1, Int.le_refl 0, _, hreader, ?_, .inr ⟨rfl, rfl, rfl⟩, fun _ => rfl⟩
  rw [wordAt, Int.zero_ediv]
  rfl

/-- Playback of a mounted tape: every poll returns the bit of the image
under the head exactly when no poll is for an even bit of the first word. -/
theorem playback_iff (mztFile : String) (m : Machine) (hmount : (setMztData mztFile m).1 = true)
    (ops : List Interval)
    (hplay : Run.Along Interval.poll (fun s i => i.PlaysOn s) ops ((setMztData mztFile m).2, 0)) :
    Run.Along Interval.poll (fun s i => i.Returns (setMztData mztFile m).2.tapeImage s) ops
        ((setMztData mztFile m).2, 0) ↔
      Run.Along Interval.poll (fun s i => i.PastPulse s) ops ((setMztData mztFile m).2, 0) :=
  Run.Along.congr (fun _ _ h hi => h.poll hi)
    (fun _ _ h hi => h.returns_iff (mounted_first hmount).2 hi) hplay (playing_setMztData hmount)

/-- The deck plays, and the tape has run for `n` T-states. -/
def playAt (n : Int32) : Interval where
  run m := { m with
    ts700.cpuTstates := n
    ts700.mztStart := 0
    ts700.mztElapse := 0
    ts700.cmtTstates := 1 }
  deck_run _ := rfl

/-- A machine with an empty file to mount. -/
def emptyFile : Machine := { Machine.cold with files := fun _ => some [] }

/-- The tape of an empty file is a leader. -/
theorem mztBsize_emptyFile : (setMztData "A.MZT" emptyFile).2.ts700.mztBsize = 450 := by
  have hshort : ([] : List UInt8).length < 128 := by decide
  have hfile : emptyFile.files (mztPath "A.MZT") = some (mztBytes [] []) := rfl
  have hmounted := mounted_setMztData hfile (wrote_mztRecords [] hshort _)
  have hlen : (tapeWords []).length = 450 := length_leader1
  rw [hmounted.size, hlen]
  rfl

/-- A poll for the first bit of the second word. -/
theorem playback_secondWord :
    Run.Along Interval.poll
      (fun s i => i.Returns (setMztData "A.MZT" emptyFile).2.tapeImage s) [playAt 20682]
      ((setMztData "A.MZT" emptyFile).2, 0) := by
  have hword : ∀ mode, wordAt mode 20682 = 1 := by
    intro mode
    cases mode <;> decide
  have hplays : (playAt 20682).PlaysOn ((setMztData "A.MZT" emptyFile).2, 0) := by
    refine ⟨by decide, by decide, ?_, ?_⟩
    · change wordAt _ 20682 < _
      rw [hword]
      omega
    · change (wordAt _ 20682 : Int) < (setMztData "A.MZT" emptyFile).2.ts700.mztBsize
      rw [hword, mztBsize_emptyFile]
      decide
  have hpast : (playAt 20682).PastPulse ((setMztData "A.MZT" emptyFile).2, 0) := by
    intro h
    exact absurd ((hword _).symm.trans h.1) (by decide)
  exact (playback_iff "A.MZT" emptyFile rfl [playAt 20682] ⟨hplays, trivial⟩).mpr ⟨hpast, trivial⟩

/-- The first poll of a tape returns zero, and its first bit is a one. -/
theorem not_playback : ¬ ∀ (mztFile : String) (m : Machine), (setMztData mztFile m).1 = true →
    ∀ ops : List Interval,
      Run.Along Interval.poll (fun s i => i.PlaysOn s) ops ((setMztData mztFile m).2, 0) →
      Run.Along Interval.poll (fun s i => i.Returns (setMztData mztFile m).2.tapeImage s) ops
        ((setMztData mztFile m).2, 0) := by
  intro h
  have hword : ∀ mode, wordAt mode 0 = 0 ∧ bitAt mode 0 = 0 := by
    intro mode
    cases mode <;> decide
  have hplays : (playAt 0).PlaysOn ((setMztData "A.MZT" emptyFile).2, 0) := by
    refine ⟨by decide, by decide, ?_, ?_⟩
    · change wordAt _ 0 < _
      rw [(hword _).1]
      omega
    · change (wordAt _ 0 : Int) < (setMztData "A.MZT" emptyFile).2.ts700.mztBsize
      rw [(hword _).1, mztBsize_emptyFile]
      decide
  have hmount : (setMztData "A.MZT" emptyFile).1 = true := rfl
  have hreturns := (h "A.MZT" emptyFile hmount [playAt 0] ⟨hplays, trivial⟩).1
  have hpast := ((playing_setMztData hmount).returns_iff (mounted_first hmount).2 hplays).mp hreturns
  refine hpast ⟨(hword _).1, ?_⟩
  rw [show elapsed ((playAt 0).run (setMztData "A.MZT" emptyFile).2) = 0 from rfl, (hword _).2]

end M5Z80
