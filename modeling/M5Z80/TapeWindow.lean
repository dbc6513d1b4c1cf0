import M5Z80.Mounting
import M5Z80.TapePlay

/-!
# M5Z80.TapeWindow

The index that `cmt_read` uses on `tapeDataBuf`.  A refill goes on where
the last one stopped and reads one block of 400 words, so the word under
the head is in the window exactly when it is less than a block past it.
How far the tape moves between two polls is up to the guest.
-/

namespace M5Z80

/-! ## the index of a poll -/

namespace Interval

/-- The poll uses no index on `tapeDataBuf` but one of its 400, and that of
a word which the last refill has read. -/
def InBuffer (s : Machine × Int) (i : Interval) : Prop :=
  let m' := (cmtRead (i.run s.1).untraced).2
  ∀ k, (Table.tapeDataBuf, k) ∈ m'.trace.used →
    0 ≤ k ∧ k < 400 ∧ m'.tape.bufStartTword + k < m'.tape.readTword

/-- The word under the head is less than 400 words past the window. -/
def Near (s : Machine × Int) (i : Interval) : Prop :=
  let m := i.run s.1
  wordAt m.mzMode (elapsed m) < m.tape.readTword + 400

/-- The interval, and a new trace. -/
def untraced (i : Interval) : Interval where
  run m := (i.run m).untraced
  deck_run := i.deck_run

end Interval

theorem trace_showPercent (tword : Int) (m : Machine) : (showPercent tword m).trace = m.trace := by
  unfold showPercent
  dsimp only
  split <;> rfl

/-- A poll of a tape that plays uses one index, and none for the word it
has read last. -/
theorem used_cmtRead {m : Machine} (hplay : m.ts700.cmtTstates ≠ 0) (he : 0 ≤ elapsed m)
    (hword : wordAt m.mzMode (elapsed m) < m.ts700.mztBsize) :
    (cmtRead m).2.trace.used =
      if m.tape.preTword ≠ wordAt m.mzMode (elapsed m) then
        (.tapeDataBuf, wordAt m.mzMode (elapsed m) - (cmtRead m).2.tape.bufStartTword) ::
          m.trace.used
      else m.trace.used := by
  have heq : (cmtRead m).2 = seekTword (wordAt m.mzMode (elapsed m))
      (showPercent (wordAt m.mzMode (elapsed m)) m) := by
    simp only [cmtRead, if_neg hplay, twordOf_eq _ he, if_neg (Int.not_le.mpr hword)]
  rw [heq, seekTword, tape_showPercent]
  split
  · rw [← trace_showPercent (wordAt m.mzMode (elapsed m)) m]
    rfl
  · rw [trace_showPercent]

/-! ## one poll -/

/-- The invariant of any playback: the reader stands at the word under the
head, and the window is no wider than a block. -/
structure Windowed (ws : List UInt32) (s : Machine × Int) : Prop extends Playing ws s where
  width : s.1.tape.readTword ≤ s.1.tape.bufStartTword + 400

namespace Windowed

variable {ws : List UInt32} {s : Machine × Int} (h : Windowed ws s) {i : Interval}
include h

/-- The reader that a poll finds has a window no wider than a block. -/
theorem width_reader {r : Reader UInt32} (hr : ShowsReader (i.run s.1).tape r) :
    r.next ≤ r.start + 400 := by
  have htape : (i.run s.1).tape = s.1.tape := congrArg Prod.fst (i.deck_run s.1)
  have hwidth := h.width
  rw [← htape, hr.next, hr.start] at hwidth
  omega

/-- Any playback goes on. -/
theorem poll (hi : i.Winds s) (hnear : i.Near s) : Windowed ws (i.poll s) := by
  obtain ⟨r, t, -, hmode, -, -, -, -, -, hr, -, hshows, -⟩ := h.poll_spec hi
  have hwidth := h.width_reader hr
  refine ⟨h.poll_of_near hi (hmode ▸ hnear), ?_⟩
  rw [hshows.next, hshows.start, Reader.read]
  split
  · omega
  · have hseek := Window.width_seek hwidth ws t
    simp only
    omega

/-- The index of a poll is in the buffer exactly when the word is near. -/
theorem inBuffer_iff (hi : i.Winds s) : i.InBuffer s ↔ i.Near s := by
  let m := i.untraced.run s.1
  obtain ⟨r, t, ht, hmode, hforward, -, -, hle, hlt, hr, -, hshows, -⟩ :=
    h.poll_spec (i := i.untraced) hi
  have hword : wordAt m.mzMode (elapsed m) = t := by
    rw [ht, show m.mzMode = s.1.mzMode from hmode]
  have hwinds : m.ts700.cmtTstates ≠ 0 ∧ s.2 ≤ elapsed m ∧
      (wordAt m.mzMode (elapsed m) : Int) < m.ts700.mztBsize := hi
  have hpre : m.tape.preTword = r.pos := hr.pos
  have hstart : (cmtRead m).2.tape.bufStartTword = (r.read 400 ws t).start := hshows.start
  have hnext : (cmtRead m).2.tape.readTword = (r.read 400 ws t).next := hshows.next
  have hnear : i.Near s ↔ t < r.next + 400 := by
    have hread : m.tape.readTword = r.next := hr.next
    change (wordAt m.mzMode (elapsed m) : Int) < m.tape.readTword + 400 ↔ _
    rw [hword, hread]
    omega
  have hused := used_cmtRead hwinds.1 (Int.le_trans h.time hwinds.2.1) hwinds.2.2
  rw [hword, hpre] at hused
  rw [hnear]
  change (∀ k, (Table.tapeDataBuf, k) ∈ (cmtRead m).2.trace.used → 0 ≤ k ∧ k < 400 ∧
    (cmtRead m).2.tape.bufStartTword + k < (cmtRead m).2.tape.readTword) ↔ _
  rw [hused, hstart, hnext]
  by_cases hsame : r.pos = t
  · -- the word of the last poll costs nothing
    rw [if_neg (by omega)]
    refine iff_of_true (fun k hk => ?_) (hforward.lt_next (by omega))
    cases hk
  · rw [if_pos (by omega)]
    have hstart_le : r.start ≤ t := Nat.le_trans hforward.start_le hle
    have hwidth := Window.width_seek (h.width_reader (i := i.untraced) hr) ws t
    have hlo := Window.start_seek_le hstart_le 400 ws
    rw [← Window.seek_covers_iff hstart_le hlt, Reader.read, if_neg hsame]
    have hone (k : Int) : (Table.tapeDataBuf, k) ∈
        [(Table.tapeDataBuf, (t : Int) - (r.toWindow.seek 400 ws t).start)] ↔
          k = t - (r.toWindow.seek 400 ws t).start := by
      simp
    change (∀ k, (Table.tapeDataBuf, k) ∈
      [(Table.tapeDataBuf, (t : Int) - (r.toWindow.seek 400 ws t).start)] → _) ↔ _
    simp only [hone, forall_eq]
    omega

end Windowed

/-! ## every run -/

/-- A tape that was just mounted has its first window in the buffer. -/
theorem windowed_setMztData {mztFile : String} {m : Machine}
    (h : (setMztData mztFile m).1 = true) :
    Windowed (setMztData mztFile m).2.tapeImage ((setMztData mztFile m).2, 0) := by
  obtain ⟨buf, hreader⟩ := showsReader_setMztData h
  refine ⟨playing_setMztData h, ?_⟩
  rw [hreader.next, hreader.start]
  change ((0 : Nat) : Int) ≤ (0 : Nat) + 400
  decide

/-- Playback of a mounted tape: every poll stays inside the words that are
in the buffer exactly when every poll is for a word less than 400 words
past the window it finds. -/
theorem tapeWindow_iff (mztFile : String) (m : Machine) (hmount : (setMztData mztFile m).1 = true)
    (ops : List Interval)
    (hwinds : Run.Along Interval.poll (fun s i => i.Winds s) ops ((setMztData mztFile m).2, 0)) :
    Run.Along Interval.poll (fun s i => i.InBuffer s) ops ((setMztData mztFile m).2, 0) ↔
      Run.Along Interval.poll (fun s i => i.Near s) ops ((setMztData mztFile m).2, 0) := by
  have hboth := Run.along_congr
    (fun s i (h : Windowed (setMztData mztFile m).2.tapeImage s) =>
      and_congr_right fun hi : i.Winds s => h.inBuffer_iff hi)
    (fun s i h hok => h.poll hok.1 ((h.inBuffer_iff hok.1).mp hok.2)) ops
    (windowed_setMztData hmount)
  rwa [Run.along_and, Run.along_and, and_iff_right hwinds, and_iff_right hwinds] at hboth

theorem mzMode_emptyFile : (setMztData "A.MZT" emptyFile).2.mzMode = .mode700 := by
  have hfile : emptyFile.files (mztPath "A.MZT") = some [] := rfl
  rw [mzMode_setMztData hfile]
  rfl

/-- A poll at `n` T-states. -/
theorem winds_playAt (m : Machine) (n : Int32) : (playAt n).Winds (m, 0) ↔
    0 ≤ (n - 0 + 0).toInt ∧ wordAt m.mzMode (n - 0 + 0).toInt < m.ts700.mztBsize := by
  have hplay : ((playAt n).run m).ts700.cmtTstates ≠ 0 := by
    change ¬ (1 : Int32) = 0
    decide
  exact and_iff_right hplay

/-- A first poll of the tape of an empty file. -/
theorem winds_emptyFile {n : Int32} (hn : 0 ≤ (n - 0 + 0).toInt)
    (hword : wordAt .mode700 (n - 0 + 0).toInt < 450) :
    (playAt n).Winds ((setMztData "A.MZT" emptyFile).2, 0) := by
  rw [winds_playAt, mzMode_emptyFile, mztBsize_emptyFile]
  exact ⟨hn, by omega⟩

/-- An interval that starts at the position 0 stays near while its word is in the window. -/
theorem near_playAt (m : Machine) (n : Int32) : (playAt n).Near (m, 0) ↔
    wordAt m.mzMode (n - 0 + 0).toInt < m.tape.readTword + 400 := Iff.rfl

/-- The first window of an empty file is of 400 words. -/
theorem near_emptyFile_iff (n : Int32) :
    (playAt n).Near ((setMztData "A.MZT" emptyFile).2, 0) ↔
      wordAt .mode700 (n - 0 + 0).toInt < 400 := by
  have hmount : (setMztData "A.MZT" emptyFile).1 = true := rfl
  obtain ⟨buf, hreader⟩ := showsReader_setMztData hmount
  have hnext : (setMztData "A.MZT" emptyFile).2.tape.readTword = 0 := hreader.next
  rw [near_playAt, mzMode_emptyFile, hnext]
  omega

/-- A first poll for the second word. -/
theorem tapeWindow_secondWord :
    Run.Along Interval.poll (fun s i => i.InBuffer s) [playAt 20682]
      ((setMztData "A.MZT" emptyFile).2, 0) :=
  (tapeWindow_iff "A.MZT" emptyFile rfl [playAt 20682]
    ⟨winds_emptyFile (by decide) (by decide), trivial⟩).mpr
    ⟨(near_emptyFile_iff 20682).mpr (by decide), trivial⟩

/-- A guest that first polls at word 420 of 450 reads past the window, which
ends at word 400. -/
theorem not_tapeWindow : ¬ ∀ (mztFile : String) (m : Machine), (setMztData mztFile m).1 = true →
    ∀ ops : List Interval,
      Run.Along Interval.poll (fun s i => i.Winds s) ops ((setMztData mztFile m).2, 0) →
      Run.Along Interval.poll (fun s i => i.InBuffer s) ops ((setMztData mztFile m).2, 0) := by
  intro h
  have hwinds : (playAt 8686440).Winds ((setMztData "A.MZT" emptyFile).2, 0) :=
    winds_emptyFile (by decide) (by decide)
  have hbuffer := (h "A.MZT" emptyFile rfl [playAt 8686440] ⟨hwinds, trivial⟩).1
  have hnear := ((windowed_setMztData rfl).inBuffer_iff hwinds).mp hbuffer
  exact absurd ((near_emptyFile_iff 8686440).mp hnear) (by decide)

end M5Z80
