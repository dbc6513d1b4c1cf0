import M5Z80.Mounting

/-!
# M5Z80.FailedMount

Mounting a file that cannot be opened.  `set_mztData` ejects the tape then,
and leaves its position alone.  By that time it has opened the temporary
file for writing, which empties it, and its callers start the deck without
looking at the result.
-/

namespace M5Z80

/-! ## the deck -/

/-- The size of the tape, its position and the state of the motor are the
same in both machines. -/
structure PositionKept (m m' : Machine) : Prop where
  size : m'.ts700.mztBsize = m.ts700.mztBsize
  time : m'.ts700.mztStart = m.ts700.mztStart ∧ m'.ts700.mztElapse = m.ts700.mztElapse
  word : m'.tape.tapeData = m.tape.tapeData ∧ m'.tape.preTword = m.tape.preTword
  window : m'.tape.readTword = m.tape.readTword ∧ m'.tape.bufStartTword = m.tape.bufStartTword
  play : m'.ts700.cmtPlay = m.ts700.cmtPlay ∧ m'.ts700.cmtTstates = m.ts700.cmtTstates
  motor : m'.sysst.motor = m.sysst.motor

/-- All of the deck is the same, with the image and the flags of the tape. -/
structure DeckKept (m m' : Machine) : Prop extends PositionKept m m' where
  image : m'.files tmpTapeDataPath = m.files tmpTapeDataPath
  flags : m'.ts700.mztSettape = m.ts700.mztSettape ∧ m'.sysst.tape = m.sysst.tape

/-- The tape is out of the deck, and nothing else about it has changed. -/
structure Ejected (m m' : Machine) : Prop extends PositionKept m m' where
  flags : m'.ts700.mztSettape = 0 ∧ m'.sysst.tape = 0

/-- The deck plays from now on. -/
structure DeckStarted (m : Machine) : Prop where
  play : m.ts700.cmtPlay = 1
  running : m.ts700.cmtTstates = 1
  now : m.ts700.mztStart = m.ts700.cpuTstates

/-- Mounting `mztFile` leaves the deck as it is, and the caller that asked
for it does not start it. -/
structure MountIgnored (mztFile : String) (m : Machine) : Prop where
  kept : DeckKept m (setMztData mztFile m).2
  notStarted : ¬ DeckStarted (startTape mztFile m)

/-- The callers start the deck, whatever `set_mztData` returned. -/
theorem deckStarted_startTape (mztFile : String) (m : Machine) :
    DeckStarted (startTape mztFile m) :=
  ⟨rfl, rfl, rfl⟩

/-- No mount is ignored, whether it fails or not: the caller starts the deck. -/
theorem not_mountIgnored (mztFile : String) (m : Machine) : ¬ MountIgnored mztFile m :=
  fun h => h.notStarted (deckStarted_startTape mztFile m)

/-! ## a file that cannot be opened -/

section

variable {mztFile : String} {m : Machine} (h : m.files (mztPath mztFile) = none)
include h

/-- Everything a failed mount does. -/
theorem setMztData_none : setMztData mztFile m =
    (false, { openTmpTapeData m with ts700.mztSettape := 0, sysst.tape := 0 }) := by
  rw [setMztData, h]

/-- The position in the tape that was there before is not changed. -/
theorem positionKept_setMztData : PositionKept m (setMztData mztFile m).2 := by
  rw [setMztData_none h]
  exact ⟨rfl, ⟨rfl, rfl⟩, ⟨rfl, rfl⟩, ⟨rfl, rfl⟩, ⟨rfl, rfl⟩, rfl⟩

/-- A failed mount leaves all of the deck alone exactly when there was no
tape in it, and its image was empty. -/
theorem deckKept_setMztData_iff : DeckKept m (setMztData mztFile m).2 ↔
    m.files tmpTapeDataPath = some [] ∧ m.ts700.mztSettape = 0 ∧ m.sysst.tape = 0 := by
  have himage : (setMztData mztFile m).2.files tmpTapeDataPath = some [] := by
    simp only [setMztData_none h, openTmpTapeData, Function.update_self]
  have hflags : (setMztData mztFile m).2.ts700.mztSettape = 0 ∧
      (setMztData mztFile m).2.sysst.tape = 0 := by
    rw [setMztData_none h]
    exact ⟨rfl, rfl⟩
  constructor
  · intro hkept
    exact ⟨hkept.image.symm.trans himage, hkept.flags.1.symm.trans hflags.1,
      hkept.flags.2.symm.trans hflags.2⟩
  · rintro ⟨hempty, hsettape, htape⟩
    exact ⟨positionKept_setMztData h, himage.trans hempty.symm, hflags.1.trans hsettape.symm,
      hflags.2.trans htape.symm⟩

/-- Mounting a file that cannot be opened fails and ejects the tape. -/
theorem setMztData_ejects : (setMztData mztFile m).1 = false ∧ Ejected m (setMztData mztFile m).2 := by
  refine ⟨by rw [setMztData_none h], positionKept_setMztData h, ?_⟩
  rw [setMztData_none h]
  exact ⟨rfl, rfl⟩

end

/-! ### a tape in the deck -/

/-- A machine with a tape of one word in the deck, and no file to mount. -/
def noFile : Machine :=
  { Machine.cold with
    files := fun path => if path = tmpTapeDataPath then some [0xA0, 0xAA, 0xAA, 0xAA] else none
    ts700 := { T700Ts.zero with mztBsize := 1, mztSettape := 1 } }

/-- A file that is not there. -/
theorem setMztData_ejects_noFile :
    (setMztData "A.MZT" noFile).1 = false ∧ Ejected noFile (setMztData "A.MZT" noFile).2 :=
  setMztData_ejects (by decide)

/-- The deck loses its tape and its image, and is started. -/
theorem noFile_not_mountIgnored : noFile.files (mztPath "A.MZT") = none ∧
    ¬ DeckKept noFile (setMztData "A.MZT" noFile).2 ∧ ¬ MountIgnored "A.MZT" noFile := by
  have hnone : noFile.files (mztPath "A.MZT") = none := by decide
  refine ⟨hnone, fun hkept => ?_, not_mountIgnored "A.MZT" noFile⟩
  have htape := ((deckKept_setMztData_iff hnone).mp hkept).2.1
  exact absurd htape (by decide)

end M5Z80
