import M5Z80.FileList
import M5Z80.Lib.Run

/-!
# M5Z80.TapeMenu

`selectMzt` of `Mzmain.cpp` on the build with three buttons: the listing of
the tape files, the window of them that is drawn and the buttons.  Entry 0 is
`[BACK]`; DOWN goes from the last entry to it, UP from it to the last entry
but one.

The characters of a name are its bytes.  The machine that a selected file is
loaded into is not part of this module.
-/

namespace M5Z80

/-! ## the listing -/

/-- `MAX_FILES`. -/
def maxFiles : Nat := 255

/-- An entry of the tape directory. -/
structure DirEntry where
  name : String
  isDirectory : Bool

/-- `s.substring(s.lastIndexOf(c) + 1)`. -/
def afterLast (c : Char) (s : String) : String :=
  String.ofList (s.toList.reverse.takeWhile (· ≠ c)).reverse

/-- A file with one of these extensions is a tape. -/
def tapeExtensions : List String := ["MZT", "MZF", "M12"]

/-- The loop over the directory: the names go to `fileList` one after the
other, without a test against `MAX_FILES`. -/
def listFiles : List DirEntry → List String
  | [] => []
  | entry :: entries =>
      if entry.isDirectory then listFiles entries
      else
        let fileName := afterLast '/' entry.name
        let ext := (afterLast '.' fileName).toUpper
        if ext ∈ tapeExtensions then fileName :: listFiles entries else listFiles entries

/-! ## the menu -/

/-- `dispfileCount`. -/
def dispfileCount : Int := 12

/-- The menu.  `lines` are the lines on the screen, with the selected one
marked; `reads` are the indices at which `fileList` has been read, and `past`
is what memory holds at those that no file was listed at. -/
structure TapeMenu where
  fileList : List String
  past : Int → String
  startIndex : Int
  endIndex : Int
  selectIndex : Int
  needRedraw : Bool
  lines : List (String × Bool)
  reads : List Int
  returned : Option String

/-- The buttons A, B and C. -/
inductive MenuButton
  | up | select | down
deriving DecidableEq

namespace TapeMenu

/-- `fileListCount`. -/
def fileListCount (m : TapeMenu) : Int := m.fileList.length

/-- `fileList[i]`. -/
def file (i : Int) (m : TapeMenu) : String :=
  if 0 ≤ i then m.fileList.getD i.toNat (m.past i) else m.past i

/-- The window around the selected entry. -/
def window (m : TapeMenu) : Int × Int :=
  let startIndex := if m.selectIndex - 5 < 0 then 0 else m.selectIndex - 5
  let endIndex := startIndex + dispfileCount
  if endIndex > m.fileListCount then
    let endIndex := m.fileListCount
    let startIndex := endIndex - dispfileCount
    (if startIndex < 0 then 0 else startIndex, endIndex)
  else (startIndex, endIndex)

/-- The entries from `startIndex` to `endIndex`. -/
def drawn (w : Int × Int) : List Int :=
  (List.range (w.2 + 1 - w.1).toNat).map fun (i : Nat) => w.1 + i

/-- The text of an entry. -/
def line (index : Int) (m : TapeMenu) : String :=
  if index = 0 then "[BACK]" else String.ofList ((m.file (index - 1)).toList.take 26)

/-- The top of the loop. -/
def redraw (m : TapeMenu) : TapeMenu :=
  if m.needRedraw then
    let w := m.window
    { m with
      startIndex := w.1
      endIndex := w.2
      lines := (drawn w).map fun index => (m.line index, index = m.selectIndex)
      reads := ((drawn w).filter (· ≠ 0)).map (· - 1) ++ m.reads
      needRedraw := false }
  else m

/-- The buttons. -/
def press (b : MenuButton) (m : TapeMenu) : TapeMenu :=
  match b with
  | .select =>
      if m.selectIndex = 0 then { m with returned := some "" }
      else
        { m with
          reads := (m.selectIndex - 1) :: m.reads
          returned := some (m.file (m.selectIndex - 1)) }
  | .down =>
      let selectIndex := m.selectIndex + 1
      { m with
        selectIndex := if selectIndex > m.fileListCount then 0 else selectIndex
        needRedraw := true }
  | .up =>
      let selectIndex := m.selectIndex - 1
      { m with
        selectIndex := if selectIndex < 0 then m.fileListCount - 1 else selectIndex
        needRedraw := true }

/-- A press of a button and the next turn of the loop, which the function
does not reach when it has returned. -/
def step (b : MenuButton) (m : TapeMenu) : TapeMenu :=
  match m.returned with
  | some _ => m
  | none => (m.press b).redraw

/-- The menu when its first turn has drawn it. -/
def start (past : Int → String) (fileList : List String) : TapeMenu :=
  redraw
    { fileList := fileList
      past := past
      startIndex := 0
      endIndex := if 10 > (fileList.length : Int) then fileList.length else 10
      selectIndex := 0
      needRedraw := true
      lines := []
      reads := []
      returned := none }

end TapeMenu

/-- `selectMzt`, up to the first turn of its loop: the names of the listing
are sorted. -/
def selectMzt (compareTo : String → String → Int) (fuel : Nat) (past : Int → String)
    (entries : List DirEntry) : Option TapeMenu :=
  (sortList compareTo fuel (listFiles entries)).map (TapeMenu.start past)

/-! ## one press -/

namespace TapeMenu

/-- The menu uses listed files only: there is a slot for each, an entry is
selected, it is in the window, and what has been read of `fileList` are
listed files. -/
structure ListedOnly (m : TapeMenu) : Prop where
  slots : m.fileList.length ≤ maxFiles
  selectIndex : 0 ≤ m.selectIndex ∧ m.selectIndex ≤ m.fileListCount
  window : m.startIndex ≤ m.selectIndex ∧ m.selectIndex ≤ m.endIndex
  reads : ∀ i ∈ m.reads, 0 ≤ i ∧ i < m.fileListCount

/-- The opposite button leads back. -/
def Undone (b : MenuButton) (m : TapeMenu) : Prop :=
  match b with
  | .up => ((m.step .up).step .down).selectIndex = m.selectIndex
  | .down => ((m.step .down).step .up).selectIndex = m.selectIndex
  | .select => True

/-- A press that turns neither at `[BACK]` nor at the last entry. -/
def StaysInside (b : MenuButton) (m : TapeMenu) : Prop :=
  m.returned = none → ¬ (b = .up ∧ m.selectIndex = 0) ∧
    ¬ (b = .down ∧ m.selectIndex = m.fileListCount)

/-- The entries between the first and the last of the window are drawn. -/
theorem mem_drawn {w : Int × Int} {i : Int} : i ∈ drawn w ↔ w.1 ≤ i ∧ i ≤ w.2 := by
  simp only [drawn, List.mem_map, List.mem_range]
  constructor
  · rintro ⟨k, hk, rfl⟩
    omega
  · rintro ⟨hfirst, hlast⟩
    exact ⟨(i - w.1).toNat, by omega, by omega⟩

/-- The window lies in the listing and has the selected entry in it. -/
theorem window_spec {m : TapeMenu} (h : 0 ≤ m.selectIndex ∧ m.selectIndex ≤ m.fileListCount) :
    0 ≤ m.window.1 ∧ m.window.1 ≤ m.selectIndex ∧ m.selectIndex ≤ m.window.2 ∧
      m.window.2 ≤ m.fileListCount := by
  simp only [window, dispfileCount]
  grind

section

variable (m : TapeMenu)

/-- To draw the list does not change it. -/
@[simp] theorem fileList_redraw : m.redraw.fileList = m.fileList := by
  rw [redraw]
  split <;> rfl

/-- To draw the list does not move the cursor. -/
@[simp] theorem selectIndex_redraw : m.redraw.selectIndex = m.selectIndex := by
  rw [redraw]
  split <;> rfl

@[simp] theorem returned_redraw : m.redraw.returned = m.returned := by
  rw [redraw]
  split <;> rfl

/-- The number of files is that of the list. -/
@[simp] theorem fileListCount_redraw : m.redraw.fileListCount = m.fileListCount := by
  rw [fileListCount, fileList_redraw, fileListCount]

end

/-- Drawing shows the selected entry and reads listed files. -/
theorem listedOnly_redraw {m : TapeMenu} (hslots : m.fileList.length ≤ maxFiles)
    (hselect : 0 ≤ m.selectIndex ∧ m.selectIndex ≤ m.fileListCount)
    (hreads : ∀ i ∈ m.reads, 0 ≤ i ∧ i < m.fileListCount) (hneed : m.needRedraw = true) :
    m.redraw.ListedOnly := by
  obtain ⟨hstart, hfirst, hlast, hend⟩ := window_spec hselect
  rw [redraw, if_pos hneed]
  refine ⟨hslots, hselect, ⟨hfirst, hlast⟩, fun i hi => ?_⟩
  obtain hi | hi := List.mem_append.mp hi
  · obtain ⟨index, hindex, rfl⟩ := List.mem_map.mp hi
    obtain ⟨hdrawn, hne⟩ := List.mem_filter.mp hindex
    have hrange := mem_drawn.mp hdrawn
    have hne' : index ≠ 0 := of_decide_eq_true hne
    change _ ∧ _ < m.fileListCount
    omega
  · exact hreads i hi

/-- A list that fits its array is drawn from the array only. -/
theorem ListedOnly.redraw {m : TapeMenu} (h : m.ListedOnly) : m.redraw.ListedOnly := by
  by_cases hneed : m.needRedraw = true
  · exact listedOnly_redraw h.slots h.selectIndex h.reads hneed
  · rw [TapeMenu.redraw, if_neg hneed]
    exact h

/-- SELECT reads the selected file, or nothing at `[BACK]`. -/
theorem ListedOnly.press_select {m : TapeMenu} (h : m.ListedOnly) :
    (m.press .select).ListedOnly := by
  by_cases hback : m.selectIndex = 0
  · rw [press, if_pos hback]
    exact ⟨h.slots, h.selectIndex, h.window, h.reads⟩
  · rw [press, if_neg hback]
    refine ⟨h.slots, h.selectIndex, h.window, List.forall_mem_cons.mpr ⟨?_, h.reads⟩⟩
    have hselect := h.selectIndex
    change _ ∧ _ < m.fileListCount
    omega

/-! ## the directions -/

/-- DOWN behind the last entry goes back to the first. -/
theorem selectIndex_press_down (m : TapeMenu) : (m.press .down).selectIndex =
    if m.selectIndex + 1 > m.fileListCount then 0 else m.selectIndex + 1 := rfl

/-- UP at the first entry goes to the number of files less one, which is one short. -/
theorem selectIndex_press_up (m : TapeMenu) : (m.press .up).selectIndex =
    if m.selectIndex - 1 < 0 then m.fileListCount - 1 else m.selectIndex - 1 := rfl

section

variable {m : TapeMenu} (h : m.returned = none)

include h

/-- To draw behind a press does not move the cursor. -/
theorem selectIndex_step (b : MenuButton) :
    (m.step b).selectIndex = (m.press b).selectIndex := by
  rw [step, h, selectIndex_redraw]

/-- A direction keeps the listing and does not return. -/
theorem step_direction {b : MenuButton} (hb : b ≠ .select) :
    (m.step b).returned = none ∧ (m.step b).fileListCount = m.fileListCount := by
  rw [step, h, returned_redraw, fileListCount_redraw]
  cases b with
  | up => exact ⟨h, rfl⟩
  | down => exact ⟨h, rfl⟩
  | select => exact absurd rfl hb

/-- A direction that selects an entry of the listing uses listed files only. -/
theorem listedOnly_step_iff (hok : m.ListedOnly) {b : MenuButton} (hb : b ≠ .select) :
    (m.step b).ListedOnly ↔
      0 ≤ (m.press b).selectIndex ∧ (m.press b).selectIndex ≤ m.fileListCount := by
  have hcount := (step_direction h hb).2
  constructor
  · intro hstep
    rw [← selectIndex_step h, ← hcount]
    exact hstep.selectIndex
  · intro hselect
    rw [step, h]
    cases b with
    | up => exact listedOnly_redraw hok.slots hselect hok.reads rfl
    | down => exact listedOnly_redraw hok.slots hselect hok.reads rfl
    | select => exact absurd rfl hb

/-- The entry that a direction and its opposite lead to. -/
theorem selectIndex_step_step {b b' : MenuButton} (hb : b ≠ .select) :
    ((m.step b).step b').selectIndex = ((m.step b).press b').selectIndex :=
  selectIndex_step (step_direction h hb).1 b'

/-- DOWN is in the listing, and undone but at the last entry. -/
theorem step_down_iff (hok : m.ListedOnly) :
    (m.step .down).ListedOnly ∧ m.Undone .down ↔ m.selectIndex ≠ m.fileListCount := by
  have hselect := hok.selectIndex
  have hne : MenuButton.down ≠ .select := by decide
  rw [listedOnly_step_iff h hok hne, Undone, selectIndex_step_step h hne, selectIndex_press_up,
    selectIndex_step h, (step_direction h hne).2, selectIndex_press_down]
  split_ifs <;> omega

/-- UP leaves the listing or is not undone at `[BACK]`. -/
theorem step_up_iff (hok : m.ListedOnly) :
    (m.step .up).ListedOnly ∧ m.Undone .up ↔ m.selectIndex ≠ 0 := by
  have hselect := hok.selectIndex
  have hne : MenuButton.up ≠ .select := by decide
  rw [listedOnly_step_iff h hok hne, Undone, selectIndex_step_step h hne, selectIndex_press_down,
    selectIndex_step h, (step_direction h hne).2, selectIndex_press_up]
  split_ifs <;> omega

end

/-- A press uses listed files only, and its opposite leads back, exactly when
it turns neither at `[BACK]` nor at the last entry. -/
theorem step_iff {m : TapeMenu} (hok : m.ListedOnly) (b : MenuButton) :
    (m.step b).ListedOnly ∧ m.Undone b ↔ m.StaysInside b := by
  cases h : m.returned with
  | some tape =>
      have hstep (b : MenuButton) : m.step b = m := by rw [step, h]
      refine iff_of_true ⟨by rwa [hstep], ?_⟩ fun hnone => ?_
      · cases b with
        | up => rw [Undone, hstep, hstep]
        | down => rw [Undone, hstep, hstep]
        | select => trivial
      · exact absurd (h.symm.trans hnone) (Option.some_ne_none tape)
  | none =>
      cases b with
      | up => simp [step_up_iff h hok, StaysInside, h]
      | down => simp [step_down_iff h hok, StaysInside, h]
      | select =>
          have hselect : (m.step .select).ListedOnly := by
            rw [step, h]
            exact hok.press_select.redraw
          simp [hselect, Undone, StaysInside]

/-! ## runs -/

/-- A list fits its array if it has no more files than the array has places. -/
theorem listedOnly_start_iff (past : Int → String) (fileList : List String) :
    (start past fileList).ListedOnly ↔ fileList.length ≤ maxFiles := by
  constructor
  · intro h
    have hslots := h.slots
    rwa [start, fileList_redraw] at hslots
  · intro hslots
    exact listedOnly_redraw hslots ⟨le_refl 0, Int.natCast_nonneg _⟩ (by simp) rfl

end TapeMenu

/-- `selectMzt` draws its menu, and from there presses use listed files only,
and are each undone by the opposite button, exactly when there is a slot for
every file and, until a press of SELECT, UP is not pressed at `[BACK]` nor
DOWN at the last entry. -/
theorem selectMzt_iff {compareTo : String → String → Int} (h : TotalOrder compareTo)
    (past : Int → String) (entries : List DirEntry) : ∃ fuel m,
      (∀ fuel' ≥ fuel, selectMzt compareTo fuel' past entries = some m) ∧
      ∀ presses : List MenuButton,
        (∀ pre, pre <+: presses → (Run.exec TapeMenu.step pre m).ListedOnly) ∧
            Run.Along TapeMenu.step (fun m b => m.Undone b) presses m ↔
          (listFiles entries).length ≤ maxFiles ∧
            Run.Along TapeMenu.step (fun m b => m.StaysInside b) presses m := by
  obtain ⟨fuel, sorted, hsorted, hreaches, -⟩ := exists_sortList h (listFiles entries)
  refine ⟨fuel, .start past sorted, fun fuel' hfuel => ?_, fun presses => ?_⟩
  · rw [selectMzt, hsorted fuel' hfuel, Option.map_some]
  · rw [← (BubbleSort.perm_of_reflTransGen hreaches).length_eq,
      ← TapeMenu.listedOnly_start_iff past, ← Run.along_step_iff, and_assoc, ← Run.along_and]
    exact and_congr_right fun hok => Run.along_congr (P := TapeMenu.ListedOnly)
      (fun _ b hm => TapeMenu.step_iff hm b) (fun _ _ _ hstep => hstep.1) presses hok

/-- A directory with one tape and one other file. -/
theorem selectMzt_one : ∃ fuel m,
    (∀ fuel' ≥ fuel, selectMzt strcmp fuel' (fun _ => "")
      [⟨"/tape/S-BASIC.mzt", false⟩, ⟨"/tape/README.txt", false⟩] = some m) ∧
    ∀ presses : List MenuButton,
      (∀ pre, pre <+: presses → (Run.exec TapeMenu.step pre m).ListedOnly) ∧
          Run.Along TapeMenu.step (fun m b => m.Undone b) presses m ↔
        (listFiles [⟨"/tape/S-BASIC.mzt", false⟩, ⟨"/tape/README.txt", false⟩]).length ≤ maxFiles ∧
          Run.Along TapeMenu.step (fun m b => m.StaysInside b) presses m :=
  selectMzt_iff totalOrder_strcmp _ _

/-- With no files UP at `[BACK]` selects entry -1, and SELECT then reads two
before the list. -/
theorem selectMzt_empty : ∃ m, selectMzt strcmp 1 (fun _ => "") [] = some m ∧
    (m.step .up).selectIndex = -1 ∧ ¬ (m.step .up).ListedOnly ∧
    -2 ∈ (Run.exec TapeMenu.step [.up, .select] m).reads := by
  refine ⟨TapeMenu.start (fun _ => "") [], rfl, rfl, fun h => ?_, by decide⟩
  exact absurd h.selectIndex.1 (by decide)

end M5Z80
