import M5Z80.Bus
import M5Z80.KeyRange
import M5Z80.Pressed

/-!
# M5Z80.HidMirror

The key matrix as a mirror of the HID keyboard.  `keyboard` remembers one
key, the one of the last report, and drives shift apart from it: no HID key
has the position of shift, so what is down is the key it remembers and shift
as the last report had it.
-/

namespace M5Z80

/-- The position of the first key of a report, if it has one. -/
def hidPositions (mode : MzMode) (key : UInt8) : Set Position :=
  {p | ∃ code ∈ (KeyTable.hidToEmu.entries mode)[key.toNat]?, p ∈ positions code}

/-- The position of shift, if the modifiers of a report include one. -/
def shiftPositions (mode : MzMode) (mods : UInt8) : Set Position :=
  {p | mods &&& 0x22 ≠ 0 ∧ p ∈ positions (shiftCode mode)}

/-! ## positions of HID keys -/

/-- No HID key is shift. -/
theorem hidToEmu_ne_shiftCode (mode : MzMode) :
    ∀ code ∈ KeyTable.hidToEmu.entries mode, code ≠ shiftCode mode := by
  have hall : (KeyTable.hidToEmu.entries mode).all (fun code => code ≠ shiftCode mode) = true := by
    cases mode <;> decide +kernel
  simpa only [List.all_eq_true, decide_eq_true_eq] using hall

/-- No HID key has the position of shift. -/
theorem notMem_positions_shiftCode (mode : MzMode) (key : UInt8) {p : Position}
    (h : p ∈ hidPositions mode key) : p ∉ positions (shiftCode mode) := by
  obtain ⟨code, hcode, hp⟩ := h
  intro hshift
  exact hidToEmu_ne_shiftCode mode code (List.mem_of_getElem? hcode)
    (code_eq_of_mem_positions hp hshift)

/-- The shift of a report is the shift key. -/
theorem shiftPositions_subset (mode : MzMode) (mods : UInt8) :
    shiftPositions mode mods ⊆ positions (shiftCode mode) := fun _ hp => hp.2

/-- The position of a key that `keyboard` looks up. -/
theorem hidPositions_eq {key : UInt8} {k : KeyMatrix} (h : 0 < key ∧ key < 232)
    (hok : HidKeyOk k.mode key) : hidPositions k.mode key = positions (k.entry .hidToEmu key) := by
  obtain ⟨hlt, -⟩ := (KeyMatrix.hidKeyOk_iff h).mpr hok
  ext p
  simp [hidPositions, k.entry_eq hlt]

/-- A key that `keyboard` leaves alone has none. -/
theorem hidPositions_eq_empty {key : UInt8} (h : ¬ (0 < key ∧ key < 232)) (mode : MzMode) :
    hidPositions mode key = ∅ := by
  rw [Set.eq_empty_iff_forall_notMem]
  rintro p ⟨code, hcode, hp⟩
  by_cases hzero : key = 0
  · subst hzero
    have hcode' : code = 0xFF := by
      cases mode <;> exact (Option.some.inj hcode).symm
    rw [mem_positions, hcode'] at hp
    have hrow := p.1.isLt
    have hbit := p.2.isLt
    change 255 = _ at hp
    omega
  · obtain ⟨hlt, -⟩ := List.getElem?_eq_some_iff.mp hcode
    rw [KeyTable.length_entries] at hlt
    have hpos : 0 < key := UInt8.pos_iff_ne_zero.mpr hzero
    have hlarge : 232 ≤ key.toNat := UInt8.le_iff_toNat_le.mp (UInt8.not_lt.mp fun hlt' =>
      h ⟨hpos, hlt'⟩)
    change key.toNat < 174 at hlt
    omega

/-! ## reports -/

namespace KeyInput

/-- What is down are the last key and some of shift. -/
structure Mirrors (s : KeyInput) (shift : Set Position) : Prop where
  pressed : s.pressed = hidPositions s.mode s.lastKey ∪ shift
  shift_subset : shift ⊆ positions s.shiftCode
  lastKey : HidKeyOk s.mode s.lastKey

/-- `reportShift` presses or releases the shift, and no other key. -/
theorem Mirrors.reportShift {s : KeyInput} {shift : Set Position} (h : s.Mirrors shift)
    (mods : UInt8) : (s.reportShift mods).Mirrors (shiftPositions s.mode mods) := by
  rw [KeyInput.reportShift]
  by_cases hmods : 0 < mods &&& 0x22
  · rw [if_pos hmods]
    have hmode := s.mode_keydown s.shiftCode
    have hshift : shiftPositions s.mode mods = positions s.shiftCode := by
      ext p
      exact and_iff_right (UInt8.pos_iff_ne_zero.mp hmods)
    refine ⟨?_, ?_, ?_⟩
    · rw [pressed_keydown, hmode, h.pressed, hshift, Set.union_assoc,
        Set.union_eq_right.mpr h.shift_subset]
      rfl
    · rw [KeyInput.shiftCode, hmode]
      exact shiftPositions_subset s.mode mods
    · rw [hmode]
      exact h.lastKey
  · rw [if_neg hmods]
    have hmode := s.mode_keyup s.shiftCode
    have hshift : shiftPositions s.mode mods = ∅ := by
      rw [Set.eq_empty_iff_forall_notMem]
      exact fun p hp => hmods (UInt8.pos_iff_ne_zero.mpr hp.1)
    have hkeep : hidPositions s.mode s.lastKey \ positions s.shiftCode = _ :=
      Disjoint.sdiff_eq_left (Set.disjoint_left.mpr fun _ hp =>
        notMem_positions_shiftCode s.mode s.lastKey hp)
    refine ⟨?_, ?_, ?_⟩
    · rw [pressed_keyup, hmode, h.pressed, hshift, Set.union_sdiff_distrib, hkeep,
        Set.sdiff_eq_empty.mpr h.shift_subset]
      rfl
    · rw [hshift]
      exact Set.empty_subset _
    · rw [hmode]
      exact h.lastKey

/-- The last key goes up and shift stays. -/
theorem Mirrors.pressed_releaseLast {s : KeyInput} {shift : Set Position} (h : s.Mirrors shift) :
    s.releaseLast.pressed = shift := by
  have hdisjoint : Disjoint shift (hidPositions s.mode s.lastKey) :=
    Set.disjoint_right.mpr fun _ hp hshift =>
      notMem_positions_shiftCode s.mode s.lastKey hp (h.shift_subset hshift)
  rw [releaseLast]
  by_cases hlast : 0 < s.lastKey ∧ s.lastKey < 232
  · have hlook : (s.look .hidToEmu s.lastKey).pressed = s.pressed := rfl
    rw [if_pos hlast, pressed_keyup, hlook, h.pressed, ← hidPositions_eq hlast h.lastKey,
      Set.union_sdiff_distrib, sdiff_self, hdisjoint.sdiff_eq_left]
    exact Set.empty_union shift
  · rw [if_neg hlast, h.pressed, hidPositions_eq_empty hlast, Set.empty_union]

/-- `reportShift` does not change the mode of the machine. -/
theorem mode_reportShift (mods : UInt8) (s : KeyInput) : (s.reportShift mods).mode = s.mode := by
  obtain ⟨k, hmode, heq⟩ := s.reportShift_eq mods
  rw [heq]
  exact hmode

/-- `pressNew` does not change it, either. -/
theorem mode_pressNew (keyCode : UInt8) (s : KeyInput) : (s.pressNew keyCode).mode = s.mode := by
  rw [pressNew]
  split
  · exact mode_keydown _ _
  · rfl

/-- `pressNew` leaves the last key. -/
theorem lastKey_pressNew (keyCode : UInt8) (s : KeyInput) :
    (s.pressNew keyCode).lastKey = s.lastKey := by
  rw [pressNew]
  split <;> rfl

/-- The key of a report goes down. -/
theorem pressed_pressNew {keyCode : UInt8} {s : KeyInput} (hok : HidKeyOk s.mode keyCode) :
    (s.pressNew keyCode).pressed = s.pressed ∪ hidPositions s.mode keyCode := by
  rw [pressNew]
  by_cases hkey : 0 < keyCode ∧ keyCode < 232
  · rw [if_pos hkey, pressed_keydown, hidPositions_eq hkey hok]
    rfl
  · rw [if_neg hkey, hidPositions_eq_empty hkey, Set.union_empty]

/-- So a whole report does not change it. -/
theorem mode_keyboard (mods keyCode : UInt8) (s : KeyInput) :
    (s.keyboard mods keyCode).mode = s.mode := by
  rw [keyboard]
  dsimp only
  split
  · rw [mode_pressNew]
    exact (mode_releaseLast _).trans (s.mode_reportShift mods)
  · exact s.mode_reportShift mods

/-- The mirror after a report: the key and the shift of that report. -/
theorem Mirrors.keyboard {s : KeyInput} {shift : Set Position} (h : s.Mirrors shift)
    (mods : UInt8) {keyCode : UInt8} (hok : HidKeyOk s.mode keyCode) :
    (s.keyboard mods keyCode).Mirrors (shiftPositions s.mode mods) ∧
      (s.keyboard mods keyCode).lastKey = keyCode := by
  have hshift := h.reportShift mods
  have hmode := s.mode_reportShift mods
  have hmode' := s.mode_keyboard mods keyCode
  rw [KeyInput.keyboard] at hmode' ⊢
  dsimp only at hmode' ⊢
  by_cases hnew : keyCode ≠ (s.reportShift mods).lastKey
  · rw [if_pos hnew] at hmode' ⊢
    have hrelease : ({ (s.reportShift mods).releaseLast with lastKey := keyCode }).mode = s.mode :=
      (mode_releaseLast _).trans hmode
    have hpressed : ({ (s.reportShift mods).releaseLast with lastKey := keyCode }).pressed =
        shiftPositions s.mode mods := hshift.pressed_releaseLast
    refine ⟨⟨?_, ?_, ?_⟩, lastKey_pressNew keyCode _⟩
    · rw [pressed_pressNew (by rwa [hrelease]), hpressed, lastKey_pressNew, hmode', hrelease,
        Set.union_comm]
    · rw [shiftCode, hmode']
      exact shiftPositions_subset s.mode mods
    · rwa [lastKey_pressNew, hmode']
  · rw [if_neg hnew]
    exact ⟨hshift, (not_not.mp hnew).symm⟩

/-! ### runs -/

/-- Every key up and no last key, as `mz_keyport_init` and the start of the
program leave them. -/
def keyportInit (s : KeyInput) : KeyInput :=
  { s with machine := releaseKeys s.machine, lastKey := 0 }

/-- A report: its modifiers and its first key. -/
abbrev report (r : UInt8 × UInt8) (s : KeyInput) : KeyInput := s.keyboard r.1 r.2

/-- `keyport_init` clears the matrix. -/
theorem pressed_keyportInit (s : KeyInput) : s.keyportInit.pressed = ∅ :=
  BitRows.low_allOnes

/-- The cleared matrix mirrors a report of no key. -/
theorem mirrors_keyportInit (s : KeyInput) : s.keyportInit.Mirrors ∅ where
  pressed := by
    have hnone : hidPositions s.keyportInit.mode s.keyportInit.lastKey = ∅ :=
      hidPositions_eq_empty (by decide : ¬ ((0 : UInt8) < 0 ∧ (0 : UInt8) < 232)) _
    rw [pressed_keyportInit, hnone, Set.union_empty]
  shift_subset := Set.empty_subset _
  lastKey := .inl rfl

/-- A run of reports keeps the mirror. -/
theorem mirrors_reports (s : KeyInput) {reports : List (UInt8 × UInt8)}
    (hok : ∀ r ∈ reports, HidKeyOk s.mode r.2) :
    ∃ shift, (Run.exec report reports s.keyportInit).Mirrors shift ∧
      (Run.exec report reports s.keyportInit).mode = s.mode := by
  have halong : Run.Along report (fun _ r => HidKeyOk s.mode r.2) reports s.keyportInit :=
    (Run.along_input_iff _ _).mpr hok
  refine Run.Along.invariant (P := fun s' : KeyInput => ∃ shift, s'.Mirrors shift ∧
    s'.mode = s.mode) ?_ halong ⟨∅, s.mirrors_keyportInit, rfl⟩
  rintro s' ⟨mods, key⟩ ⟨shift, hmirrors, hmode⟩ hkey
  rw [← hmode] at hkey
  exact ⟨_, (hmirrors.keyboard mods hkey).1, (s'.mode_keyboard mods key).trans hmode⟩

/-- After any reports whose first keys are zero, at least 232 or mapped, what
is down are the position of the last report's first key and, if and only if
its modifiers include a shift, the position of shift. -/
theorem pressed_reports (s : KeyInput) (reports : List (UInt8 × UInt8)) (mods key : UInt8)
    (hok : ∀ r ∈ reports ++ [(mods, key)], HidKeyOk s.mode r.2) :
    (Run.exec report (reports ++ [(mods, key)]) s.keyportInit).pressed =
      hidPositions s.mode key ∪ shiftPositions s.mode mods := by
  rw [List.forall_mem_append, List.forall_mem_singleton] at hok
  obtain ⟨shift, hmirrors, hmode⟩ := s.mirrors_reports hok.1
  have hkey : HidKeyOk (Run.exec report reports s.keyportInit).mode key := by
    rw [hmode]
    exact hok.2
  obtain ⟨hreport, hlast⟩ := hmirrors.keyboard mods hkey
  rw [Run.exec_append, Run.exec_cons, Run.exec_nil, hreport.pressed, hlast, mode_keyboard, hmode]

/-- Shift and A, then the two keys of one position, with no release between
any of them. -/
theorem pressed_reports_shared :
    (∀ r ∈ [((0x02 : UInt8), (4 : UInt8)), (0x02, 39)] ++ [(0x00, 49)],
      HidKeyOk (KeyInput.start (fun _ _ => 0) Machine.cold).mode r.2) ∧
    (Run.exec report ([(0x02, 4), (0x02, 39)] ++ [(0x00, 49)])
      (KeyInput.start (fun _ _ => 0) Machine.cold).keyportInit).pressed =
        hidPositions .mode700 49 ∪ shiftPositions .mode700 0x00 := by
  have hok : ∀ r ∈ [((0x02 : UInt8), (4 : UInt8)), (0x02, 39)] ++ [(0x00, 49)],
      HidKeyOk (KeyInput.start (fun _ _ => 0) Machine.cold).mode r.2 := by
    simp only [List.cons_append, List.nil_append, List.forall_mem_cons, List.not_mem_nil]
    refine ⟨.inr (.inr ⟨0x47, rfl, by decide⟩), .inr (.inr ⟨0x63, rfl, by decide⟩),
      .inr (.inr ⟨0x63, rfl, by decide⟩), fun _ h => h.elim⟩
  exact ⟨hok, pressed_reports _ [(0x02, 4), (0x02, 39)] 0x00 49 hok⟩

end KeyInput

end M5Z80
