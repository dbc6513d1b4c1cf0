import M5Z80.Bounds
import M5Z80.Frame
import M5Z80.Glyphs

/-!
# M5Z80.PcgPicture

The picture with the PCG on and off.  The copy command of the PCG and the
screen agree on which byte of the character ROM each byte of the PCG stands
for; `font_load` fills the PCG from the first character set alone.
-/

namespace M5Z80

/-! ## what `font_load` leaves -/

/-- The byte of the font file that goes to a byte of the PCG. -/
def pcgFileIndex (j : Nat) : Nat := if j < 1024 then 1024 + j else j

/-- The machine when `i` bytes of the file have been read. -/
def fontRead (fd : List UInt8) (m : Machine) (i : Nat) : Machine :=
  { m with
    mzFont := fun j => if j < i then fd.getD j (m.mzFont j) else m.mzFont j
    pcg700Font := fun j => if j < 2048 ∧ pcgFileIndex j < i then
      fd.getD (pcgFileIndex j) (m.pcg700Font j) else m.pcg700Font j }

/-- The mask takes the character modulo 128. -/
theorem and_127 (n : Nat) : n &&& 0x7F = n % 128 := Nat.and_two_pow_sub_one_eq_mod n 7

section

variable {fd : List UInt8} {m : Machine}

/-- A byte that is read goes into the font. -/
theorem mzFont_fontRead_succ {i : Nat} (hlt : i < fd.length) :
    (fontRead fd m (i + 1)).mzFont = Function.update (fontRead fd m i).mzFont i fd[i] := by
  funext j
  by_cases hj : j = i
  · subst hj
    simp [fontRead, hlt]
  · have hle : j ≤ i ↔ j < i := by omega
    simp [fontRead, hj, Nat.lt_add_one_iff, hle]

/-- A byte of the first set's second half goes to both halves of the PCG. -/
theorem pcg700Font_fontRead_succ {i : Nat} (hlt : i < fd.length) (hlow : 1024 ≤ i)
    (hhigh : i < 2048) :
    (fontRead fd m (i + 1)).pcg700Font =
      Function.update (Function.update (fontRead fd m i).pcg700Font (i - 1024) fd[i]) i fd[i] := by
  funext j
  by_cases hj : j = i
  · subst hj
    have hindex : pcgFileIndex j = j := if_neg (by omega)
    simp [fontRead, hindex, hhigh, hlt]
  · by_cases hj' : j = i - 1024
    · have hindex : pcgFileIndex j = i := (if_pos (by omega)).trans (by omega)
      have hj2048 : j < 2048 := by omega
      rw [Function.update_of_ne hj, hj', Function.update_self, ← hj']
      simp [fontRead, hindex, hj2048, hlt]
    · have hindex : j < 2048 ∧ pcgFileIndex j ≤ i ↔ j < 2048 ∧ pcgFileIndex j < i := by
        rw [pcgFileIndex]
        split <;> omega
      simp [fontRead, hj, hj', Nat.lt_add_one_iff (n := i), hindex]

/-- A byte outside the upper half of the first set goes nowhere else. -/
theorem pcg700Font_fontRead_of_not {i : Nat} (h : ¬ (1024 ≤ i ∧ i < 2048)) :
    (fontRead fd m (i + 1)).pcg700Font = (fontRead fd m i).pcg700Font := by
  funext j
  have hindex : j < 2048 ∧ pcgFileIndex j ≤ i ↔ j < 2048 ∧ pcgFileIndex j < i := by
    rw [pcgFileIndex]
    split <;> omega
  simp [fontRead, Nat.lt_add_one_iff (n := i), hindex]

/-- A byte of the file takes `fontRead` one further. -/
theorem fontByte_fontRead {dcode line i : Nat} (hline : line < 8) (hi : dcode * 8 + line = i)
    (hlt : i < fd.length) :
    fontByte dcode line fd[i] (fontRead fd m i) = fontRead fd m (i + 1) := by
  rw [fontByte, and_127, hi]
  dsimp only
  rw [← mzFont_fontRead_succ hlt]
  by_cases hhalf : 128 ≤ dcode ∧ dcode < 256
  · have hlow : dcode % 128 * 8 + line = i - 1024 := by omega
    rw [if_pos hhalf, hlow, ← pcg700Font_fontRead_succ hlt (by omega) (by omega)]
    rfl
  · rw [if_neg hhalf, ← pcg700Font_fontRead_of_not (i := i) (by omega)]
    rfl

/-- Behind the end of the file nothing is read. -/
theorem fontRead_of_length_le {i : Nat} (h : fd.length ≤ i) :
    fontRead fd m (i + 1) = fontRead fd m i := by
  have hnone : fd[i]? = none := List.getElem?_eq_none h
  have hrom : (fontRead fd m (i + 1)).mzFont = (fontRead fd m i).mzFont := by
    funext j
    by_cases hj : j = i
    · subst hj
      simp [fontRead, hnone]
    · have hle : j ≤ i ↔ j < i := by omega
      simp [fontRead, Nat.lt_add_one_iff, hle]
  have hpcg : (fontRead fd m (i + 1)).pcg700Font = (fontRead fd m i).pcg700Font := by
    funext j
    by_cases hj : pcgFileIndex j = i
    · simp [fontRead, hj, hnone]
    · have hle : pcgFileIndex j ≤ i ↔ pcgFileIndex j < i := by omega
      simp [fontRead, Nat.lt_add_one_iff, hle]
  rw [fontRead, fontRead] at hrom hpcg ⊢
  dsimp only at hrom hpcg
  rw [hrom, hpcg]

/-- The body of the inner loop. -/
theorem fontGlyph_eq_foldl (dcode : Nat) :
    ∃ body : List UInt8 × Machine → Nat → List UInt8 × Machine,
      (∀ s, fontGlyph dcode s = (List.range 8).foldl body s) ∧
      (∀ m line, body ([], m) line = ([], m)) ∧
      ∀ lineData fd m line,
        body (lineData :: fd, m) line = (fd, fontByte dcode line lineData m) :=
  ⟨_, fun _ => rfl, fun _ _ => rfl, fun _ _ _ _ => rfl⟩

/-- The inner loop reads eight bytes, or what is left. -/
theorem fontGlyph_fontRead (dcode : Nat) :
    fontGlyph dcode (fd.drop (dcode * 8), fontRead fd m (dcode * 8)) =
      (fd.drop (dcode * 8 + 8), fontRead fd m (dcode * 8 + 8)) := by
  obtain ⟨body, hglyph, hnone, hsome⟩ := fontGlyph_eq_foldl dcode
  have hlines : ∀ n ≤ 8,
      (List.range n).foldl body (fd.drop (dcode * 8), fontRead fd m (dcode * 8)) =
        (fd.drop (dcode * 8 + n), fontRead fd m (dcode * 8 + n)) := by
    intro n
    induction n with
    | zero => intro _; rfl
    | succ n ih =>
        intro hn
        rw [List.range_succ, List.foldl_append, ih (Nat.le_of_succ_le hn), List.foldl_cons,
          List.foldl_nil, ← Nat.add_assoc]
        by_cases hlt : dcode * 8 + n < fd.length
        · rw [List.drop_eq_getElem_cons hlt, hsome, fontByte_fontRead hn rfl hlt]
        · have hnil : fd.drop (dcode * 8 + n) = [] := List.drop_eq_nil_of_le (by omega)
          have hnil' : fd.drop (dcode * 8 + n + 1) = [] := List.drop_eq_nil_of_le (by omega)
          rw [hnil, hnil', hnone, fontRead_of_length_le (Nat.not_lt.mp hlt)]
  rw [hglyph]
  exact hlines 8 (Nat.le_refl 8)

/-- `font_load` reads the file into the character ROM, and the second half of
its first set into both halves of the PCG. -/
theorem fontLoad_eq (h : m.files fontPath = some fd) : fontLoad m = (0, fontRead fd m 4096) := by
  have hglyphs : ∀ n, (List.range n).foldl (fun s dcode => fontGlyph dcode s) (fd, m) =
      (fd.drop (n * 8), fontRead fd m (n * 8)) := by
    intro n
    induction n with
    | zero =>
        simp [fontRead]
    | succ n ih =>
        rw [List.range_succ, List.foldl_append, ih, List.foldl_cons, List.foldl_nil,
          fontGlyph_fontRead, Nat.succ_mul]
  rw [fontLoad, h]
  dsimp only
  rw [hglyphs]

end

/-! ## the picture -/

/-- The machine with the PCG on or off. -/
def withPcg (pcg700Mode : UInt16) (m : Machine) : Machine :=
  { m with hw700.pcg700Mode := pcg700Mode }

/-- The glyphs that a round of the screen thread selects, cell by cell. -/
def glyphs (chAttr : UInt8) (m : Machine) : List (List UInt8) :=
  (updateScrnThread chAttr m).map Drawn.glyph

/-- The byte of the PCG behind a line of a character of the upper half. -/
def pcgIndex (ch chAttr : UInt8) (line : Nat) : Nat :=
  if chAttr &&& 0x80 = 0x80 then ch.toNat * 8 + line else ch.toNat % 128 * 8 + line

/-- The byte of the character ROM that a byte of the PCG stands for: the
upper half of the first set, then that of the second. -/
def romIndex (j : Nat) : Nat := if 1024 ≤ j then 2048 + j else 1024 + j

/-- Bit 7 is clear in characters below 128. -/
theorem bit7_eq_zero_iff (b : UInt8) : b &&& 0x80 = 0 ↔ b.toNat < 128 := by
  have hall : ∀ n < 256, UInt8.ofNat n &&& 0x80 = 0 ↔ n < 128 := by decide +kernel
  have hb := hall b.toNat b.toNat_lt
  rwa [UInt8.ofNat_toNat] at hb

theorem toNat_and_127 (b : UInt8) : (b &&& 0x7F).toNat = b.toNat % 128 := by
  rw [UInt8.toNat_and]
  exact and_127 b.toNat

/-- A glyph of the PCG has its index inside the 2K of its font. -/
theorem pcgIndex_lt (ch chAttr : UInt8) {line : Nat} (hline : line < 8) :
    pcgIndex ch chAttr line < 2048 := by
  have hlt := ch.toNat_lt
  rw [pcgIndex]
  split <;> omega

section

variable {m : Machine} (hmode : m.mzMode = .mode700)

include hmode

/-- A cell of an MZ-700 does not depend on the one before. -/
theorem readCell_mode700 (chAttr : UInt8) (cx cy : Nat) :
    readCell chAttr cx cy m = readCell 0 cx cy m := by
  rw [readCell, readCell, if_pos hmode, if_pos hmode]

/-- The cells are drawn one by one; none of them changes the machine. -/
theorem drawCells_mode700 (chAttr : UInt8) (cells : List (Nat × Nat)) :
    drawCells m chAttr cells = cells.map fun p => drawCell (readCell 0 p.1 p.2 m) m := by
  induction cells generalizing chAttr with
  | nil => rfl
  | cons p cells ih =>
      rw [drawCells, List.map_cons, readCell_mode700 hmode, ih]

/-- The attribute of a cell in the MZ-700 is in the second 2K of video RAM. -/
theorem chAttr_readCell (cx cy : Nat) :
    (readCell 0 cx cy m).chAttr = m.mem (vidStart + cx + cy * 40 + 0x800) := by
  rw [readCell, if_pos hmode]

omit hmode in
/-- The character of a cell. -/
theorem ch_readCell (cx cy : Nat) :
    (readCell 0 cx cy m).ch = m.mem (vidStart + cx + cy * 40) := by
  rw [readCell]
  split <;> rfl

/-- Bit 7 of the attribute takes the second set. -/
theorem fontOffset_readCell (cx cy : Nat) : (readCell 0 cx cy m).fontOffset =
    if (readCell 0 cx cy m).chAttr &&& 0x80 = 0x80 then 0x100 else 0 := by
  rw [readCell, if_pos hmode]

/-- With the PCG off a character of the upper half is at `romIndex` of its
place in the PCG. -/
theorem fontPtr_off (cx cy line : Nat) (hch : 128 ≤ (readCell 0 cx cy m).ch.toNat)
    (hline : line < 8) :
    fontPtr (readCell 0 cx cy m) (withPcg 0 m) line =
      m.mzFont (romIndex (pcgIndex (readCell 0 cx cy m).ch (readCell 0 cx cy m).chAttr line)) := by
  have hlt := (readCell 0 cx cy m).ch.toNat_lt
  rw [fontPtr, if_pos (.inl rfl), fontOffset_readCell hmode, pcgIndex, romIndex]
  change m.mzFont _ = _
  congr 1
  repeat' split
  all_goals omega

end

/-- With the PCG on it is there. -/
theorem fontPtr_on (c : ScreenCell) (m : Machine) {pcg700Mode : UInt16} (hon : pcg700Mode ≠ 0)
    (line : Nat) (hch : 128 ≤ c.ch.toNat) :
    fontPtr c (withPcg pcg700Mode m) line = m.pcg700Font (pcgIndex c.ch c.chAttr line) := by
  have hupper : ¬ (c.ch &&& 0x80 = 0) := fun h =>
    absurd ((bit7_eq_zero_iff _).mp h) (Nat.not_lt.mpr hch)
  have hpcg : ¬ ((withPcg pcg700Mode m).hw700.pcg700Mode = 0 ∨ c.ch &&& 0x80 = 0) :=
    not_or.mpr ⟨hon, hupper⟩
  rw [fontPtr, if_neg hpcg, pcgIndex, toNat_and_127, ite_not]
  split <;> rfl

/-- The lower half of a set is always in the character ROM. -/
theorem fontPtr_lower (c : ScreenCell) (m : Machine) (pcg700Mode : UInt16) (line : Nat)
    (hch : c.ch.toNat < 128) :
    fontPtr c (withPcg pcg700Mode m) line = fontPtr c (withPcg 0 m) line := by
  have hlower : c.ch &&& 0x80 = 0 := (bit7_eq_zero_iff _).mpr hch
  rw [fontPtr, fontPtr, if_pos (.inr hlower), if_pos (.inr hlower)]
  rfl

/-- The screen has 25 rows of 40 cells. -/
theorem mem_screenCells {cx cy : Nat} : (cx, cy) ∈ screenCells ↔ cy < 25 ∧ cx < 40 := by
  simp [screenCells]

/-- Every byte of the PCG behind a character of the upper half is the one of
the character ROM that it stands for. -/
def PcgShowsRom (m : Machine) : Prop :=
  ∀ cx < 40, ∀ cy < 25, 128 ≤ (readCell 0 cx cy m).ch.toNat → ∀ line < 8,
    m.pcg700Font (pcgIndex (readCell 0 cx cy m).ch (readCell 0 cx cy m).chAttr line) =
      m.mzFont (romIndex (pcgIndex (readCell 0 cx cy m).ch (readCell 0 cx cy m).chAttr line))

/-- On an MZ-700 the PCG changes nothing exactly when it shows the character
ROM. -/
theorem glyphs_eq_iff {m : Machine} (hmode : m.mzMode = .mode700) {pcg700Mode : UInt16}
    (hon : pcg700Mode ≠ 0) (chAttr : UInt8) :
    glyphs chAttr (withPcg pcg700Mode m) = glyphs chAttr (withPcg 0 m) ↔ PcgShowsRom m := by
  have hdrawn (v : UInt16) : glyphs chAttr (withPcg v m) = screenCells.map fun p =>
      (List.range 8).map (fontPtr (readCell 0 p.1 p.2 m) (withPcg v m)) := by
    have hmode' : (withPcg v m).mzMode = .mode700 := hmode
    rw [glyphs, updateScrnThread, drawCells_mode700 hmode', List.map_map]
    rfl
  rw [hdrawn, hdrawn, List.map_inj_left, PcgShowsRom]
  simp only [List.map_inj_left, List.mem_range]
  constructor
  · intro h cx hcx cy hcy hch line hline
    rw [← fontPtr_on _ m hon line hch, ← fontPtr_off hmode cx cy line hch hline]
    exact h (cx, cy) (mem_screenCells.mpr ⟨hcy, hcx⟩) line hline
  · rintro h ⟨cx, cy⟩ hcell line hline
    obtain ⟨hcy, hcx⟩ := mem_screenCells.mp hcell
    obtain hch | hch := Nat.lt_or_ge (readCell 0 cx cy m).ch.toNat 128
    · exact fontPtr_lower _ m pcg700Mode line hch
    · rw [fontPtr_on _ m hon line hch, fontPtr_off hmode cx cy line hch hline]
      exact h cx hcx cy hcy hch line hline

/-! ## a fresh PCG -/

/-- The glyphs of the upper half of the second set are those of the first,
for the characters that a screen shows in the second. -/
def SecondSetLikeFirst (fd : List UInt8) (m : Machine) : Prop :=
  ∀ cx < 40, ∀ cy < 25,
    let ch := m.mem (vidStart + cx + cy * 40)
    let chAttr := m.mem (vidStart + cx + cy * 40 + 0x800)
    128 ≤ ch.toNat → chAttr &&& 0x80 = 0x80 → ∀ line < 8,
      fd[ch.toNat * 8 + line]? = fd[(ch.toNat + 256) * 8 + line]?

section

variable {fd : List UInt8} (hlength : fd.length = 4096)

include hlength

/-- The font in ROM is the file. -/
theorem mzFont_fontRead (m : Machine) {i : Nat} (hi : i < 4096) :
    some ((fontRead fd m 4096).mzFont i) = fd[i]? := by
  simp [fontRead, hi, hlength]

/-- The font of the PCG is a part of the file, twice its upper half. -/
theorem pcg700Font_fontRead (m : Machine) {j : Nat} (hj : j < 2048) :
    some ((fontRead fd m 4096).pcg700Font j) = fd[pcgFileIndex j]? := by
  have hindex : pcgFileIndex j < 4096 := by
    rw [pcgFileIndex]
    split <;> omega
  simp [fontRead, hj, hindex, hlength]

/-- A byte of the PCG behind a character of the first set is the one of the
character ROM; in the second set it is where the file has the glyph twice. -/
theorem pcgByte_fontRead_iff (m : Machine) (ch chAttr : UInt8) {line : Nat} (hline : line < 8)
    (hch : 128 ≤ ch.toNat) :
    (fontRead fd m 4096).pcg700Font (pcgIndex ch chAttr line) =
        (fontRead fd m 4096).mzFont (romIndex (pcgIndex ch chAttr line)) ↔
      (chAttr &&& 0x80 = 0x80 → fd[ch.toNat * 8 + line]? = fd[(ch.toNat + 256) * 8 + line]?) := by
  have hlt := pcgIndex_lt ch chAttr hline
  have hrange : romIndex (pcgIndex ch chAttr line) < 4096 := by
    rw [romIndex]
    split <;> omega
  rw [← Option.some_inj, pcg700Font_fontRead hlength m hlt, mzFont_fontRead hlength m hrange]
  by_cases hset : chAttr &&& 0x80 = 0x80
  · have hindex : pcgIndex ch chAttr line = ch.toNat * 8 + line := if_pos hset
    have hfile : pcgFileIndex (ch.toNat * 8 + line) = ch.toNat * 8 + line := if_neg (by omega)
    have hrom : romIndex (ch.toNat * 8 + line) = (ch.toNat + 256) * 8 + line :=
      (if_pos (by omega)).trans (by omega)
    rw [forall_prop_of_true hset, hindex, hfile, hrom]
  · have hlow : pcgIndex ch chAttr line < 1024 := by
      rw [pcgIndex, if_neg hset]
      omega
    have hfile : pcgFileIndex (pcgIndex ch chAttr line) = romIndex (pcgIndex ch chAttr line) :=
      (if_pos hlow).trans (if_neg (Nat.not_le.mpr hlow)).symm
    rw [hfile]
    exact iff_of_true rfl fun h => absurd h hset

/-- On a fresh PCG the two fonts differ where the file does. -/
theorem pcgShowsRom_fontRead_iff {m : Machine} (hmode : m.mzMode = .mode700) :
    PcgShowsRom (fontRead fd m 4096) ↔ SecondSetLikeFirst fd m := by
  refine forall_congr' fun cx => forall_congr' fun _ => forall_congr' fun cy =>
    forall_congr' fun _ => ?_
  rw [ch_readCell, chAttr_readCell (m := fontRead fd m 4096) hmode]
  dsimp only
  refine forall_congr' fun hch => ?_
  constructor
  · intro h hset line hline
    exact (pcgByte_fontRead_iff hlength m _ _ hline hch).mp (h line hline) hset
  · intro h line hline
    exact (pcgByte_fontRead_iff hlength m _ _ hline hch).mpr fun hset => h hset line hline

end

/-- Right after `font_load` has read a font of 4096 bytes, the picture of an
MZ-700 with the PCG on is the one with the PCG off exactly when, for each
character of the upper half that it shows in the second set, the file has the
same glyph in both sets. -/
theorem glyphs_fontLoad_iff {fd : List UInt8} {m : Machine} (hfile : m.files fontPath = some fd)
    (hlength : fd.length = 4096) (hmode : m.mzMode = .mode700) {pcg700Mode : UInt16}
    (hon : pcg700Mode ≠ 0) (chAttr : UInt8) :
    glyphs chAttr (withPcg pcg700Mode (fontLoad m).2) =
        glyphs chAttr (withPcg 0 (fontLoad m).2) ↔
      SecondSetLikeFirst fd m := by
  have hmode' : (fontRead fd m 4096).mzMode = .mode700 := hmode
  rw [fontLoad_eq hfile]
  exact (glyphs_eq_iff hmode' hon chAttr).trans (pcgShowsRom_fontRead_iff hlength hmode)

/-- A machine with this font, and this byte in every place of its memory. -/
def withFont (fd : List UInt8) (b : UInt8) : Machine :=
  { Machine.cold with
    mzMode := .mode700
    files := fun path => if path = fontPath then some fd else none
    mem := fun _ => b }

/-- The font file is there. -/
theorem files_withFont (fd : List UInt8) (b : UInt8) : (withFont fd b).files fontPath = some fd := by
  simp [withFont]

/-- A font with the same upper half in both sets. -/
def twinFont : List UInt8 :=
  List.replicate 1024 0x00 ++ List.replicate 1024 0x18 ++
    (List.replicate 1024 0x3C ++ List.replicate 1024 0x18)

/-- A screen full of a character of the upper half in the second set, whose glyphs are
those of the first. -/
theorem glyphs_fontLoad_twin :
    let m := withFont twinFont 0x80
    glyphs 0 (withPcg 1 (fontLoad m).2) = glyphs 0 (withPcg 0 (fontLoad m).2) := by
  have hlength : twinFont.length = 4096 := by
    simp only [twinFont, List.length_append, List.length_replicate]
  have htwins : ∀ line < 8, twinFont[(0x80 : UInt8).toNat * 8 + line]? =
      twinFont[((0x80 : UInt8).toNat + 256) * 8 + line]? := by decide +kernel
  exact (glyphs_fontLoad_iff (files_withFont _ _) hlength rfl (by decide) 0).mpr
    fun _ _ _ _ _ _ line hline => htwins line hline

/-- A screen full of a character of the upper half in the second set, whose
glyphs are not those of the first. -/
theorem glyphs_fontLoad_second :
    let m := withFont (List.replicate 3072 0x00 ++ List.replicate 1024 0xFF) 0x80
    glyphs 0 (withPcg 1 (fontLoad m).2) ≠ glyphs 0 (withPcg 0 (fontLoad m).2) := by
  intro m heq
  have hlength : (List.replicate 3072 (0x00 : UInt8) ++ List.replicate 1024 0xFF).length =
      4096 := by
    rw [List.length_append, List.length_replicate, List.length_replicate]
  rw [fontLoad_eq (files_withFont _ _), glyphs_eq_iff rfl (by decide),
    pcgShowsRom_fontRead_iff hlength rfl] at heq
  have hbyte := heq 0 (by decide) 0 (by decide) (by decide) (by decide) 0 (by decide)
  have hch : (m.mem (vidStart + 0 + 0 * 40)).toNat = 128 := rfl
  rw [hch, List.getElem?_append_left (by rw [List.length_replicate]; decide),
    List.getElem?_append_right (by rw [List.length_replicate]), List.getElem?_replicate,
    List.getElem?_replicate, List.length_replicate] at hbyte
  revert hbyte
  decide

end M5Z80
