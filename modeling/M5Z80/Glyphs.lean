import M5Z80.MonitorRom

/-!
# M5Z80.Glyphs

The character ROM and the PCG as `Mzscrn.cpp` has them: `font_load` fills
both from a file, and `update_scrn_thread` draws the 1000 cells of the video
RAM with glyphs of one or the other.
-/

namespace M5Z80

/-! ## the font file -/

/-- `DEFAULT_FONT_FILE`. -/
def defaultFontFile : String := "MZ700FON.JP"

/-- The path `font_load` opens. -/
def fontPath : String := romDirectory ++ "/" ++ defaultFontFile

/-- A byte of the file: line `line` of the glyph `dcode`.  The second half of
the first character set is the initial value of both halves of the PCG. -/
def fontByte (dcode line : Nat) (lineData : UInt8) (m : Machine) : Machine :=
  let m := { m with mzFont := Function.update m.mzFont (dcode * 8 + line) lineData }
  if 128 ≤ dcode ∧ dcode < 256 then
    let m := { m with
      pcg700Font := Function.update m.pcg700Font ((dcode &&& 0x7F) * 8 + line) lineData }
    { m with pcg700Font := Function.update m.pcg700Font (dcode * 8 + line) lineData }
  else m

/-- The inner loop of `font_load`, over the lines of a glyph, with the rest of
the file. -/
def fontGlyph (dcode : Nat) (s : List UInt8 × Machine) : List UInt8 × Machine :=
  (List.range 8).foldl (fun s line =>
    match s.1 with
    | [] => s
    | lineData :: fd => (fd, fontByte dcode line lineData s.2)) s

/-- `font_load`. -/
def fontLoad (m : Machine) : Int × Machine :=
  match m.files fontPath with
  | none => (-1, m)
  | some fd => (0, ((List.range (256 * 2)).foldl (fun s dcode => fontGlyph dcode s) (fd, m)).2)

/-! ## the screen -/

/-- The entries of `MZ700_COLOR`. -/
inductive Color
  | black | blue | red | magenta | green | cyan | yellow | white
deriving DecidableEq

/-- `MZ700_COLOR`. -/
def mz700Color : List Color := [.black, .blue, .red, .magenta, .green, .cyan, .yellow, .white]

/-- What a cell is drawn with: `c_bright` is green and `c_dark` is black. -/
structure ScreenCell where
  ch : UInt8
  chAttr : UInt8
  fontOffset : Nat
  fgColor : Color
  bgColor : Color

/-- A cell of the video RAM.  Only an MZ-700 has attributes; without them
`chAttr` keeps its value. -/
def readCell (chAttr : UInt8) (cx cy : Nat) (m : Machine) : ScreenCell :=
  let ch := m.mem (vidStart + cx + cy * 40)
  if m.mzMode = .mode700 then
    let chAttr := m.mem (vidStart + cx + cy * 40 + 0x800)
    { ch := ch
      chAttr := chAttr
      fontOffset := if chAttr &&& 0x80 = 0x80 then 0x100 else 0
      fgColor := mz700Color.getD ((chAttr >>> 4) &&& 0x07).toNat .white
      bgColor := mz700Color.getD (chAttr &&& 0x07).toNat .black }
  else { ch := ch, chAttr := chAttr, fontOffset := 0, fgColor := .green, bgColor := .black }

/-- What `fontPtr` points at. -/
def fontPtr (c : ScreenCell) (m : Machine) (line : Nat) : UInt8 :=
  if m.hw700.pcg700Mode = 0 ∨ c.ch &&& 0x80 = 0 then
    m.mzFont ((c.ch.toNat + c.fontOffset) * 8 + line)
  else if c.chAttr &&& 0x80 ≠ 0x80 then m.pcg700Font ((c.ch &&& 0x7F).toNat * 8 + line)
  else m.pcg700Font (c.ch.toNat * 8 + line)

/-- A cell as it is drawn: the eight bytes of its glyph and its colours. -/
structure Drawn where
  glyph : List UInt8
  fgColor : Color
  bgColor : Color
deriving DecidableEq

/-- A cell is drawn. -/
def drawCell (c : ScreenCell) (m : Machine) : Drawn where
  glyph := (List.range 8).map (fontPtr c m)
  fgColor := c.fgColor
  bgColor := c.bgColor

/-- The columns and rows of the screen, in the order they are drawn. -/
def screenCells : List (Nat × Nat) :=
  (List.range 25).flatMap fun cy => (List.range 40).map fun cx => (cx, cy)

/-- The loops over the cells. -/
def drawCells (m : Machine) : UInt8 → List (Nat × Nat) → List Drawn
  | _, [] => []
  | chAttr, (cx, cy) :: cells =>
      let c := readCell chAttr cx cy m
      drawCell c m :: drawCells m c.chAttr cells

/-- What a round of `update_scrn_thread` draws.  `chAttr` is the value it
finds in its variable. -/
def updateScrnThread (chAttr : UInt8) (m : Machine) : List Drawn := drawCells m chAttr screenCells

end M5Z80
