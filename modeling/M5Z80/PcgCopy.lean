import M5Z80.PcgPicture
import Mathlib.Data.List.Infix

/-!
# M5Z80.PcgCopy

The copy command of the PCG.  A strobe at `E012` reaches one byte of the PCG,
the one of its address; a copy gives it the byte of the character ROM that it
stands for, and nothing but a strobe changes the PCG.
-/

namespace M5Z80

/-! ## what does not reach the PCG -/

/-- A control word does not reach the font. -/
@[simp] theorem pcg700Font_modStat (i : Nat) (f : T8253Stat → T8253Stat) (m : Machine) :
    (modStat i f m).pcg700Font = m.pcg700Font := by
  simp only [modStat]
  split <;> rfl

@[simp] theorem pcg700Font_write8253Cw (cw : UInt32) (m : Machine) :
    (write8253Cw cw m).pcg700Font = m.pcg700Font := by
  simp only [write8253Cw, pcg700Font_modStat]

/-- A tick does not reach the font. -/
@[simp] theorem pcg700Font_pitCount (m : Machine) :
    (pitCount m).2.pcg700Font = m.pcg700Font := by
  simp only [pitCount]
  split <;> rfl

@[simp] theorem pcg700Font_showPercent (tword : Int) (m : Machine) :
    (showPercent tword m).pcg700Font = m.pcg700Font := by
  simp only [showPercent]
  split <;> rfl

@[simp] theorem pcg700Font_seekTword (tword : Int) (m : Machine) :
    (seekTword tword m).pcg700Font = m.pcg700Font := by
  simp only [seekTword]
  split <;> rfl

@[simp] theorem pcg700Font_endOfTape (m : Machine) :
    (endOfTape m).pcg700Font = m.pcg700Font := rfl

/-- A poll of the tape does not reach the font. -/
@[simp] theorem pcg700Font_cmtRead (m : Machine) :
    (cmtRead m).2.pcg700Font = m.pcg700Font := by
  simp only [cmtRead]
  split
  · rfl
  · split <;> simp

/-- The motor does not reach the font. -/
@[simp] theorem pcg700Font_motorEdge (m : Machine) :
    (motorEdge m).pcg700Font = m.pcg700Font := by
  simp only [motorEdge]
  split
  · split <;> rfl
  · rfl

@[simp] theorem pcg700Font_setLed (v : UInt8) (m : Machine) :
    (setLed v m).pcg700Font = m.pcg700Font := by
  simp only [setLed]
  split <;> rfl

@[simp] theorem pcg700Font_setLatches (v w : UInt8) (m : Machine) :
    (setLatches v w m).pcg700Font = m.pcg700Font := rfl

@[simp] theorem pcg700Font_setMotor (v : UInt8) (m : Machine) :
    (setMotor v m).pcg700Font = m.pcg700Font := rfl

/-- Port C does not reach the font. -/
@[simp] theorem pcg700Font_writePortC (val : UInt32) (m : Machine) :
    (writePortC val m).pcg700Font = m.pcg700Font := by
  simp only [writePortC, pcg700Font_setMotor]
  split <;> simp

@[simp] theorem pcg700Font_writePortCBit (val : UInt32) (m : Machine) :
    (writePortCBit val m).pcg700Font = m.pcg700Font := by
  simp only [writePortCBit]
  repeat' split
  all_goals simp

/-- The counters do not reach the font. -/
@[simp] theorem pcg700Font_writeCounter (no : Fin 3) (val : UInt32) (m : Machine) :
    (writeCounter no val m).pcg700Font = m.pcg700Font := by
  have hplay (m : Machine) : (play8253 m).pcg700Font = m.pcg700Font := rfl
  simp only [writeCounter]
  split <;> simp [hplay]

/-- No read of a register reaches the font. -/
theorem pcg700Font_mmioIn (addr : UInt32) (m : Machine) :
    (mmioIn addr m).2.pcg700Font = m.pcg700Font := by
  refine mmioIn_cases (P := fun q => q.2.pcg700Font = m.pcg700Font) addr m ?_ ?_ ?_ ?_
  · intro _; rfl
  · intro _; rfl
  · intro _; exact pcg700Font_cmtRead m
  · intro no; rfl

/-- Only a write to `E012` changes the PCG. -/
theorem pcg700Font_mmioOut {addr : UInt32} (haddr : addr ≠ 0xE012) (val : UInt32) (m : Machine) :
    (mmioOut addr val m).pcg700Font = m.pcg700Font := by
  refine mmioOut_cases_strobe (P := fun m' => m'.pcg700Font = m.pcg700Font) addr val m rfl
    (fun _ => pcg700Font_writePortC val m) (fun _ => pcg700Font_writePortCBit val m)
    (fun no => pcg700Font_writeCounter no val m) (fun _ => pcg700Font_write8253Cw val m)
    rfl rfl rfl (fun hstrobe => absurd hstrobe haddr) rfl

/-- The copy command is a write of E012. -/
theorem mmioOut_pcgControl (val : UInt32) (m : Machine) :
    mmioOut 0xE012 val m = writePcgControl val m := rfl

/-! ## strobes -/

/-- The byte of the PCG that its address selects. -/
def pcgAddress (m : Machine) : Nat := (m.hw700.pcg700Addr &&& 2047).toNat

/-- Bits 4 and 5 of a value for `E012`: a copy. -/
def CopyStrobe (val : UInt32) : Prop := val &&& (16 + 32) = 16 + 32

/-- Bit 4 alone: a write of the data byte. -/
def WriteStrobe (val : UInt32) : Prop := ¬ CopyStrobe val ∧ val &&& 16 ≠ 0

/-- The copy address is modulo 2K. -/
theorem toNat_and_2047 (a : UInt32) : (a &&& 2047).toNat = a.toNat % 2048 := by
  rw [UInt32.toNat_and]
  exact Nat.and_two_pow_sub_one_eq_mod a.toNat 11

/-- Bit 10 of an address tells the halves of the PCG apart. -/
theorem bit10_iff {a : UInt32} (h : a.toNat < 2048) : a &&& 1024 ≠ 0 ↔ 1024 ≤ a.toNat := by
  have hshift : a.toNat / 2 ^ 10 < 2 := by omega
  have hbit : (a.toNat &&& 1024) / 2 ^ 10 = a.toNat / 2 ^ 10 := by
    rw [Nat.and_div_two_pow]
    have hone : 1024 / 2 ^ 10 = 2 ^ 1 - 1 := rfl
    rw [hone, Nat.and_two_pow_sub_one_eq_mod]
    exact Nat.mod_eq_of_lt hshift
  have hmod : (a.toNat &&& 1024) % 2 ^ 10 = 0 := by
    rw [Nat.and_mod_two_pow]
    exact Nat.and_zero _
  rw [Ne, ← UInt32.toNat_inj, UInt32.toNat_and]
  change ¬ a.toNat &&& 1024 = 0 ↔ _
  omega

/-- The address that a strobe leaves. -/
theorem pcgAddress_mmioOut (val : UInt32) (m : Machine) : pcgAddress (mmioOut 0xE012 val m) =
    (((m.hw700.pcg700Addr &&& (0x00FF : UInt32)) ||| (val <<< 8)) &&& 2047).toNat := by
  rw [mmioOut_pcgControl, writePcgControl]
  dsimp only
  repeat' split
  all_goals rfl

/-- A copy. -/
theorem pcg700Font_copy {val : UInt32} (h : CopyStrobe val) (m : Machine) :
    (mmioOut 0xE012 val m).pcg700Font =
      Function.update m.pcg700Font (pcgAddress (mmioOut 0xE012 val m))
        (m.mzFont (romIndex (pcgAddress (mmioOut 0xE012 val m)))) := by
  rw [pcgAddress_mmioOut]
  generalize ha : ((m.hw700.pcg700Addr &&& (0x00FF : UInt32)) ||| (val <<< 8)) &&& 2047 = a
  have hlt : a.toNat < 2048 := by
    rw [← ha, toNat_and_2047]
    exact Nat.mod_lt _ (by decide)
  have hcopy : (writePcgControl val m).pcg700Font = Function.update m.pcg700Font a.toNat
      (m.mzFont (if a &&& 1024 ≠ 0 then 2048 + a.toNat else 1024 + a.toNat)) := by
    subst ha
    exact congrArg Machine.pcg700Font (if_pos h)
  rw [mmioOut_pcgControl, hcopy, romIndex]
  simp only [bit10_iff hlt]

/-- A write. -/
theorem pcg700Font_write {val : UInt32} (h : WriteStrobe val) (m : Machine) :
    (mmioOut 0xE012 val m).pcg700Font =
      Function.update m.pcg700Font (pcgAddress (mmioOut 0xE012 val m))
        m.hw700.pcg700Data.toUInt8 := by
  rw [pcgAddress_mmioOut, mmioOut_pcgControl]
  exact congrArg Machine.pcg700Font ((if_neg h.1).trans (if_pos h.2))

/-- Without bit 4 the PCG stays as it is. -/
theorem pcg700Font_of_not {val : UInt32} (hcopy : ¬ CopyStrobe val) (hwrite : ¬ WriteStrobe val)
    (m : Machine) : (mmioOut 0xE012 val m).pcg700Font = m.pcg700Font := by
  have hbit : ¬ val &&& 16 ≠ 0 := fun h => hwrite ⟨hcopy, h⟩
  have haddr : writePcgControl val m = { m with
      hw700.pcg700Addr := (m.hw700.pcg700Addr &&& (0x00FF : UInt32)) ||| (val <<< 8) } :=
    (if_neg hcopy).trans (if_neg hbit)
  rw [mmioOut_pcgControl, haddr]

/-- A strobe reaches no byte but the one of the address it leaves. -/
theorem pcg700Font_strobe_of_ne (val : UInt32) (m : Machine) {i : Nat}
    (h : i ≠ pcgAddress (mmioOut 0xE012 val m)) :
    (mmioOut 0xE012 val m).pcg700Font i = m.pcg700Font i := by
  by_cases hcopy : CopyStrobe val
  · rw [pcg700Font_copy hcopy, Function.update_of_ne h]
  · by_cases hwrite : WriteStrobe val
    · rw [pcg700Font_write hwrite, Function.update_of_ne h]
    · rw [pcg700Font_of_not hcopy hwrite]

/-! ## runs -/

/-- A byte of the PCG is the one of the character ROM that it stands for. -/
def ShowsRom (i : Nat) (m : Machine) : Prop := m.pcg700Font i = m.mzFont (romIndex i)

/-- No strobe writes the data byte. -/
def NoWriteStrobe : MmioStep → Prop
  | .write addr val => addr = 0xE012 → ¬ WriteStrobe val
  | _ => True

/-- In the run from `m`, copies reach every address of the PCG. -/
def CopiesAll (ops : List MmioStep) (m : Machine) : Prop :=
  ∀ i < 2048, ∃ pre val, pre ++ [.write 0xE012 val] <+: ops ∧ CopyStrobe val ∧
    pcgAddress (Run.exec MmioStep.apply (pre ++ [.write 0xE012 val]) m) = i

/-- No access to a register touches the core. -/
theorem core_apply (o : MmioStep) (m : Machine) : (o.apply m).core = m.core := by
  cases o with
  | read addr => exact core_mmioIn addr m
  | write addr val => exact core_mmioOut addr val m
  | tick => exact core_pitCount m

/-- The font in ROM is part of the core. -/
theorem mzFont_apply (o : MmioStep) (m : Machine) : (o.apply m).mzFont = m.mzFont :=
  congrArg Core.mzFont (core_apply o m)

/-- A copied byte shows the ROM. -/
theorem showsRom_copy {val : UInt32} (h : CopyStrobe val) (m : Machine) :
    ShowsRom (pcgAddress (mmioOut 0xE012 val m)) (mmioOut 0xE012 val m) := by
  have hrom : (mmioOut 0xE012 val m).mzFont = m.mzFont := mzFont_apply (.write 0xE012 val) m
  rw [ShowsRom, hrom, pcg700Font_copy h, Function.update_self]

/-- What has been restored stays so, unless a strobe writes the data byte. -/
theorem ShowsRom.apply {i : Nat} {m : Machine} (h : ShowsRom i m) {o : MmioStep}
    (ho : NoWriteStrobe o) : ShowsRom i (o.apply m) := by
  rw [ShowsRom, mzFont_apply]
  cases o with
  | read addr => rw [MmioStep.apply, pcg700Font_mmioIn, h]
  | tick => rw [MmioStep.apply, pcg700Font_pitCount, h]
  | write addr val =>
      rw [MmioStep.apply]
      by_cases haddr : addr = 0xE012
      · subst haddr
        by_cases hi : i = pcgAddress (mmioOut 0xE012 val m)
        · by_cases hcopy : CopyStrobe val
          · rw [pcg700Font_copy hcopy, ← hi, Function.update_self]
          · rw [pcg700Font_of_not hcopy (ho rfl), h]
        · rw [pcg700Font_strobe_of_ne val m hi, h]
      · rw [pcg700Font_mmioOut haddr, h]

/-- After copies to every address the PCG is the character ROM. -/
theorem showsRom_of_copiesAll {ops : List MmioStep} {m : Machine}
    (hops : ∀ o ∈ ops, NoWriteStrobe o) (hcopies : CopiesAll ops m) {i : Nat} (hi : i < 2048) :
    ShowsRom i (Run.exec MmioStep.apply ops m) := by
  obtain ⟨pre, val, ⟨post, rfl⟩, hcopy, haddr⟩ := hcopies i hi
  have hpost : ∀ o ∈ post, NoWriteStrobe o := fun o ho =>
    hops o (List.mem_append_right _ ho)
  have hafter : Run.Along MmioStep.apply (fun _ o => NoWriteStrobe o) post
      (Run.exec MmioStep.apply (pre ++ [.write 0xE012 val]) m) :=
    (Run.along_input_iff _ _).mpr hpost
  have hcopied : ShowsRom i (Run.exec MmioStep.apply (pre ++ [.write 0xE012 val]) m) := by
    rw [← haddr, Run.exec_append]
    exact showsRom_copy hcopy _
  rw [Run.exec_append]
  exact hafter.invariant (fun _ _ h ho => h.apply ho) hcopied

/-- No access to a register changes the mode of the machine. -/
theorem mzMode_exec (ops : List MmioStep) (m : Machine) :
    (Run.exec MmioStep.apply ops m).mzMode = m.mzMode :=
  Run.invariant (P := fun m' : Machine => m'.mzMode = m.mzMode)
    (fun m' o h => (congrArg Core.mzMode (core_apply o m')).trans h) ops rfl

/-- On an MZ-700, after any accesses with copies to every address of the PCG
and no write of the data byte, the picture with the PCG on is the one with
the PCG off, whatever the video RAM holds.  A single strobe changes no byte
of the PCG but the one of the address it leaves. -/
theorem glyphs_of_copiesAll {m : Machine} (hmode : m.mzMode = .mode700) {ops : List MmioStep}
    (hops : ∀ o ∈ ops, NoWriteStrobe o) (hcopies : CopiesAll ops m) :
    (∀ (mem : Nat → UInt8) (pcg700Mode : UInt16) (chAttr : UInt8), pcg700Mode ≠ 0 →
      let m' := { Run.exec MmioStep.apply ops m with mem := mem }
      glyphs chAttr (withPcg pcg700Mode m') = glyphs chAttr (withPcg 0 m')) ∧
    ∀ (m : Machine) (val : UInt32) (i : Nat), i ≠ pcgAddress (mmioOut 0xE012 val m) →
      (mmioOut 0xE012 val m).pcg700Font i = m.pcg700Font i := by
  refine ⟨?_, fun m val i h => pcg700Font_strobe_of_ne val m h⟩
  intro mem pcg700Mode chAttr hon m'
  have hmode' : m'.mzMode = .mode700 := (mzMode_exec ops m).trans hmode
  refine (glyphs_eq_iff hmode' hon chAttr).mpr fun cx _ cy _ _ line hline => ?_
  exact showsRom_of_copiesAll hops hcopies (pcgIndex_lt _ _ hline)

/-! ### a guest that copies everything -/

/-- The two writes that copy byte `i`. -/
def copyByte (i : Nat) : List MmioStep :=
  [.write 0xE011 (UInt32.ofNat (i % 256)), .write 0xE012 (48 ||| UInt32.ofNat (i / 256))]

/-- Copies in the order of the addresses. -/
def copyInOrder : List MmioStep := (List.range 2048).flatMap copyByte

/-- Every command of the copy in order is a copy command. -/
theorem copyStrobe_of_lt : ∀ i < 2048, CopyStrobe (48 ||| UInt32.ofNat (i / 256)) := by
  have hall : ∀ h < 8, (48 ||| UInt32.ofNat h) &&& (16 + 32) = 16 + 32 := by decide
  intro i hi
  exact hall (i / 256) (by omega)

/-- The low byte of the address comes from `E011`, the rest from `E012`. -/
theorem pcgAddress_copyByte {i : Nat} (hi : i < 2048) (m : Machine) :
    pcgAddress (Run.exec MmioStep.apply (copyByte i) m) = i := by
  have hlow (a lo : UInt32) : ((a &&& 0xFF00) ||| lo) &&& 0x00FF = lo &&& 0x00FF := by
    have hzero : (0xFF00 : UInt32).toNat &&& (0x00FF : UInt32).toNat = 0 := rfl
    rw [← UInt32.toNat_inj, UInt32.toNat_and, UInt32.toNat_or, UInt32.toNat_and, UInt32.toNat_and,
      Nat.and_or_distrib_right, Nat.and_assoc, hzero, Nat.and_zero, Nat.zero_or]
  have hcol : ∀ lo < 256, (UInt32.ofNat lo &&& (0x00FF : UInt32) &&& (2047 : UInt32)).toNat =
      lo := by decide +kernel
  have hrow : ∀ hi < 8, ((((48 : UInt32) ||| UInt32.ofNat hi) <<< 8) &&& (2047 : UInt32)).toNat =
      hi <<< 8 := by decide +kernel
  have hlt : i % 256 < 2 ^ 8 := Nat.mod_lt i (by decide)
  refine (pcgAddress_mmioOut _ _).trans ?_
  change ((((m.hw700.pcg700Addr &&& (0xFF00 : UInt32)) ||| UInt32.ofNat (i % 256)) &&&
    (0x00FF : UInt32) ||| (((48 : UInt32) ||| UInt32.ofNat (i / 256)) <<< 8)) &&&
      (2047 : UInt32)).toNat = i
  rw [hlow, UInt32.toNat_and, UInt32.toNat_or, Nat.and_or_distrib_right, ← UInt32.toNat_and,
    ← UInt32.toNat_and, hcol _ hlt, hrow _ (by omega), Nat.or_comm,
    ← Nat.shiftLeft_add_eq_or_of_lt hlt, Nat.shiftLeft_eq]
  omega

/-- Copied in order, every address of the PCG is copied. -/
theorem copiesAll_copyInOrder (m : Machine) : CopiesAll copyInOrder m := by
  intro i hi
  have hprefix : List.range (i + 1) <+: List.range 2048 := by
    rw [List.prefix_iff_eq_take, List.length_range, List.take_range, Nat.min_eq_left hi]
  refine ⟨(List.range i).flatMap copyByte ++ [.write 0xE011 (UInt32.ofNat (i % 256))],
    48 ||| UInt32.ofNat (i / 256), ?_, copyStrobe_of_lt i hi, ?_⟩
  · have hflat := hprefix.flatMap copyByte
    rw [List.range_succ, List.flatMap_append, List.flatMap_singleton] at hflat
    rw [List.append_assoc]
    exact hflat
  · rw [List.append_assoc, Run.exec_append]
    exact pcgAddress_copyByte hi _

/-- None of its commands writes a byte of the guest. -/
theorem noWriteStrobe_copyInOrder : ∀ o ∈ copyInOrder, NoWriteStrobe o := by
  intro o ho
  obtain ⟨i, hi, ho⟩ := List.mem_flatMap.mp ho
  rw [copyByte, List.mem_cons, List.mem_singleton] at ho
  obtain rfl | rfl := ho
  · exact fun h => absurd h (by decide)
  · exact fun _ hwrite => hwrite.1 (copyStrobe_of_lt i (List.mem_range.mp hi))

/-- After `copyInOrder` the picture is the one of the character ROM. -/
theorem glyphs_copyInOrder :
    let m := withFont [] 0x80
    (∀ (mem : Nat → UInt8) (pcg700Mode : UInt16) (chAttr : UInt8), pcg700Mode ≠ 0 →
      let m' := { Run.exec MmioStep.apply copyInOrder m with mem := mem }
      glyphs chAttr (withPcg pcg700Mode m') = glyphs chAttr (withPcg 0 m')) ∧
    ∀ (m : Machine) (val : UInt32) (i : Nat), i ≠ pcgAddress (mmioOut 0xE012 val m) →
      (mmioOut 0xE012 val m).pcg700Font i = m.pcg700Font i := by
  intro m
  have hmode : m.mzMode = .mode700 := rfl
  exact glyphs_of_copiesAll hmode noWriteStrobe_copyInOrder (copiesAll_copyInOrder m)

end M5Z80
