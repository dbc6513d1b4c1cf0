import M5Z80.Bus
import M5Z80.Lib.Run

/-!
# M5Z80.Channels

The three channels of the 8253 as the guest accesses them.  An access
changes the channel it names and no other one, and does to it what it would
do to any channel in that state.  The channels are copies of one machine up
to their state after a reset: `pit_init` leaves out channel 2, which has no
access format before its first control word.
-/

namespace M5Z80

/-! ## accesses -/

/-- An access to a channel: a read or a write of its counter register, or
the six bits of a control word below the channel number. -/
inductive PitAccess
  | read
  | write (val : UInt32)
  | control (cw : UInt32)

/-- The control word for a channel. -/
def controlWord (no : Fin 3) (cw : UInt32) : UInt32 := (no.val.toUInt32 <<< 6) ||| (cw &&& 0x3F)

/-- What `write_8253_cw` decodes from a control word. -/
def decodeControl (cw : UInt32) (dat : T8253Dat) : T8253Dat :=
  { dat with
    bcd := (cw &&& 1).toUInt8
    m := ((cw >>> 1) &&& 7).toUInt8
    rl := ((cw >>> 4) &&& 3).toUInt8
    sc := ((cw >>> 6) &&& 3).toUInt8 }

namespace PitAccess

/-- The access to channel `no` through its registers: the values it reads,
and the machine after it. -/
def run (no : Fin 3) : PitAccess → Machine → List Int × Machine
  | .read, m => ([(mmioIn (0xE004 + no.val.toUInt32) m).1], (mmioIn (0xE004 + no.val.toUInt32) m).2)
  | .write val, m => ([], mmioOut (0xE004 + no.val.toUInt32) val m)
  | .control cw, m => ([], mmioOut 0xE007 (controlWord no cw) m)

/-- The access as the channel sees it. -/
def onStat : PitAccess → T8253Stat → List Int × T8253Stat
  | .read, st => ([st.read.1], st.read.2)
  | .write val, st => ([], st.write val)
  | .control cw, st => ([], st.control (decodeControl (cw &&& 0x3F) ⟨0, 0, 0, 0, 0, 0⟩))

end PitAccess

/-! ## one access -/

/-- The three counter registers are one function of the channel. -/
theorem mmioIn_counter (no : Fin 3) (m : Machine) :
    mmioIn (0xE004 + no.val.toUInt32) m = readCounter no m := by
  match no with
  | 0 => rfl
  | 1 => rfl
  | 2 => rfl

/-- The three counter registers are written by one function of the channel. -/
theorem mmioOut_counter (no : Fin 3) (val : UInt32) (m : Machine) :
    mmioOut (0xE004 + no.val.toUInt32) val m = writeCounter no val m := by
  match no with
  | 0 => rfl
  | 1 => rfl
  | 2 => rfl

theorem toNat_controlWord (no : Fin 3) (cw : UInt32) :
    (controlWord no cw).toNat = 2 ^ 6 * no.val + (cw &&& 0x3F).toNat := by
  have hlow : (cw &&& 0x3F).toNat < 2 ^ 6 := by
    rw [UInt32.toNat_and]
    exact Nat.lt_of_le_of_lt Nat.and_le_right (by decide)
  have hno : (no.val.toUInt32 <<< 6).toNat = 2 ^ 6 * no.val := by
    match no with
    | 0 => rfl
    | 1 => rfl
    | 2 => rfl
  rw [controlWord, UInt32.toNat_or, hno, ← Nat.two_pow_add_eq_or_of_lt hlow]

/-- The channel number does not reach the other fields of a control word. -/
theorem control_controlWord (no : Fin 3) (cw : UInt32) (dat dat' : T8253Dat) (st : T8253Stat) :
    st.control (decodeControl (controlWord no cw) dat) =
      st.control (decodeControl (cw &&& 0x3F) dat') := by
  have hone (x : Nat) : x &&& 1 = x % 2 := Nat.and_two_pow_sub_one_eq_mod x 1
  have hthree (x : Nat) : x &&& 3 = x % 4 := Nat.and_two_pow_sub_one_eq_mod x 2
  have hseven (x : Nat) : x &&& 7 = x % 8 := Nat.and_two_pow_sub_one_eq_mod x 3
  have hbcd : (controlWord no cw &&& 1).toUInt8 = (cw &&& 0x3F &&& 1).toUInt8 := by
    rw [← UInt8.toNat_inj]
    simp only [UInt32.toNat_toUInt8, UInt32.toNat_and _ 1, toNat_controlWord, UInt32.reduceToNat,
      hone]
    omega
  have hm : ((controlWord no cw >>> 1) &&& 7).toUInt8 = (((cw &&& 0x3F) >>> 1) &&& 7).toUInt8 := by
    rw [← UInt8.toNat_inj]
    simp only [UInt32.toNat_toUInt8, UInt32.toNat_and _ 7, UInt32.toNat_shiftRight,
      toNat_controlWord, UInt32.reduceToNat, Nat.reduceMod, Nat.shiftRight_eq_div_pow, hseven]
    omega
  have hrl : ((controlWord no cw >>> 4) &&& 3).toUInt8 = (((cw &&& 0x3F) >>> 4) &&& 3).toUInt8 := by
    rw [← UInt8.toNat_inj]
    simp only [UInt32.toNat_toUInt8, UInt32.toNat_and _ 3, UInt32.toNat_shiftRight,
      toNat_controlWord, UInt32.reduceToNat, Nat.reduceMod, Nat.shiftRight_eq_div_pow, hthree]
    omega
  rw [T8253Stat.control, T8253Stat.control, decodeControl, decodeControl]
  dsimp only
  rw [hbcd, hm, hrl]

/-- The channel that a control word selects is the one it was made for. -/
theorem select_controlWord (no : Fin 3) (cw : UInt32) (dat : T8253Dat) :
    (decodeControl (controlWord no cw) dat).sc.toNat = no := by
  have hthree (x : Nat) : x &&& 3 = x % 4 := Nat.and_two_pow_sub_one_eq_mod x 2
  have hlow : (cw &&& 0x3F).toNat < 64 := by
    rw [UInt32.toNat_and]
    exact Nat.lt_of_le_of_lt Nat.and_le_right (by decide)
  have hno := no.isLt
  simp only [decodeControl, UInt32.toNat_toUInt8, UInt32.toNat_and _ 3, UInt32.toNat_shiftRight,
    toNat_controlWord, UInt32.reduceToNat, Nat.reduceMod, Nat.shiftRight_eq_div_pow, hthree]
  omega

/-- A write of a counter register changes its own channel only. -/
theorem stat8253_writeCounter (no : Fin 3) (val : UInt32) (m : Machine) :
    (writeCounter no val m).stat8253 =
      Function.update m.stat8253 no ((m.stat8253 no).write val) := by
  simp only [writeCounter, modStat_eq]
  split <;> rfl

namespace PitAccess

/-- An access reads from its channel and changes it, and no other one. -/
theorem run_eq (no : Fin 3) (a : PitAccess) (m : Machine) :
    (a.run no m).1 = (a.onStat (m.stat8253 no)).1 ∧
      (a.run no m).2.stat8253 = Function.update m.stat8253 no (a.onStat (m.stat8253 no)).2 := by
  cases a with
  | read =>
      simp only [run, onStat, mmioIn_counter]
      exact ⟨rfl, rfl⟩
  | write val =>
      simp only [run, onStat, mmioOut_counter, stat8253_writeCounter, and_self]
  | control cw =>
      refine ⟨rfl, ?_⟩
      have heq : mmioOut 0xE007 (controlWord no cw) m =
          modStat (decodeControl (controlWord no cw) m.dat8253).sc.toNat
            (·.control (decodeControl (controlWord no cw) m.dat8253))
            { m with dat8253 := decodeControl (controlWord no cw) m.dat8253 } := rfl
      simp only [run, onStat, heq, select_controlWord, modStat_eq]
      rw [control_controlWord no cw m.dat8253 ⟨0, 0, 0, 0, 0, 0⟩]

end PitAccess

/-! ## runs -/

/-- An access to one of the channels, or a tick. -/
inductive PitStep
  | access (no : Fin 3) (a : PitAccess)
  | tick

/-- The machine after a step. -/
def PitStep.apply : PitStep → Machine → Machine
  | .access no a, m => (a.run no m).2
  | .tick, m => (pitCount m).2

/-- The accesses of a list that go to channel `no`. -/
def accessesTo (no : Fin 3) (ops : List (Fin 3 × PitAccess)) : List PitAccess :=
  (ops.filter (·.1 = no)).map (·.2)

/-- A run without ticks. -/
def runAccesses (ops : List (Fin 3 × PitAccess)) (m : Machine) : Machine :=
  Run.exec (fun o => PitStep.apply (.access o.1 o.2)) ops m

/-- The values that accesses to channel `no` read in such a run. -/
def valuesRead (no : Fin 3) : List (Fin 3 × PitAccess) → Machine → List Int
  | [], _ => []
  | o :: ops, m =>
      (if o.1 = no then (o.2.run o.1 m).1 else []) ++ valuesRead no ops (o.2.run o.1 m).2

/-- A channel's state after accesses to it. -/
def T8253Stat.accessed (as : List PitAccess) (st : T8253Stat) : T8253Stat :=
  Run.exec (fun a st => (a.onStat st).2) as st

/-- The values that accesses to a channel read. -/
def T8253Stat.values : List PitAccess → T8253Stat → List Int
  | [], _ => []
  | a :: as, st => (a.onStat st).1 ++ values as (a.onStat st).2

/-- A channel sees its own accesses. -/
theorem runAccesses_eq (no : Fin 3) (ops : List (Fin 3 × PitAccess)) (m : Machine) :
    (runAccesses ops m).stat8253 no = (m.stat8253 no).accessed (accessesTo no ops) ∧
      valuesRead no ops m = (m.stat8253 no).values (accessesTo no ops) := by
  induction ops generalizing m with
  | nil => exact ⟨rfl, rfl⟩
  | cons o ops ih =>
      obtain ⟨i, a⟩ := o
      obtain ⟨hvalues, hstat⟩ := a.run_eq i m
      obtain ⟨ihstat, ihvalues⟩ := ih (a.run i m).2
      by_cases hi : i = no
      · subst hi
        have hto : accessesTo i ((i, a) :: ops) = a :: accessesTo i ops := by simp [accessesTo]
        rw [hstat, Function.update_self] at ihstat ihvalues
        rw [hto]
        refine ⟨ihstat, ?_⟩
        simp only [valuesRead, T8253Stat.values, if_true, hvalues, ihvalues]
      · have hto : accessesTo no ((i, a) :: ops) = accessesTo no ops := by simp [accessesTo, hi]
        rw [hstat, Function.update_of_ne (Ne.symm hi)] at ihstat ihvalues
        rw [hto]
        refine ⟨ihstat, ?_⟩
        simp only [valuesRead, if_neg hi, List.nil_append, ihvalues]

/-! ## three copies -/

/-- No access sets `rl_bak`. -/
theorem rlBak_accessed (as : List PitAccess) (st : T8253Stat) :
    (st.accessed as).rlBak = st.rlBak := by
  refine Run.invariant (P := fun st' : T8253Stat => st'.rlBak = st.rlBak) (fun st' a h => ?_) as rfl
  rw [← h]
  cases a with
  | read =>
      simp only [PitAccess.onStat, T8253Stat.read]
      repeat' split
      all_goals rfl
  | write val =>
      simp only [PitAccess.onStat, T8253Stat.write, T8253Stat.reload, T8253Stat.unlatch]
      repeat' split
      all_goals rfl
  | control cw =>
      simp only [PitAccess.onStat, T8253Stat.control]
      split <;> rfl

/-- Channel `i` after `ops` is as channel `j` after `ops'`, and the two
runs have read the same values from them. -/
def Alike (m : Machine) (i j : Fin 3) (ops ops' : List (Fin 3 × PitAccess)) : Prop :=
  (runAccesses ops m).stat8253 i = (runAccesses ops' m).stat8253 j ∧
    valuesRead i ops m = valuesRead j ops' m

/-- The same accesses to two channels make them alike exactly when both
were initialised, or neither. -/
theorem alike_iff (rand : UInt32) (m : Machine) {i j : Fin 3} {ops ops' : List (Fin 3 × PitAccess)}
    (h : accessesTo i ops = accessesTo j ops') :
    Alike (mzReset rand m) i j ops ops' ↔ (i = 2 ↔ j = 2) := by
  obtain ⟨hstat, hvalues⟩ := runAccesses_eq i ops (mzReset rand m)
  obtain ⟨hstat', hvalues'⟩ := runAccesses_eq j ops' (mzReset rand m)
  rw [Alike, hstat, hvalues, hstat', hvalues', h, stat8253_mzReset, stat8253_mzReset]
  have hne (as as' : List PitAccess) :
      T8253Stat.zero.accessed as ≠ T8253Stat.zero.init.accessed as' := by
    intro heq
    have hbak := congrArg T8253Stat.rlBak heq
    rw [rlBak_accessed, rlBak_accessed] at hbak
    exact absurd hbak (by decide)
  by_cases hi : i = 2 <;> by_cases hj : j = 2
  · rw [if_pos hi, if_pos hj]
    exact iff_of_true ⟨rfl, rfl⟩ (iff_of_true hi hj)
  · rw [if_pos hi, if_neg hj]
    exact iff_of_false (fun halike => hne _ _ halike.1) (fun hiff => hj (hiff.mp hi))
  · rw [if_neg hi, if_pos hj]
    exact iff_of_false (fun halike => hne _ _ halike.1.symm) (fun hiff => hi (hiff.mpr hj))
  · rw [if_neg hi, if_neg hj]
    exact iff_of_true ⟨rfl, rfl⟩ (iff_of_false hi hj)

/-- In every run of accesses and ticks after a reset, an access changes no
other channel; and accesses make two channels alike exactly when both of
them are among the channels 0 and 1 that a reset initialises, or they are
one channel. -/
theorem pitChannels_iff (rand : UInt32) (m : Machine) :
    (∀ (ops : List PitStep) (no i : Fin 3) (a : PitAccess), i ≠ no →
      (PitStep.apply (.access no a) (Run.exec PitStep.apply ops (mzReset rand m))).stat8253 i =
        (Run.exec PitStep.apply ops (mzReset rand m)).stat8253 i) ∧
    ∀ (i j : Fin 3) (ops ops' : List (Fin 3 × PitAccess)), accessesTo i ops = accessesTo j ops' →
      (Alike (mzReset rand m) i j ops ops' ↔ (i = 2 ↔ j = 2)) := by
  refine ⟨fun ops no i a hi => ?_, fun i j ops ops' h => alike_iff rand m h⟩
  rw [PitStep.apply, (a.run_eq no _).2, Function.update_of_ne hi]

/-- Both channels get a control word, a count and a latch, and are read twice, among
accesses to the others. -/
theorem pitChannels_latched :
    Alike (mzReset 0 Machine.cold) 0 1
      [(0, .control 0x34), (2, .control 0x30), (0, .write 0x12), (1, .write 5), (0, .write 0x34),
        (0, .control 0), (0, .read), (0, .read)]
      [(1, .control 0x34), (1, .write 0x12), (0, .read), (1, .write 0x34), (1, .control 0),
        (1, .read), (2, .write 7), (1, .read)] :=
  ((pitChannels_iff 0 Machine.cold).2 0 1 _ _ rfl).mpr (by decide)

/-- The counters of channels 0 and 2 read `00` and `FF` after a reset. -/
theorem not_pitChannels : ¬ ∀ (rand : UInt32) (m : Machine) (i j : Fin 3)
    (ops ops' : List (Fin 3 × PitAccess)), accessesTo i ops = accessesTo j ops' →
      Alike (mzReset rand m) i j ops ops' := by
  intro h
  have hread := (h 0 Machine.cold 0 2 [(0, .read)] [(2, .read)] rfl).2
  revert hread
  decide +kernel

/-! ## a programmed channel -/

namespace T8253Stat

/-- All of a channel but `rl_bak`, which nothing reads. -/
def live (st : T8253Stat) : T8253Stat := { st with rlBak := 0 }

/-- A read does not look at `rl_bak`. -/
theorem read_live (st : T8253Stat) : st.live.read = (st.read.1, st.read.2.live) := by
  simp only [read, live, apply_ite Prod.fst, apply_ite Prod.snd]
  grind

/-- Nor does a write. -/
theorem write_live (val : UInt32) (st : T8253Stat) : st.live.write val = (st.write val).live := by
  grind [write, reload, unlatch, live]

/-- Nor does a control word. -/
theorem control_live (dat : T8253Dat) (st : T8253Stat) :
    st.live.control dat = (st.control dat).live := by
  grind [control, live]

/-- So no access does. -/
theorem onStat_live (a : PitAccess) (st : T8253Stat) :
    a.onStat st.live = ((a.onStat st).1, (a.onStat st).2.live) := by
  cases a with
  | read => rw [PitAccess.onStat, PitAccess.onStat, read_live]
  | write val => rw [PitAccess.onStat, PitAccess.onStat, write_live]
  | control cw => rw [PitAccess.onStat, PitAccess.onStat, control_live]

/-- Accesses do not tell channels apart that differ in `rl_bak` only. -/
theorem accessed_congr (as : List PitAccess) {st st' : T8253Stat} (h : st.live = st'.live) :
    (st.accessed as).live = (st'.accessed as).live ∧ st.values as = st'.values as := by
  induction as generalizing st st' with
  | nil => exact ⟨h, rfl⟩
  | cons a as ih =>
      have hsame := onStat_live a st
      rw [h, onStat_live a st', Prod.mk.injEq] at hsame
      obtain ⟨ihstat, ihvalues⟩ := ih hsame.2.symm
      refine ⟨ihstat, ?_⟩
      rw [values, values, ihvalues, hsame.1]

/-- Programming a channel makes up for what a reset leaves out. -/
theorem control_zero {cw : UInt32} (h : (((cw &&& 0x3F) >>> 4) &&& 3).toUInt8 ≠ 0) :
    (((PitAccess.control cw).onStat zero).2).live =
      (((PitAccess.control cw).onStat zero.init).2).live := by
  have hrl : ¬ (decodeControl (cw &&& 0x3F) ⟨0, 0, 0, 0, 0, 0⟩).rl = 0 := h
  simp only [PitAccess.onStat, control, if_neg hrl]
  rfl

end T8253Stat

/-- Channels that are programmed first show the guest the same machine. -/
theorem alike_of_programmed (rand : UInt32) (m : Machine) {i j : Fin 3}
    {ops ops' : List (Fin 3 × PitAccess)} {cw : UInt32} {as : List PitAccess}
    (hcw : (((cw &&& 0x3F) >>> 4) &&& 3).toUInt8 ≠ 0) (h : accessesTo i ops = .control cw :: as)
    (h' : accessesTo j ops' = .control cw :: as) :
    ((runAccesses ops (mzReset rand m)).stat8253 i).live =
        ((runAccesses ops' (mzReset rand m)).stat8253 j).live ∧
      valuesRead i ops (mzReset rand m) = valuesRead j ops' (mzReset rand m) := by
  have hprogrammed (no : Fin 3) : (((PitAccess.control cw).onStat
      ((mzReset rand m).stat8253 no)).2).live =
        (((PitAccess.control cw).onStat T8253Stat.zero.init).2).live := by
    rw [stat8253_mzReset]
    split
    · exact T8253Stat.control_zero hcw
    · rfl
  obtain ⟨hstat, hvalues⟩ := runAccesses_eq i ops (mzReset rand m)
  obtain ⟨hstat', hvalues'⟩ := runAccesses_eq j ops' (mzReset rand m)
  obtain ⟨hlive, hsame⟩ :=
    T8253Stat.accessed_congr as ((hprogrammed i).trans (hprogrammed j).symm)
  rw [hstat, hvalues, hstat', hvalues', h, h']
  exact ⟨hlive, hsame⟩

end M5Z80
