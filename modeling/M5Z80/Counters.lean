import Mathlib.Data.Nat.Bitwise
import Mathlib.Data.Nat.Count
import M5Z80.Channels

/-!
# M5Z80.Counters

What a call of `pit_count` does to each channel of the 8253, and the two
writes that load a count.  Channel 0 is not counted, channel 1 is counted at
every call, and channel 2 when channel 1 puts out a pulse.
-/

namespace M5Z80

namespace T8253Stat

/-- The channel after a tick of its clock. -/
def tick (st : T8253Stat) : T8253Stat := (st.pitcountJob 1).2

/-- What the channel puts out at this tick. -/
def out (st : T8253Stat) : Int := (st.pitcountJob 1).1

/-- A tick changes the counter and the output. -/
theorem tick_eq (st : T8253Stat) : ∃ counter counterOut,
    st.tick = { st with counter := counter, counterOut := counterOut } := by
  simp only [tick, pitcountJob]
  repeat' split
  all_goals exact ⟨_, _, rfl⟩

/-- A channel that ticks changes nothing but its counter and output. -/
theorem iterate_tick_eq (i : Nat) (st : T8253Stat) : ∃ counter counterOut,
    tick^[i] st = { st with counter := counter, counterOut := counterOut } := by
  induction i with
  | zero => exact ⟨st.counter, st.counterOut, rfl⟩
  | succ i ih =>
      obtain ⟨counter, counterOut, hi⟩ := ih
      obtain ⟨counter', counterOut', htick⟩ := (tick^[i] st).tick_eq
      refine ⟨counter', counterOut', ?_⟩
      rw [Function.iterate_succ_apply', htick, hi]

/-- A channel that does not run ignores its clock. -/
theorem pitcountJob_stopped {st : T8253Stat} (h : st.running = 0) : st.pitcountJob 1 = (0, st) :=
  if_pos h

/-- Mode 0 counts down to zero, and puts out a pulse at every tick from
there on. -/
theorem pitcountJob_mode0 {st : T8253Stat} (hrun : st.running ≠ 0) (hmode : st.mode = 0) :
    st.out = (if st.counter ≤ 0 then 1 else 0) ∧
      st.tick.counter = if st.counter ≤ 0 then 0 else st.counter - 1 := by
  simp only [out, tick, pitcountJob, if_neg hrun, if_pos hmode]
  split <;> exact ⟨rfl, rfl⟩

/-- Mode 2 puts out a pulse at the last count and starts again. -/
theorem pitcountJob_mode2 {st : T8253Stat} (hrun : st.running ≠ 0) (hmode : st.mode = 2) :
    st.out = (if st.counter - 1 ≤ 0 then 1 else 0) ∧
      st.tick.counter =
        if st.counter - 1 ≤ 0 then (st.counterBase.toNat : Int) else st.counter - 1 := by
  have hne : ¬ st.mode = 0 := by rw [hmode]; decide
  simp only [out, tick, pitcountJob, if_neg hrun, if_neg hne, if_pos hmode]
  split <;> exact ⟨rfl, rfl⟩

/-- Mode 2 on its way to the last count. -/
theorem counter_iterate_mode2 {st : T8253Stat} (hrun : st.running ≠ 0) (hmode : st.mode = 2)
    {i : Nat} (hi : i < st.counter) : (tick^[i] st).counter = st.counter - i := by
  induction i with
  | zero => simp
  | succ i ih =>
      have hlt : (i : Int) < st.counter := by omega
      obtain ⟨counter, counterOut, heq⟩ := iterate_tick_eq i st
      have hrun' : (tick^[i] st).running ≠ 0 := by
        rw [heq]
        exact hrun
      have hmode' : (tick^[i] st).mode = 2 := by
        rw [heq]
        exact hmode
      have hnext := (pitcountJob_mode2 hrun' hmode').2
      rw [Function.iterate_succ_apply', hnext, ih hlt, if_neg (by omega)]
      omega

end T8253Stat

/-! ## the clocks of the channels -/

/-- A call of `pit_count` counts the channel. -/
def Ticked (no : Fin 3) (m : Machine) : Prop :=
  no = 1 ∨ no = 2 ∧ (m.stat8253 1).out ≠ 0

instance (no : Fin 3) (m : Machine) : Decidable (Ticked no m) :=
  inferInstanceAs (Decidable (_ ∨ _))

theorem ticked_iff (no : Fin 3) (m : Machine) :
    Ticked no m ↔ no = 1 ∨ no = 2 ∧ (m.stat8253 1).out ≠ 0 := Iff.rfl

/-- `pit_count`, by the output of channel 1. -/
theorem pitCount_eq (m : Machine) : pitCount m =
    if (m.stat8253 1).out ≠ 0 then pitcountJob 2 1 (pitcountJob 1 1 m).2
    else (0, (pitcountJob 1 1 m).2) := rfl

/-- A tick of one channel: its output, and no change to the others. -/
theorem stat8253_pitcountJob (no : Fin 3) (m : Machine) :
    (pitcountJob no 1 m).1 = (m.stat8253 no).out ∧
      (pitcountJob no 1 m).2.stat8253 = Function.update m.stat8253 no (m.stat8253 no).tick :=
  ⟨rfl, rfl⟩

/-- Channel 1 does not touch channel 2. -/
theorem channel2_pitcountJob (m : Machine) :
    (pitcountJob 1 1 m).2.stat8253 2 = m.stat8253 2 := by
  rw [(stat8253_pitcountJob 1 m).2, Function.update_of_ne (by decide)]

/-- `pit_count` returns the output of channel 2 at a pulse of channel 1. -/
theorem fst_pitCount (m : Machine) :
    (pitCount m).1 = if (m.stat8253 1).out ≠ 0 then (m.stat8253 2).out else 0 := by
  rw [pitCount_eq]
  split
  · rw [(stat8253_pitcountJob 2 _).1, channel2_pitcountJob]
  · rfl

/-- `pit_count` ticks the channels that it counts. -/
theorem stat8253_pitCount (no : Fin 3) (m : Machine) :
    (pitCount m).2.stat8253 no = if Ticked no m then (m.stat8253 no).tick else m.stat8253 no := by
  have hstat := (stat8253_pitcountJob 1 m).2
  have hother : no ≠ 1 → (pitcountJob 1 1 m).2.stat8253 no = m.stat8253 no := fun hno => by
    rw [hstat, Function.update_of_ne hno]
  rw [pitCount_eq]
  by_cases hno1 : no = 1
  · subst hno1
    rw [if_pos ((ticked_iff 1 m).mpr (.inl rfl))]
    split
    · rw [(stat8253_pitcountJob 2 _).2, Function.update_of_ne (by decide), hstat,
        Function.update_self]
    · rw [hstat, Function.update_self]
  · by_cases hout : (m.stat8253 1).out ≠ 0
    · rw [if_pos hout, (stat8253_pitcountJob 2 _).2]
      by_cases hno2 : no = 2
      · subst hno2
        rw [if_pos ((ticked_iff 2 m).mpr (.inr ⟨rfl, hout⟩)), Function.update_self, hother hno1]
      · rw [if_neg (by rw [ticked_iff]; simp [hno1, hno2]), Function.update_of_ne hno2,
          hother hno1]
    · rw [if_neg hout, if_neg (by rw [ticked_iff]; simp [hno1, hout]), hother hno1]

/-! ## runs of ticks -/

/-- The machine after `n` calls of `pit_count`. -/
def afterCounts (n : Nat) (m : Machine) : Machine := (fun m => (pitCount m).2)^[n] m

/-- How many of `n` calls count the channel. -/
def ticksOf (no : Fin 3) (n : Nat) (m : Machine) : Nat :=
  Nat.count (fun j => Ticked no (afterCounts j m)) n

/-- The last tick of a number of them. -/
theorem afterCounts_succ (n : Nat) (m : Machine) :
    afterCounts (n + 1) m = (pitCount (afterCounts n m)).2 :=
  Function.iterate_succ_apply' ..

/-- A channel ticks in a tick of the 8253 or sits it out. -/
theorem ticksOf_succ (no : Fin 3) (n : Nat) (m : Machine) :
    ticksOf no (n + 1) m = ticksOf no n m + if Ticked no (afterCounts n m) then 1 else 0 :=
  Nat.count_succ ..

/-- By induction on the ticks of the 8253: a channel sees its own ticks only. -/
theorem stat8253_afterCounts (no : Fin 3) (n : Nat) (m : Machine) :
    (afterCounts n m).stat8253 no = T8253Stat.tick^[ticksOf no n m] (m.stat8253 no) := by
  induction n with
  | zero => rfl
  | succ n ih =>
      rw [afterCounts_succ, stat8253_pitCount, ticksOf_succ, ih]
      split
      · rw [Function.iterate_succ_apply']
      · rfl

/-- Channel 1 decides when the others are counted. -/
theorem ticked_afterCounts_congr (no : Fin 3) {m m' : Machine}
    (h : no = 2 → m.stat8253 1 = m'.stat8253 1) (n : Nat) :
    Ticked no (afterCounts n m) ↔ Ticked no (afterCounts n m') := by
  have hone (n : Nat) (m : Machine) :
      (afterCounts n m).stat8253 1 = T8253Stat.tick^[n] (m.stat8253 1) := by
    have hall : ticksOf 1 n m = n := Nat.count_of_forall fun _ _ => .inl rfl
    rw [stat8253_afterCounts, hall]
  rw [ticked_iff, ticked_iff, hone, hone]
  exact or_congr_right (and_congr_right fun hno => by rw [h hno])

/-! ## loading a count -/

/-- The low byte of a count, as the guest writes it. -/
def lowByte (v : UInt16) : UInt32 := v.toUInt8.toUInt32

/-- The high byte of a count. -/
def highByte (v : UInt16) : UInt32 := (v >>> 8).toUInt8.toUInt32

/-- The access format in a control word; `0` is a latch command. -/
def accessFormat (cw : UInt32) : UInt8 := (((cw &&& 0x3F) >>> 4) &&& 3).toUInt8

/-- The mode in a control word. -/
def modeField (cw : UInt32) : UInt8 := (((cw &&& 0x3F) >>> 1) &&& 7).toUInt8

/-- The accesses that program a channel: a control word of access format 3,
and a count. -/
def loadCount (cw : UInt32) (n : UInt16) : List PitAccess :=
  [.control cw, .write (lowByte n), .write (highByte n)]

theorem toNat_lowByte (v : UInt16) : (lowByte v).toNat = v.toNat % 256 := by
  rw [lowByte, UInt8.toNat_toUInt32, UInt16.toNat_toUInt8]

theorem toNat_highByte (v : UInt16) : (highByte v).toNat = v.toNat / 256 := by
  have hlt := v.toNat_lt
  simp only [highByte, UInt8.toNat_toUInt32, UInt16.toNat_toUInt8, UInt16.toNat_shiftRight,
    UInt16.reduceToNat, Nat.reduceMod, Nat.shiftRight_eq_div_pow]
  omega

/-- The count of which only the low byte is there. -/
def halfCount (v : UInt16) : UInt16 := (lowByte v &&& 0x00FF).toUInt16

theorem toNat_halfCount (v : UInt16) : (halfCount v).toNat = v.toNat % 256 := by
  have hmask : (0x00FF : UInt32).toNat = 2 ^ 8 - 1 := rfl
  rw [halfCount, UInt32.toNat_toUInt16, UInt32.toNat_and, toNat_lowByte, hmask,
    Nat.and_two_pow_sub_one_eq_mod]
  omega

/-- The second write puts the count together. -/
theorem count_highByte {base v : UInt16} (h : base.toNat % 256 = v.toNat % 256) :
    (((base &&& 0xFF).toUInt32 ||| (highByte v <<< 8)) &&& 0xFFFF).toUInt16 = v := by
  have hlt := v.toNat_lt
  have hlow : (base &&& 0xFF).toUInt32.toNat = v.toNat % 256 := by
    have hmask : (0xFF : UInt16).toNat = 2 ^ 8 - 1 := rfl
    rw [UInt16.toNat_toUInt32, UInt16.toNat_and, hmask, Nat.and_two_pow_sub_one_eq_mod, ← h]
  have hhigh : (highByte v <<< 8).toNat = 2 ^ 8 * (v.toNat / 256) := by
    rw [UInt32.toNat_shiftLeft, toNat_highByte]
    simp only [UInt32.reduceToNat, Nat.reduceMod, Nat.shiftLeft_eq]
    omega
  have hor : (2 ^ 8 * (v.toNat / 256)) ||| v.toNat % 256 = v.toNat := by
    rw [← Nat.two_pow_add_eq_or_of_lt (Nat.mod_lt _ (by decide))]
    omega
  have hmask : (0xFFFF : UInt32).toNat = 2 ^ 16 - 1 := rfl
  rw [← UInt16.toNat_inj, UInt32.toNat_toUInt16, UInt32.toNat_and, UInt32.toNat_or, hlow, hhigh,
    Nat.or_comm, hor, hmask, Nat.and_two_pow_sub_one_eq_mod]
  omega

namespace T8253Stat

/-- A new base reaches the counter at once. -/
def Loads (st : T8253Stat) : Prop := st.running = 0 ∨ (st.mode ≠ 2 ∧ st.mode ≠ 3)

instance (st : T8253Stat) : Decidable st.Loads := inferInstanceAs (Decidable (_ ∨ _))

/-- A new base replaces the base, and the counter where it reaches it. -/
theorem reload_eq (st : T8253Stat) (base : UInt16) : st.reload base =
    { st with
      counterBase := base
      counter := if st.Loads then (base.toNat : Int) else st.counter } := by
  rw [reload]
  exact apply_ite (fun counter : Int => { st with counterBase := base, counter := counter })
    st.Loads (base.toNat : Int) st.counter |>.symm

/-- A write drops the latch, and the output in mode 0. -/
theorem unlatch_eq (st : T8253Stat) : ∃ counterOut,
    st.unlatch = { st with counterOut := counterOut, latFlag := 0 } := by
  unfold unlatch
  split
  · exact ⟨0, rfl⟩
  · exact ⟨st.counterOut, rfl⟩

/-- The first byte in access format 3 is the low one. -/
theorem write_lowByte {st : T8253Stat} (hrl : st.rl = 3) (hhl : st.bitHl = 0) (v : UInt16) :
    ∃ counterOut, st.write (lowByte v) =
      { st with
        counterOut := counterOut
        latFlag := 0
        bitHl := 1
        counterBase := halfCount v
        counter := if st.Loads then ((halfCount v).toNat : Int) else st.counter } := by
  obtain ⟨counterOut, hunlatch⟩ := st.unlatch_eq
  refine ⟨counterOut, ?_⟩
  rw [write, hunlatch]
  simp only [reload_eq, hrl, hhl, ne_eq, not_true_eq_false, if_false, if_true]
  rfl

/-- The second one is the high byte, and starts the channel. -/
theorem write_highByte {st : T8253Stat} (hrl : st.rl = 3) (hhl : st.bitHl = 1) {v : UInt16}
    (hbase : st.counterBase = halfCount v) :
    ∃ counterOut, st.write (highByte v) =
      { st with
        counterOut := counterOut
        latFlag := 0
        bitHl := 0
        running := 1
        counterBase := v
        counter := if st.Loads then (v.toNat : Int) else st.counter } := by
  obtain ⟨counterOut, hunlatch⟩ := st.unlatch_eq
  refine ⟨counterOut, ?_⟩
  have hlow : (halfCount v).toNat % 256 = v.toNat % 256 := by
    rw [toNat_halfCount, Nat.mod_mod]
  have hcount := count_highByte hlow
  rw [write, hunlatch]
  simp only [reload_eq, hrl, hhl, hbase, hcount]
  rfl

end T8253Stat

end M5Z80
