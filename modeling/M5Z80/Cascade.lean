import M5Z80.Counters
import M5Z80.Lib.Divider

/-!
# M5Z80.Cascade

Channel 1 in mode 2 divides the calls of `pit_count` by its count, and
channel 2 in mode 0 counts what is left.  `pit_count` returns the output of
channel 2, which is the timer interrupt of the guest.
-/

namespace M5Z80

/-! ## programming a channel -/

/-- A channel that has just been programmed. -/
structure T8253Stat.Programmed (mode : UInt8) (n : UInt16) (st : T8253Stat) : Prop where
  running : st.running ≠ 0
  mode_eq : st.mode = mode
  base : st.counterBase = n
  counter : st.counter = n.toNat

/-- A channel with both halves of its count written is programmed. -/
theorem T8253Stat.programmed_loadCount {cw : UInt32} (hrl : accessFormat cw = 3) (n : UInt16)
    (st : T8253Stat) : (st.accessed (loadCount cw n)).Programmed (modeField cw) n := by
  have hne : ¬ (decodeControl (cw &&& 0x3F) ⟨0, 0, 0, 0, 0, 0⟩).rl = 0 := by
    change ¬ accessFormat cw = 0
    rw [hrl]
    decide
  obtain ⟨st', hst', hrl', hhl, hstop, hmode⟩ : ∃ st' : T8253Stat,
      ((PitAccess.control cw).onStat st).2 = st' ∧
        st'.rl = 3 ∧ st'.bitHl = 0 ∧ st'.running = 0 ∧ st'.mode = modeField cw := by
    rw [PitAccess.onStat, T8253Stat.control]
    dsimp only
    rw [if_neg hne]
    exact ⟨_, rfl, hrl, rfl, rfl, rfl⟩
  have hall : st.accessed (loadCount cw n) = (st'.write (lowByte n)).write (highByte n) := by
    rw [← hst']
    simp only [accessed, loadCount, Run.exec_cons, Run.exec_nil, PitAccess.onStat]
  obtain ⟨_, hlow⟩ := write_lowByte hrl' hhl n
  have hrlLow : (st'.write (lowByte n)).rl = 3 := by rw [hlow, hrl']
  have hstopLow : (st'.write (lowByte n)).running = 0 := by rw [hlow, hstop]
  have hmodeLow : (st'.write (lowByte n)).mode = modeField cw := by rw [hlow, hmode]
  obtain ⟨_, hhigh⟩ := write_highByte hrlLow (v := n) (by rw [hlow]) (by rw [hlow])
  rw [hall, hhigh, if_pos (.inl hstopLow)]
  exact ⟨Int.one_ne_zero, hmodeLow, rfl, rfl⟩

/-! ## the cascade -/

/-- The channels 1 and 2 of a cascade, `k` calls of `pit_count` after they
were loaded. -/
structure Cascade (n1 n2 : UInt16) (k : Nat) (m : Machine) : Prop where
  running1 : (m.stat8253 1).running ≠ 0
  mode1 : (m.stat8253 1).mode = 2
  base1 : (m.stat8253 1).counterBase = n1
  counter1 : (m.stat8253 1).counter = Divider.count n1.toNat k
  running2 : (m.stat8253 2).running ≠ 0
  mode2 : (m.stat8253 2).mode = 0
  counter2 : (m.stat8253 2).counter = (n2.toNat - k / n1.toNat : Nat)

namespace Cascade

variable {n1 n2 : UInt16} {k : Nat} {m m' : Machine}

/-- Only the two channels count. -/
theorem congr (h : Cascade n1 n2 k m) (h1 : m'.stat8253 1 = m.stat8253 1)
    (h2 : m'.stat8253 2 = m.stat8253 2) : Cascade n1 n2 k m' := by
  constructor
  all_goals simp only [h1, h2, h.running1, h.mode1, h.base1, h.counter1, h.running2, h.mode2,
    h.counter2, ne_eq, not_false_eq_true]

/-- Channel 1 puts out a pulse at every multiple of its count. -/
theorem out1_iff (h : Cascade n1 n2 k m) (hn1 : 0 < n1.toNat) :
    (m.stat8253 1).out ≠ 0 ↔ n1.toNat ∣ k + 1 := by
  have hpos := Divider.count_pos (n := n1.toNat) (k := k) hn1
  rw [(T8253Stat.pitcountJob_mode2 h.running1 h.mode1).1, h.counter1,
    ← Divider.count_eq_one_iff hn1]
  split
  · exact iff_of_true (by decide) (by omega)
  · exact iff_of_false (by decide) (by omega)

/-- Channel 2 puts out a pulse once it has counted to zero. -/
theorem out2_iff (h : Cascade n1 n2 k m) : (m.stat8253 2).out ≠ 0 ↔ n2.toNat ≤ k / n1.toNat := by
  rw [(T8253Stat.pitcountJob_mode0 h.running2 h.mode2).1, h.counter2]
  split
  · exact iff_of_true (by decide) (by omega)
  · exact iff_of_false (by decide) (by omega)

/-- One call. -/
theorem pitCount (h : Cascade n1 n2 k m) (hn1 : 0 < n1.toNat) :
    Cascade n1 n2 (k + 1) (M5Z80.pitCount m).2 := by
  have h1 : (M5Z80.pitCount m).2.stat8253 1 = (m.stat8253 1).tick := by
    rw [stat8253_pitCount, if_pos (.inl rfl)]
  have h2 : (M5Z80.pitCount m).2.stat8253 2 =
      if n1.toNat ∣ k + 1 then (m.stat8253 2).tick else m.stat8253 2 := by
    have hticked : Ticked 2 m ↔ n1.toNat ∣ k + 1 := by
      rw [ticked_iff, ← h.out1_iff hn1]
      simp
    rw [stat8253_pitCount, if_congr hticked rfl rfl]
  obtain ⟨_, _, htick1⟩ := (m.stat8253 1).tick_eq
  obtain ⟨_, _, htick2⟩ := (m.stat8253 2).tick_eq
  have hpos := Divider.count_pos (k := k) hn1
  have hcount1 : (m.stat8253 1).tick.counter = Divider.count n1.toNat (k + 1) := by
    have hlast := Divider.count_eq_one_iff (k := k) hn1
    rw [(T8253Stat.pitcountJob_mode2 h.running1 h.mode1).2, h.counter1, h.base1,
      Divider.count_succ]
    by_cases hdvd : n1.toNat ∣ k + 1
    · have hone := hlast.mpr hdvd
      rw [if_pos hdvd, if_pos (by omega)]
    · have hmore : Divider.count n1.toNat k ≠ 1 := fun hone => hdvd (hlast.mp hone)
      rw [if_neg hdvd, if_neg (by omega)]
      omega
  have hcount2 : ((M5Z80.pitCount m).2.stat8253 2).counter =
      (n2.toNat - (k + 1) / n1.toNat : Nat) := by
    rw [h2, Nat.succ_div]
    split
    · rw [(T8253Stat.pitcountJob_mode0 h.running2 h.mode2).2, h.counter2]
      split <;> omega
    · exact h.counter2
  constructor
  · rw [h1, htick1]
    exact h.running1
  · rw [h1, htick1]
    exact h.mode1
  · rw [h1, htick1]
    exact h.base1
  · rw [h1, hcount1]
  · rw [h2, htick2]
    split <;> exact h.running2
  · rw [h2, htick2]
    split <;> exact h.mode2
  · exact hcount2

/-- What a call returns. -/
theorem fst_pitCount_iff (h : Cascade n1 n2 k m) (hn1 : 0 < n1.toNat) :
    (M5Z80.pitCount m).1 ≠ 0 ↔ n1.toNat ∣ k + 1 ∧ n1.toNat * (n2.toNat + 1) ≤ k + 1 := by
  rw [fst_pitCount]
  by_cases hout : (m.stat8253 1).out ≠ 0
  · have hdvd := (h.out1_iff hn1).mp hout
    rw [if_pos hout, h.out2_iff, Divider.le_div_iff hn1 hdvd, and_iff_right hdvd]
  · rw [if_neg hout]
    exact iff_of_false (fun hne => hne rfl) fun hpulse => hout ((h.out1_iff hn1).mpr hpulse.1)

end Cascade

/-! ## the period -/

/-- The machines that the calls of `pit_count` find, one after the other:
from one call to the next nothing touches the channels 1 and 2. -/
structure Uninterrupted (s : Nat → Machine) : Prop where
  channel1 : ∀ k, (s (k + 1)).stat8253 1 = (pitCount (s k)).2.stat8253 1
  channel2 : ∀ k, (s (k + 1)).stat8253 2 = (pitCount (s k)).2.stat8253 2

/-- By induction on the ticks: between two pulses of channel 1 nothing reaches channel 2. -/
theorem Uninterrupted.cascade {s : Nat → Machine} (h : Uninterrupted s) {n1 n2 : UInt16}
    (hn1 : 0 < n1.toNat) (hstart : Cascade n1 n2 0 (s 0)) (k : Nat) : Cascade n1 n2 k (s k) := by
  induction k with
  | zero => exact hstart
  | succ k ih => exact (ih.pitCount hn1).congr (h.channel1 k) (h.channel2 k)

/-- Channels 1 and 2 in a cascade: after accesses that program channel 1 to
mode 2 with `n1` and channel 2 to mode 0 with `n2`, call number `k` of
`pit_count` returns non-zero exactly when `k` is a multiple of `n1` and at
least `n1 * (n2 + 1)`. -/
theorem cascade_period {m : Machine} {ops : List (Fin 3 × PitAccess)} {cw1 cw2 : UInt32}
    {n1 n2 : UInt16} (hn1 : n1 ≠ 0) (hrl1 : accessFormat cw1 = 3) (hmode1 : modeField cw1 = 2)
    (hrl2 : accessFormat cw2 = 3) (hmode2 : modeField cw2 = 0)
    (hops1 : accessesTo 1 ops = loadCount cw1 n1) (hops2 : accessesTo 2 ops = loadCount cw2 n2)
    {s : Nat → Machine} (hstart : s 0 = runAccesses ops m) (hs : Uninterrupted s) (k : Nat)
    (hk : 0 < k) :
    (pitCount (s (k - 1))).1 ≠ 0 ↔ n1.toNat ∣ k ∧ n1.toNat * (n2.toNat + 1) ≤ k := by
  have hpos : 0 < n1.toNat :=
    Nat.pos_of_ne_zero fun hzero => hn1 (UInt16.toNat_inj.mp hzero)
  have h1 := T8253Stat.programmed_loadCount hrl1 n1 (m.stat8253 1)
  have h2 := T8253Stat.programmed_loadCount hrl2 n2 (m.stat8253 2)
  rw [← hops1, ← (runAccesses_eq 1 ops m).1, ← hstart, hmode1] at h1
  rw [← hops2, ← (runAccesses_eq 2 ops m).1, ← hstart, hmode2] at h2
  have hzero : Cascade n1 n2 0 (s 0) := by
    refine ⟨h1.running, h1.mode_eq, h1.base, ?_, h2.running, h2.mode_eq, ?_⟩
    · rw [h1.counter, Divider.count_zero]
    · rw [h2.counter, Nat.zero_div, Nat.sub_zero]
  obtain ⟨k, rfl⟩ : ∃ j, k = j + 1 := ⟨k - 1, by omega⟩
  rw [Nat.add_sub_cancel]
  exact (hs.cascade hpos hzero k).fst_pitCount_iff hpos

/-- Ticks alone are uninterrupted. -/
theorem uninterrupted_afterCounts (m : Machine) : Uninterrupted fun k => afterCounts k m where
  channel1 k := by rw [afterCounts_succ]
  channel2 k := by rw [afterCounts_succ]

/-- The accesses that load counts of 2 and 1. -/
def cascadeOps : List (Fin 3 × PitAccess) :=
  (loadCount 0x74 2).map (fun a => (1, a)) ++ (loadCount 0xB0 1).map (fun a => (2, a))

/-- The first interrupt is that of call 4. -/
theorem cascade_period_four :
    (pitCount (afterCounts 3 (runAccesses cascadeOps (mzReset 0 Machine.cold)))).1 ≠ 0 :=
  (cascade_period (m := mzReset 0 Machine.cold)
    (s := fun k => afterCounts k (runAccesses cascadeOps (mzReset 0 Machine.cold)))
    (by decide) (by decide) (by decide) (by decide) (by decide)
    (rfl : accessesTo 1 cascadeOps = loadCount 0x74 2)
    (rfl : accessesTo 2 cascadeOps = loadCount 0xB0 1) rfl (uninterrupted_afterCounts _) 4
    (by decide)).mpr (by decide)

end M5Z80
