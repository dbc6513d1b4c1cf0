import M5Z80.Counters

/-!
# M5Z80.CounterLoad

Ticks between the two writes that load a count.  The low byte is stored as a
count of its own; a channel that runs goes on with it unless it is in mode 2
and does not start again before the high byte is there.
-/

namespace M5Z80

namespace T8253Stat

/-! ## what a tick sees -/

/-- What a tick looks at: the counter, and where mode 2 starts again, the
base. -/
def sight (st : T8253Stat) : List Int :=
  if st.running = 0 then []
  else if st.mode = 0 ∨ st.mode = 4 then [st.counter]
  else if st.mode = 2 then
    if st.counter - 1 ≤ 0 then [st.counter, (st.counterBase.toNat : Int)] else [st.counter]
  else []

/-- A stopped channel is not looked at. -/
theorem sight_stopped {st : T8253Stat} (h : st.running = 0) : st.sight = [] := if_pos h

/-- In modes 0 and 4 a tick looks at the counter. -/
theorem sight_mode04 {st : T8253Stat} (hrun : st.running ≠ 0) (h : st.mode = 0 ∨ st.mode = 4) :
    st.sight = [st.counter] := by
  rw [sight, if_neg hrun, if_pos h]

/-- In mode 2 it looks at the base as well when the counter runs out. -/
theorem sight_mode2 {st : T8253Stat} (hrun : st.running ≠ 0) (h : st.mode = 2) : st.sight =
    if st.counter - 1 ≤ 0 then [st.counter, (st.counterBase.toNat : Int)] else [st.counter] := by
  have hne : ¬ (st.mode = 0 ∨ st.mode = 4) := by
    rw [h]
    decide
  rw [sight, if_neg hrun, if_neg hne, if_pos h]

/-- The sight of a tick and the state of the channel decide what it puts
out. -/
theorem out_congr {st st' : T8253Stat} (hrun : st.running = st'.running)
    (hmode : st.mode = st'.mode) (h : st.sight = st'.sight) : st.out = st'.out := by
  by_cases hstop : st.running = 0
  · rw [out, out, pitcountJob_stopped hstop, pitcountJob_stopped (hrun ▸ hstop)]
  have hstop' : st'.running ≠ 0 := hrun ▸ hstop
  by_cases h04 : st.mode = 0 ∨ st.mode = 4
  · have hcounter : st.counter = st'.counter := by
      rw [sight_mode04 hstop h04, sight_mode04 hstop' (hmode ▸ h04)] at h
      exact List.head_eq_of_cons_eq h
    simp only [out, pitcountJob, if_neg hstop, if_neg hstop', ← hmode, ← hcounter]
    grind
  by_cases h2 : st.mode = 2
  · have hcounter : st.counter = st'.counter := by
      rw [sight_mode2 hstop h2, sight_mode2 hstop' (hmode ▸ h2)] at h
      grind
    rw [(pitcountJob_mode2 hstop h2).1, (pitcountJob_mode2 hstop' (hmode ▸ h2)).1, hcounter]
  · rw [not_or] at h04
    simp only [out, pitcountJob, if_neg hstop, if_neg hstop', ← hmode, if_neg h04.1, if_neg h04.2,
      if_neg h2]

/-! ## one channel between the writes -/

/-- The next `k` ticks of the channel see and put out the same whatever low
byte has just been written. -/
def Untorn (k : Nat) (v : UInt16) (st : T8253Stat) : Prop :=
  ∀ v' : UInt16, ∀ i < k,
    (tick^[i] (st.write (lowByte v))).sight = (tick^[i] (st.write (lowByte v'))).sight ∧
      (tick^[i] (st.write (lowByte v))).out = (tick^[i] (st.write (lowByte v'))).out

/-- The low byte stays out of sight of `k` ticks: there are none, the channel
stands still, or mode 2 goes on with the count that it has. -/
def Hidden (k : Nat) (st : T8253Stat) : Prop :=
  k = 0 ∨ st.running = 0 ∨ st.mode = 2 ∧ (k : Int) < st.counter

instance (k : Nat) (st : T8253Stat) : Decidable (st.Hidden k) :=
  inferInstanceAs (Decidable (_ ∨ _))

/-- Ticks after the low byte change the counter and the output. -/
theorem iterate_lowByte {st : T8253Stat} (hrl : st.rl = 3) (hhl : st.bitHl = 0) (v : UInt16)
    (i : Nat) : ∃ counter counterOut, tick^[i] (st.write (lowByte v)) =
      { st with
        counterOut := counterOut
        latFlag := 0
        bitHl := 1
        counterBase := halfCount v
        counter := counter } := by
  obtain ⟨counterOut, hlow⟩ := write_lowByte hrl hhl v
  obtain ⟨counter, counterOut', heq⟩ := iterate_tick_eq i (st.write (lowByte v))
  refine ⟨counter, counterOut', ?_⟩
  rw [heq, hlow]

/-- The first half of a count reaches the counter at once where it is loaded at all. -/
theorem counter_lowByte {st : T8253Stat} (hrl : st.rl = 3) (hhl : st.bitHl = 0) (v : UInt16) :
    (st.write (lowByte v)).counter =
      if st.Loads then ((v.toNat % 256 : Nat) : Int) else st.counter := by
  obtain ⟨counterOut, hlow⟩ := write_lowByte hrl hhl v
  rw [hlow, ← toNat_halfCount]

/-- The low byte itself is what a tick sees otherwise. -/
theorem mem_sight_of_not_hidden {st : T8253Stat} (hrl : st.rl = 3) (hhl : st.bitHl = 0)
    (hmode : st.mode = 0 ∨ st.mode = 2 ∨ st.mode = 4) {k : Nat} (h : ¬ st.Hidden k) :
    ∃ i < k, ∃ seen : List Int, seen.length ≤ 1 ∧ ∀ v : UInt16,
      (tick^[i] (st.write (lowByte v))).sight = seen ++ [((v.toNat % 256 : Nat) : Int)] := by
  rw [Hidden, not_or, not_or] at h
  obtain ⟨hk, hrun, h2⟩ := h
  by_cases hmode2 : st.mode = 2
  · -- the tick at which mode 2 starts again
    have hlast : st.counter ≤ k := by
      by_contra hlt
      exact h2 ⟨hmode2, by omega⟩
    have hkeep : ¬ st.Loads := by
      rw [Loads, hmode2]
      simp [hrun]
    refine ⟨st.counter.toNat - 1, by omega, [st.counter - (st.counter.toNat - 1 : Nat)],
      Nat.le_refl 1, fun v => ?_⟩
    obtain ⟨counter, counterOut, heq⟩ := iterate_lowByte hrl hhl v (st.counter.toNat - 1)
    have hcounter : (tick^[st.counter.toNat - 1] (st.write (lowByte v))).counter =
        st.counter - (st.counter.toNat - 1 : Nat) := by
      obtain ⟨_, _, hstart⟩ := iterate_lowByte hrl hhl v 0
      have hlow := counter_lowByte hrl hhl v
      rw [if_neg hkeep] at hlow
      by_cases hpos : 0 < st.counter
      · rw [counter_iterate_mode2, hlow]
        · rw [show st.write (lowByte v) = _ from hstart]
          exact hrun
        · rw [show st.write (lowByte v) = _ from hstart]
          exact hmode2
        · rw [hlow]
          omega
      · have hzero : st.counter.toNat - 1 = 0 := by omega
        rw [hzero, Function.iterate_zero_apply, hlow]
        omega
    rw [sight_mode2 (by rw [heq]; exact hrun) (by rw [heq]; exact hmode2), hcounter,
      if_pos (by omega), ← toNat_halfCount, heq]
    rfl
  · -- the first tick
    have h04 : st.mode = 0 ∨ st.mode = 4 := by
      rcases hmode with h | h | h
      · exact .inl h
      · exact absurd h hmode2
      · exact .inr h
    have hloads : st.Loads := by
      refine .inr ⟨hmode2, ?_⟩
      rcases h04 with h | h <;> rw [h] <;> decide
    refine ⟨0, Nat.pos_of_ne_zero hk, [], Nat.zero_le 1, fun v => ?_⟩
    obtain ⟨_, _, heq⟩ := iterate_lowByte hrl hhl v 0
    have hlow := counter_lowByte hrl hhl v
    rw [if_pos hloads] at hlow
    rw [Function.iterate_zero_apply] at heq ⊢
    rw [sight_mode04 (by rw [heq]; exact hrun) (by rw [heq]; exact h04), hlow]
    rfl

/-- A half count that no tick looks at is not seen. -/
theorem untorn_of_hidden {st : T8253Stat} (hrl : st.rl = 3) (hhl : st.bitHl = 0) {k : Nat}
    (h : st.Hidden k) (v : UInt16) : st.Untorn k v := by
  have hsight (v' : UInt16) {i : Nat} (hi : i < k) :
      (tick^[i] (st.write (lowByte v'))).sight =
        if st.running = 0 then [] else [st.counter - i] := by
    obtain ⟨_, _, heq⟩ := iterate_lowByte hrl hhl v' i
    obtain ⟨_, _, hstart⟩ := iterate_lowByte hrl hhl v' 0
    have hlow := counter_lowByte hrl hhl v'
    rcases h with hk | hstop | ⟨hmode, hcount⟩
    · omega
    · rw [if_pos hstop, sight_stopped (by rw [heq]; exact hstop)]
    · by_cases hstop : st.running = 0
      · rw [if_pos hstop, sight_stopped (by rw [heq]; exact hstop)]
      have hkeep : ¬ st.Loads := by
        rw [Loads, hmode]
        simp [hstop]
      rw [if_neg hkeep] at hlow
      have hcounter : (tick^[i] (st.write (lowByte v'))).counter = st.counter - i := by
        rw [counter_iterate_mode2, hlow]
        · rw [show st.write (lowByte v') = _ from hstart]
          exact hstop
        · rw [show st.write (lowByte v') = _ from hstart]
          exact hmode
        · rw [hlow]
          omega
      rw [if_neg hstop, sight_mode2 (by rw [heq]; exact hstop) (by rw [heq]; exact hmode), hcounter,
        if_neg (by omega)]
  intro v' i hi
  obtain ⟨_, _, heq⟩ := iterate_lowByte hrl hhl v i
  obtain ⟨_, _, heq'⟩ := iterate_lowByte hrl hhl v' i
  have hsame := (hsight v hi).trans (hsight v' hi).symm
  refine ⟨hsame, out_congr ?_ ?_ hsame⟩
  · rw [heq, heq']
  · rw [heq, heq']

/-- In the modes that count, a count is torn exactly when a tick can see its first half. -/
theorem untorn_iff {st : T8253Stat} (hrl : st.rl = 3) (hhl : st.bitHl = 0)
    (hmode : st.mode = 0 ∨ st.mode = 2 ∨ st.mode = 4) (k : Nat) (v : UInt16) :
    st.Untorn k v ↔ st.Hidden k := by
  refine ⟨fun h => ?_, fun h => untorn_of_hidden hrl hhl h v⟩
  by_contra hseen
  obtain ⟨i, hi, seen, -, hsight⟩ := mem_sight_of_not_hidden hrl hhl hmode hseen
  have hsame := (h (v + 1) i hi).1
  rw [hsight v, hsight (v + 1), List.append_cancel_left_eq, List.cons.injEq] at hsame
  have hnext := hsame.1
  rw [UInt16.toNat_add, UInt16.toNat_one] at hnext
  omega

end T8253Stat

/-! ## the machine between the writes -/

/-- The machine `n` calls of `pit_count` after the low byte of a count was
written to a channel. -/
def halfLoaded (no : Fin 3) (v : UInt16) (n : Nat) (m : Machine) : Machine :=
  afterCounts n ((PitAccess.write (lowByte v)).run no m).2

/-- The machine after the high byte. -/
def fullyLoaded (no : Fin 3) (v : UInt16) (n : Nat) (m : Machine) : Machine :=
  ((PitAccess.write (highByte v)).run no (halfLoaded no v n m)).2

/-- A count is loaded in one piece around `n` calls of `pit_count`: the calls
that count the channel see the same of it, and it puts out the same,
whatever the low byte is; and the second write completes the count. -/
structure CountLoaded (no : Fin 3) (v : UInt16) (n : Nat) (m : Machine) : Prop where
  sight : ∀ v' : UInt16, ∀ j < n, Ticked no (halfLoaded no v j m) →
    ((halfLoaded no v j m).stat8253 no).sight = ((halfLoaded no v' j m).stat8253 no).sight
  out : ∀ v' : UInt16, ∀ j < n, Ticked no (halfLoaded no v j m) →
    ((halfLoaded no v j m).stat8253 no).out = ((halfLoaded no v' j m).stat8253 no).out
  base : ((fullyLoaded no v n m).stat8253 no).counterBase = v

/-- A write of a counter register is the write of its channel. -/
theorem stat8253_write (no : Fin 3) (val : UInt32) (m : Machine) :
    ((PitAccess.write val).run no m).2.stat8253 no = (m.stat8253 no).write val := by
  rw [(PitAccess.run_eq no _ m).2, Function.update_self]
  rfl

/-- The clock of a channel does not depend on its count. -/
theorem ticked_halfLoaded (no : Fin 3) (v : UInt16) (n : Nat) (m : Machine) :
    Ticked no (halfLoaded no v n m) ↔ Ticked no (afterCounts n m) := by
  refine ticked_afterCounts_congr no (fun hno => ?_) n
  rw [(PitAccess.run_eq no _ m).2, Function.update_of_ne]
  rw [hno]
  decide

/-- Between the two halves a channel ticks as it would alone. -/
theorem stat8253_halfLoaded (no : Fin 3) (v : UInt16) (n : Nat) (m : Machine) :
    (halfLoaded no v n m).stat8253 no =
      T8253Stat.tick^[ticksOf no n m] ((m.stat8253 no).write (lowByte v)) := by
  have hcount : ticksOf no n ((PitAccess.write (lowByte v)).run no m).2 = ticksOf no n m := by
    simp only [ticksOf, Nat.count_eq_card_filter_range]
    exact congrArg _ (Finset.filter_congr fun j _ => ticked_halfLoaded no v j m)
  rw [halfLoaded, stat8253_afterCounts, hcount, stat8253_write]

/-- What holds at every call that counts the channel, by the count of them. -/
theorem forall_counted_iff {p : Nat → Prop} [DecidablePred p] {P : Nat → Prop} (n : Nat) :
    (∀ j < n, p j → P (Nat.count p j)) ↔ ∀ i < Nat.count p n, P i := by
  induction n with
  | zero => simp
  | succ n ih =>
      rw [Nat.forall_lt_succ_right, ih, Nat.count_succ]
      by_cases hp : p n
      · rw [if_pos hp, Nat.forall_lt_succ_right]
        exact and_congr_right fun _ => ⟨fun h => h hp, fun h _ => h⟩
      · rw [if_neg hp]
        exact ⟨fun h => h.1, fun h => ⟨h, fun hp' => absurd hp' hp⟩⟩

/-- A count is loaded in one piece exactly when no call of `pit_count`
between the writes counts the channel, or it does not run, or it is in mode
2 and its count outlasts these calls. -/
theorem countLoaded_iff {no : Fin 3} {m : Machine} (hrl : (m.stat8253 no).rl = 3)
    (hhl : (m.stat8253 no).bitHl = 0)
    (hmode : (m.stat8253 no).mode = 0 ∨ (m.stat8253 no).mode = 2 ∨ (m.stat8253 no).mode = 4)
    (v : UInt16) (n : Nat) :
    CountLoaded no v n m ↔
      ticksOf no n m = 0 ∨ (m.stat8253 no).running = 0 ∨
        (m.stat8253 no).mode = 2 ∧ (ticksOf no n m : Int) < (m.stat8253 no).counter := by
  have hbase : ((fullyLoaded no v n m).stat8253 no).counterBase = v := by
    obtain ⟨counter, counterOut, heq⟩ := T8253Stat.iterate_lowByte hrl hhl v (ticksOf no n m)
    rw [← stat8253_halfLoaded] at heq
    have hrl' : ((halfLoaded no v n m).stat8253 no).rl = 3 := by
      rw [heq]
      exact hrl
    obtain ⟨_, hhigh⟩ := T8253Stat.write_highByte hrl' (v := v) (by rw [heq]) (by rw [heq])
    rw [fullyLoaded, stat8253_write, hhigh]
  have huntorn : CountLoaded no v n m ↔ (m.stat8253 no).Untorn (ticksOf no n m) v := by
    constructor
    · intro h v'
      refine (forall_counted_iff n).mp fun j hj hticked => ?_
      have hcount := (ticked_halfLoaded no v j m).mpr hticked
      have hsight := h.sight v' j hj hcount
      have hout := h.out v' j hj hcount
      rw [stat8253_halfLoaded, stat8253_halfLoaded] at hsight hout
      exact ⟨hsight, hout⟩
    · intro h
      have hall (v' : UInt16) := (forall_counted_iff n).mpr (h v')
      refine ⟨fun v' j hj hcount => ?_, fun v' j hj hcount => ?_, hbase⟩
      · rw [stat8253_halfLoaded, stat8253_halfLoaded]
        exact (hall v' j hj ((ticked_halfLoaded no v j m).mp hcount)).1
      · rw [stat8253_halfLoaded, stat8253_halfLoaded]
        exact (hall v' j hj ((ticked_halfLoaded no v j m).mp hcount)).2
  rw [huntorn]
  exact T8253Stat.untorn_iff hrl hhl hmode _ v

/-! ### a running channel -/

/-- The machine in which the guest has programmed channel 1. -/
def countingMachine (cw : UInt32) (n : UInt16) : Machine :=
  runAccesses ((loadCount cw n).map (fun a => (1, a))) (mzReset 0 Machine.cold)

/-- A new count for channel 1 in mode 2, with five ticks between its bytes. -/
theorem countLoaded_mode2 : CountLoaded 1 0x0200 5 (countingMachine 0x34 0x0100) :=
  (countLoaded_iff (by decide +kernel) (by decide +kernel) (by decide +kernel) 0x0200 5).mpr
    (by decide +kernel)

/-- A count of `0100` for channel 1 in mode 0: between the writes the counter
is `0000`, and a tick puts out a pulse. -/
theorem not_countLoaded : ¬ ∀ (no : Fin 3) (m : Machine) (v : UInt16) (n : Nat),
    (m.stat8253 no).rl = 3 → (m.stat8253 no).bitHl = 0 →
    (m.stat8253 no).mode = 0 ∨ (m.stat8253 no).mode = 2 ∨ (m.stat8253 no).mode = 4 →
    CountLoaded no v n m := by
  intro h
  have hloaded := h 1 (countingMachine 0x30 0xFFFF) 0x0100 1 (by decide +kernel)
    (by decide +kernel) (by decide +kernel)
  have hout := hloaded.out 0x0101 0 (by decide) (.inl rfl)
  revert hout
  decide +kernel

end M5Z80
