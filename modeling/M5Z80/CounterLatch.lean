import M5Z80.Counters

/-!
# M5Z80.CounterLatch

Reading a latched count.  Ticks and accesses to other channels leave alone
what the reads of a channel go by.  So the first reads after a latch return
the bytes of the count at the latch, however far apart they are, and the
following ones the live counter.
-/

namespace M5Z80

/-! ## what reads return -/

/-- How many reads it takes to read a count. -/
def readsOf (rl : UInt8) : Nat := if rl = 3 then 2 else 1

/-- The byte of a count that the read returns that has `n` before it. -/
def byteRead (rl : UInt8) (n : Nat) (count : Int) : Int :=
  if rl = 1 ∨ rl = 3 ∧ n % 2 = 0 then count % 256 else count / 256

namespace T8253Stat

/-- The count that reads return bytes of. -/
def shown (st : T8253Stat) : Int := if st.latFlag ≠ 0 then st.counterLat.toNat else st.counter

/-- A channel that is not latched has no latch to drop. -/
theorem unlatched_eq {st : T8253Stat} (h : ¬ st.latFlag ≠ 0) : { st with latFlag := 0 } = st := by
  rw [← not_not.mp h]

/-- In format 1 a read gives the low byte of what is shown. -/
theorem read_format1 {st : T8253Stat} (h : st.rl = 1) :
    st.read = (st.shown % 256, { st with latFlag := 0 }) := by
  rw [read, shown, if_pos h, if_pos h]
  split
  · rfl
  · next hflag => rw [unlatched_eq hflag]

/-- In format 2 it gives the high byte. -/
theorem read_format2 {st : T8253Stat} (h : st.rl = 2) :
    st.read = (st.shown / 256, { st with latFlag := 0 }) := by
  have hne : ¬ st.rl = 1 := by
    rw [h]
    decide
  rw [read, shown, if_neg hne, if_neg hne, if_pos h, if_pos h]
  split
  · rfl
  · next hflag => rw [unlatched_eq hflag]

/-- In format 3 the flip-flop chooses the byte, and the high one drops the latch. -/
theorem read_format3 {st : T8253Stat} (h : st.rl = 3) : st.read =
    if st.bitHl ^^^ 1 ≠ 0 then (st.shown % 256, { st with bitHl := st.bitHl ^^^ 1 })
    else (st.shown / 256, { st with bitHl := st.bitHl ^^^ 1, latFlag := 0 }) := by
  have hne1 : ¬ st.rl = 1 := by
    rw [h]
    decide
  have hne2 : ¬ st.rl = 2 := by
    rw [h]
    decide
  rw [read, shown, if_neg hne1, if_neg hne2, if_pos h, if_neg hne1, if_neg hne2, if_pos h]
  by_cases hflag : st.latFlag ≠ 0
  · rw [if_pos hflag, if_pos hflag]
  · rw [if_neg hflag, if_neg hflag]
    dsimp only
    rw [not_not.mp hflag]

end T8253Stat

/-- A channel of access format `rl`, `n` reads after `latched` was latched. -/
structure T8253Stat.ReadOf (rl : UInt8) (latched : Int) (n : Nat) (st : T8253Stat) : Prop where
  format : st.rl = rl
  flag : st.latFlag ≠ 0 ↔ n < readsOf rl
  count : n < readsOf rl → (st.counterLat.toNat : Int) = latched
  half : st.bitHl = if rl = 3 ∧ n % 2 = 1 then 1 else 0

namespace T8253Stat.ReadOf

variable {rl : UInt8} {latched : Int} {n : Nat} {st st' : T8253Stat}

/-- Reads go by these four fields. -/
theorem congr (h : st.ReadOf rl latched n) (hrl : st'.rl = st.rl)
    (hflag : st'.latFlag = st.latFlag) (hlat : st'.counterLat = st.counterLat)
    (hhl : st'.bitHl = st.bitHl) : st'.ReadOf rl latched n where
  format := hrl.trans h.format
  flag := by rw [hflag, h.flag]
  count := by rw [hlat]; exact h.count
  half := hhl.trans h.half

/-- A latch command. -/
theorem control (hrl : st.rl = rl) (hhl : st.bitHl = 0) {dat : T8253Dat} (hlatch : dat.rl = 0) :
    (st.control dat).ReadOf rl (st.counter % 0x10000) 0 := by
  have hreads : 0 < readsOf rl := by
    rw [readsOf]
    split <;> decide
  have hcontrol : st.control dat =
      { st with counterOut := 0, counterLat := UInt16.ofInt st.counter, latFlag := 1 } := by
    rw [T8253Stat.control]
    exact if_pos hlatch
  rw [hcontrol]
  refine ⟨hrl, iff_of_true Int.one_ne_zero hreads, fun _ => ?_, ?_⟩
  · have hlt := Int.emod_lt_of_pos st.counter (show (0 : Int) < 0x10000 by decide)
    have hnonneg := Int.emod_nonneg st.counter (show (0x10000 : Int) ≠ 0 by decide)
    change (((UInt16.ofNat (st.counter % 2 ^ 16).toNat).toNat : Nat) : Int) = _
    rw [UInt16.toNat_ofNat']
    omega
  · rw [if_neg fun hodd => absurd hodd.2 (by decide)]
    exact hhl

/-- The latched value is shown until its last read, the counter after it. -/
theorem shown (h : st.ReadOf rl latched n) :
    st.shown = if n < readsOf rl then latched else st.counter := by
  rw [T8253Stat.shown, if_congr h.flag rfl rfl]
  split
  · next hn => exact h.count hn
  · rfl

/-- One read. -/
theorem read (h : st.ReadOf rl latched n) (hrl : rl = 1 ∨ rl = 2 ∨ rl = 3) :
    st.read.1 = byteRead rl n (if n < readsOf rl then latched else st.counter) ∧
      st.read.2.ReadOf rl latched (n + 1) := by
  rw [← h.shown]
  rcases hrl with rfl | rfl | rfl
  · rw [read_format1 h.format]
    refine ⟨rfl, h.format, ?_, ?_, h.half⟩
    · simp [readsOf]
    · simp [readsOf]
  · rw [read_format2 h.format]
    refine ⟨rfl, h.format, ?_, ?_, h.half⟩
    · simp [readsOf]
    · simp [readsOf]
  · have hreads : readsOf 3 = 2 := rfl
    have hflag := h.flag
    have hcount := h.count
    rw [hreads] at hflag hcount
    rw [read_format3 h.format, byteRead]
    rcases Nat.mod_two_eq_zero_or_one n with heven | hodd
    · -- the low byte; the latch stays for the high one
      have hhalf : st.bitHl = 0 := by
        rw [h.half]
        exact if_neg fun hodd => by omega
      rw [hhalf, if_pos (by decide), if_pos (.inr ⟨rfl, heven⟩)]
      refine ⟨rfl, h.format, ?_, fun hn => ?_, ?_⟩
      · rw [hreads]
        exact hflag.trans (by omega)
      · rw [hreads] at hn
        exact hcount (by omega)
      · exact (if_pos ⟨rfl, by omega⟩).symm
    · have hhalf : st.bitHl = 1 := by
        rw [h.half]
        exact if_pos ⟨rfl, hodd⟩
      rw [hhalf, if_neg (by decide), if_neg (by simp [hodd])]
      refine ⟨rfl, h.format, ?_, fun hn => ?_, ?_⟩
      · rw [hreads]
        exact iff_of_false (fun hne => hne rfl) (by omega)
      · rw [hreads] at hn
        omega
      · exact (if_neg fun hnext => by omega).symm

end T8253Stat.ReadOf

/-! ## the machine between reads -/

/-- A step that does not access the channel. -/
def PitStep.Aside (no : Fin 3) : PitStep → Prop
  | .access i _ => i ≠ no
  | .tick => True

/-- Such steps, and then a read of the channel. -/
def readAfter (no : Fin 3) (asides : List PitStep) (m : Machine) : List Int × Machine :=
  PitAccess.read.run no (Run.exec PitStep.apply asides m)

/-- The machine after reads of the channel with such steps before each. -/
def afterReads (no : Fin 3) (gaps : List (List PitStep)) (m : Machine) : Machine :=
  Run.exec (fun asides m => (readAfter no asides m).2) gaps m

section

variable {no : Fin 3} {rl : UInt8} {latched : Int} {n : Nat} {m : Machine}

/-- A tick or an access that does not touch the latch of the channel leaves what its reads
give. -/
theorem T8253Stat.ReadOf.aside (h : (m.stat8253 no).ReadOf rl latched n) {op : PitStep} (hop : op.Aside no) :
    ((op.apply m).stat8253 no).ReadOf rl latched n := by
  cases op with
  | access i a =>
      rw [PitStep.apply, (a.run_eq i m).2, Function.update_of_ne (Ne.symm hop)]
      exact h
  | tick =>
      obtain ⟨counter, counterOut, htick⟩ := (m.stat8253 no).tick_eq
      rw [PitStep.apply, stat8253_pitCount]
      split
      · rw [htick]
        exact h.congr rfl rfl rfl rfl
      · exact h

/-- So do any number of them. -/
theorem T8253Stat.ReadOf.asides (h : (m.stat8253 no).ReadOf rl latched n) {asides : List PitStep}
    (hasides : ∀ op ∈ asides, op.Aside no) :
    ((Run.exec PitStep.apply asides m).stat8253 no).ReadOf rl latched n :=
  Run.Along.invariant (P := fun m : Machine => (m.stat8253 no).ReadOf rl latched n)
    (fun _ _ hm hop => hm.aside hop) ((Run.along_input_iff asides m).mpr hasides) h

/-- One read with other steps before it. -/
theorem T8253Stat.ReadOf.readAfter (h : (m.stat8253 no).ReadOf rl latched n)
    (hrl : rl = 1 ∨ rl = 2 ∨ rl = 3) {asides : List PitStep}
    (hasides : ∀ op ∈ asides, op.Aside no) :
    (readAfter no asides m).1 = [byteRead rl n (if n < readsOf rl then latched
        else ((Run.exec PitStep.apply asides m).stat8253 no).counter)] ∧
      ((readAfter no asides m).2.stat8253 no).ReadOf rl latched (n + 1) := by
  obtain ⟨hval, hnext⟩ := (h.asides hasides).read hrl
  obtain ⟨hread, hstat⟩ := PitAccess.read.run_eq no (Run.exec PitStep.apply asides m)
  refine ⟨?_, ?_⟩
  · rw [M5Z80.readAfter, hread, PitAccess.onStat, hval]
  · rw [M5Z80.readAfter, hstat, Function.update_self]
    exact hnext

/-- Each read of the channel moves on by one, whatever comes between them. -/
theorem T8253Stat.ReadOf.afterReads (h : (m.stat8253 no).ReadOf rl latched n)
    (hrl : rl = 1 ∨ rl = 2 ∨ rl = 3) {gaps : List (List PitStep)}
    (hgaps : ∀ asides ∈ gaps, ∀ op ∈ asides, op.Aside no) :
    ((afterReads no gaps m).stat8253 no).ReadOf rl latched (n + gaps.length) := by
  induction gaps generalizing m n with
  | nil => exact h
  | cons asides gaps ih =>
      rw [List.forall_mem_cons] at hgaps
      have hnext := ih (h.readAfter hrl hgaps.1).2 hgaps.2
      rw [Nat.add_assoc, Nat.add_comm 1] at hnext
      exact hnext

/-- The machine after a latch command for the channel. -/
def afterLatch (no : Fin 3) (cw : UInt32) (m : Machine) : Machine :=
  ((PitAccess.control cw).run no m).2

/-- After a latch command for a channel, its reads, with any ticks and
accesses to other channels between them, return the bytes of the count at
the command, and once these are read, of the live counter; the half-select
is then back where it was. -/
theorem latchedReads {cw : UInt32} (hlatch : accessFormat cw = 0)
    (hrl : (m.stat8253 no).rl = 1 ∨ (m.stat8253 no).rl = 2 ∨ (m.stat8253 no).rl = 3)
    (hhl : (m.stat8253 no).bitHl = 0) {gaps : List (List PitStep)}
    (hgaps : ∀ asides ∈ gaps, ∀ op ∈ asides, op.Aside no) {asides : List PitStep}
    (hasides : ∀ op ∈ asides, op.Aside no) :
    (readAfter no asides (afterReads no gaps (afterLatch no cw m))).1 =
        [byteRead (m.stat8253 no).rl gaps.length
          (if gaps.length < readsOf (m.stat8253 no).rl then (m.stat8253 no).counter % 0x10000
          else ((Run.exec PitStep.apply asides
            (afterReads no gaps (afterLatch no cw m))).stat8253 no).counter)] ∧
      (gaps.length = readsOf (m.stat8253 no).rl →
        ((afterReads no gaps (afterLatch no cw m)).stat8253 no).bitHl = 0) := by
  have hstart : ((afterLatch no cw m).stat8253 no).ReadOf (m.stat8253 no).rl
      ((m.stat8253 no).counter % 0x10000) 0 := by
    rw [afterLatch, (PitAccess.run_eq no _ m).2, Function.update_self]
    exact T8253Stat.ReadOf.control rfl hhl hlatch
  have hreads := hstart.afterReads hrl hgaps
  rw [Nat.zero_add] at hreads
  refine ⟨(hreads.readAfter hrl hasides).1, fun hall => ?_⟩
  rw [hreads.half, hall]
  refine if_neg fun hodd => ?_
  rw [hodd.1] at hodd
  exact absurd hodd.2 (by decide)

/-- The second read of a count of `1234`, with ticks and a write to channel 2
before each read. -/
theorem latchedReads_high :
    (readAfter 1 [.tick] (afterReads 1 [[.tick, .access 2 (.write 5)]] (afterLatch 1 0x04
        (runAccesses ((loadCount 0x34 0x1234).map (fun a => (1, a)))
          (mzReset 0 Machine.cold))))).1 = [0x12] :=
  (latchedReads (m := runAccesses ((loadCount 0x34 0x1234).map (fun a => (1, a)))
      (mzReset 0 Machine.cold)) (by decide) (by decide +kernel) (by decide +kernel)
    (by simp [PitStep.Aside]) (by simp [PitStep.Aside])).1.trans (by decide +kernel)

end

end M5Z80
