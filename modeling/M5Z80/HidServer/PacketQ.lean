import M5Z80.Lib.Ring

/-!
# M5Z80.HidServer.PacketQ

`PacketQ` of `hci_server.cpp`, the queue between the radio, the host stack and
the emulator: 32 slots under two 32-bit counters.  The mutex makes each call one
step.  Both calls begin with an assertion that fails once the counter of the
writes has wrapped; without assertions the queue would go on as before.
-/

namespace M5Z80
namespace HidServer

/-- The bytes of a packet. -/
abbrev Packet := List UInt8

/-- `PacketQ::QSIZE`. -/
def qsize : Nat := 32

/-- `PacketQ`: `readPos` and `writePos` are `_read` and `_write`.  Once `aborted`
is set an assertion has failed and the program is gone; the other fields then say
where it would be without assertions. -/
structure PacketQ where
  data : Vector Packet qsize
  readPos : UInt32
  writePos : UInt32
  aborted : Bool
  waiting_le : (writePos - readPos).toNat ≤ qsize

namespace PacketQ

/-- The slot of a position, `pos & (QSIZE-1)`. -/
def slot (pos : UInt32) : Fin qsize := ⟨(pos &&& 31).toNat, by
  rw [UInt32.toNat_and]
  exact Nat.lt_of_le_of_lt Nat.and_le_right (by decide)⟩

/-- The slot of a position is its remainder; the queue is a power of two. -/
theorem val_slot (pos : UInt32) : (slot pos).val = pos.toNat % qsize :=
  (UInt32.toNat_and ..).trans (Nat.and_two_pow_sub_one_eq_mod pos.toNat 5)

/-- A queue from `PacketQ()`. -/
def empty : PacketQ where
  data := Vector.replicate qsize []
  readPos := 0
  writePos := 0
  aborted := false
  waiting_le := by decide

/-- `assert`. -/
def assert (ok : Bool) (q : PacketQ) : PacketQ := { q with aborted := q.aborted || !ok }

/-- A read leaves the number of packets in bounds. -/
theorem waiting_add_one_le {r w : UInt32} (h : (w - r).toNat ≤ qsize) (hne : r ≠ w) :
    (w - (r + 1)).toNat ≤ qsize := by
  have hne' : r.toNat ≠ w.toNat := fun heq => hne (UInt32.toNat_inj.mp heq)
  have hr := r.toNat_lt
  have hw := w.toNat_lt
  rw [UInt32.toNat_sub] at h ⊢
  rw [UInt32.toNat_add, UInt32.toNat_one]
  change _ ≤ 32 at h ⊢
  omega

/-- `_read++`. -/
def advance (q : PacketQ) (h : q.readPos ≠ q.writePos) : PacketQ :=
  { q with readPos := q.readPos + 1, waiting_le := waiting_add_one_le q.waiting_le h }

/-- `read`: the oldest packet, if one waits.  With none the assertion holds. -/
def read (q : PacketQ) : Option (Packet × PacketQ) :=
  if h : q.readPos = q.writePos then none
  else some (q.data[slot q.readPos], (q.assert (q.readPos ≤ q.writePos)).advance h)

/-- So does a write that finds room. -/
theorem waiting_succ_le {r w : UInt32} (h : (w - r).toNat ≤ qsize)
    (hne : (w - r).toNat ≠ qsize) : (w + 1 - r).toNat ≤ qsize := by
  have hr := r.toNat_lt
  have hw := w.toNat_lt
  rw [UInt32.toNat_sub] at h hne ⊢
  rw [UInt32.toNat_add, UInt32.toNat_one]
  change _ ≤ 32 at h ⊢
  change _ ≠ 32 at hne
  omega

/-- `_data[_write++ & (QSIZE-1)] = d`. -/
def append (q : PacketQ) (d : Packet) (h : (q.writePos - q.readPos).toNat ≠ qsize) : PacketQ where
  data := q.data.set (slot q.writePos) d
  readPos := q.readPos
  writePos := q.writePos + 1
  aborted := q.aborted
  waiting_le := waiting_succ_le q.waiting_le h

/-- `write`: refused when all slots wait to be read. -/
def write (d : Packet) (q : PacketQ) : Bool × PacketQ :=
  let q := q.assert (q.readPos ≤ q.writePos ∧ q.writePos - q.readPos ≤ 32)
  if h : (q.writePos - q.readPos).toNat = qsize then (false, q) else (true, q.append d h)

/-! ## contents -/

/-- The packets that wait, oldest first. -/
def contents (q : PacketQ) : List Packet :=
  (List.range (q.writePos - q.readPos).toNat).map fun i =>
    q.data[slot (q.readPos + UInt32.ofNat i)]

@[simp] theorem length_contents (q : PacketQ) :
    q.contents.length = (q.writePos - q.readPos).toNat := by simp [contents]

/-- The queue holds 32 packets at most. -/
theorem length_contents_le (q : PacketQ) : q.contents.length ≤ qsize :=
  q.length_contents.trans_le q.waiting_le

/-- The slots of the queue, over all positions. -/
def slots (q : PacketQ) (k : Nat) : Packet :=
  q.data[(⟨k % qsize, Nat.mod_lt _ (by decide)⟩ : Fin qsize)]

/-- The contents are the packets between the counters. -/
theorem holds_contents (q : PacketQ) :
    Ring.Holds q.slots qsize ⟨q.readPos.toNat, q.contents⟩ where
  length_le := q.length_contents_le
  slot i hi := by
    have hlen := q.length_contents_le
    rw [length_contents] at hi hlen
    have hi' : i < 32 := hi.trans_le hlen
    have hval : (slot (q.readPos + UInt32.ofNat i)).val = (q.readPos.toNat + i) % qsize := by
      rw [val_slot, UInt32.toNat_add, UInt32.toNat_ofNat_of_lt' (hi'.trans (by decide))]
      exact Nat.mod_mod_of_dvd _ (by decide)
    simp only [contents, slots, List.getElem?_map, List.getElem?_range hi, Option.map_some,
      Fin.getElem_fin, hval, Nat.mod_mod]

@[simp] theorem contents_empty : empty.contents = [] := rfl

/-- What waits, from slots that hold it. -/
theorem contents_eq {q : PacketQ} {taken : Nat} {xs : List Packet}
    (h : Ring.Holds q.slots qsize ⟨taken, xs⟩) (htaken : taken % qsize = q.readPos.toNat % qsize)
    (hlen : xs.length = (q.writePos - q.readPos).toNat) : q.contents = xs :=
  q.holds_contents.unique (h.congr htaken) (q.length_contents.trans hlen.symm)

/-- A queue answers that it is empty when it is. -/
theorem read_eq_none_iff (q : PacketQ) : q.read = none ↔ q.contents = [] := by
  have hr := q.readPos.toNat_lt
  have hw := q.writePos.toNat_lt
  rw [← List.length_eq_zero_iff, length_contents, UInt32.toNat_sub, read]
  by_cases heq : q.readPos = q.writePos
  · rw [dif_pos heq, heq]
    exact iff_of_true rfl (by omega)
  · rw [dif_neg heq]
    refine iff_of_false (Option.some_ne_none _) fun h => heq (UInt32.toNat_inj.mp ?_)
    omega

/-- A read takes the first packet. -/
theorem contents_advance {q : PacketQ} (h : q.readPos ≠ q.writePos) :
    q.contents = q.data[slot q.readPos] :: (q.advance h).contents := by
  have hr := q.readPos.toNat_lt
  have hw := q.writePos.toNat_lt
  have hne : q.readPos.toNat ≠ q.writePos.toNat := fun heq => h (UInt32.toNat_inj.mp heq)
  have hlen := q.length_contents
  rw [UInt32.toNat_sub] at hlen
  obtain ⟨a, rest, hcons⟩ := List.exists_cons_of_length_pos (l := q.contents) (by omega)
  have hhead : q.slots (q.readPos.toNat % qsize) = a := q.holds_contents.head hcons
  have hpop : Ring.Holds q.slots qsize ⟨q.readPos.toNat + 1, rest⟩ := by
    have hpop := q.holds_contents.pop
    rwa [hcons] at hpop
  have hrest : (q.advance h).contents = rest := by
    refine contents_eq hpop ?_ ?_
    · change _ = (q.readPos + 1).toNat % qsize
      rw [UInt32.toNat_add, UInt32.toNat_one]
      exact (Nat.mod_mod_of_dvd _ (by decide)).symm
    · change rest.length = (q.writePos - (q.readPos + 1)).toNat
      rw [hcons, List.length_cons] at hlen
      rw [UInt32.toNat_sub, UInt32.toNat_add, UInt32.toNat_one]
      omega
  rw [hrest, hcons, ← hhead, slots]
  simp only [Fin.getElem_fin, val_slot, Nat.mod_mod]

/-- A read gives the oldest packet and leaves the others. -/
theorem contents_of_read {q q' : PacketQ} {d : Packet} (h : q.read = some (d, q')) :
    q.contents = d :: q'.contents := by
  by_cases hpos : q.readPos = q.writePos
  · rw [read, dif_pos hpos] at h
    exact absurd h.symm (Option.some_ne_none _)
  · rw [read, dif_neg hpos, Option.some_inj, Prod.mk.injEq] at h
    obtain ⟨rfl, rfl⟩ := h
    exact contents_advance hpos

/-- A read moves the read position. -/
theorem readPos_of_read {q q' : PacketQ} {d : Packet} (h : q.read = some (d, q')) :
    q'.readPos = q.readPos + 1 := by
  rw [read] at h
  split at h
  · exact absurd h.symm (Option.some_ne_none _)
  · exact (congrArg readPos (congrArg Prod.snd (Option.some.inj h))).symm

/-- A write does not move the read position, whether it finds room or not. -/
theorem readPos_write (q : PacketQ) (d : Packet) : (q.write d).2.readPos = q.readPos := by
  rw [write]
  split <;> rfl

/-- A full queue refuses a packet. -/
theorem write_of_full {q : PacketQ} (h : q.contents.length = qsize) (d : Packet) :
    ∃ q', q.write d = (false, q') ∧ q'.contents = q.contents := by
  rw [length_contents] at h
  exact ⟨_, dif_pos h, rfl⟩

/-- A write with room puts its packet last. -/
theorem contents_append {q : PacketQ} (d : Packet) (h : (q.writePos - q.readPos).toNat ≠ qsize) :
    (q.append d h).contents = q.contents ++ [d] := by
  have hr := q.readPos.toNat_lt
  have hw := q.writePos.toNat_lt
  have hlen := q.length_contents
  have hlt : q.contents.length < qsize := lt_of_le_of_ne q.length_contents_le (hlen ▸ h)
  have hslots : ∀ k < qsize, (q.append d h).slots k =
      if k = (⟨q.readPos.toNat, q.contents⟩ : Ring.Fifo Packet).put % qsize then d
      else q.slots k := by
    intro k hk
    have hput : (q.readPos.toNat + q.contents.length) % qsize = q.writePos.toNat % qsize := by
      rw [hlen, UInt32.toNat_sub]
      change _ % 32 = _ % 32
      omega
    simp only [slots, append, Ring.Fifo.put, hput, Fin.getElem_fin, Vector.getElem_set, val_slot,
      Nat.mod_eq_of_lt hk, eq_comm]
  have hpush := q.holds_contents.push hlt d hslots
  rw [Ring.Fifo.push, if_pos hlt] at hpush
  refine contents_eq hpush rfl ?_
  change (q.contents ++ [d]).length = (q.writePos + 1 - q.readPos).toNat
  rw [UInt32.toNat_sub] at hlen
  rw [List.length_append, List.length_singleton, UInt32.toNat_sub, UInt32.toNat_add,
    UInt32.toNat_one]
  change _ < 32 at hlt
  omega

/-- Any other queue takes it behind the others. -/
theorem write_of_lt {q : PacketQ} (h : q.contents.length < qsize) (d : Packet) :
    ∃ q', q.write d = (true, q') ∧ q'.contents = q.contents ++ [d] := by
  have hne : (q.writePos - q.readPos).toNat ≠ qsize := by
    rw [← length_contents]
    exact h.ne
  exact ⟨_, dif_neg hne, contents_append d hne⟩

/-- Packets written one after another, as far as there is room. -/
theorem contents_foldl_write (ps : List Packet) (q : PacketQ) :
    (ps.foldl (fun q d => (q.write d).2) q).contents = (q.contents ++ ps).take qsize := by
  induction ps generalizing q with
  | nil => rw [List.foldl_nil, List.append_nil, List.take_of_length_le q.length_contents_le]
  | cons d ps ih =>
      rw [List.foldl_cons, ih]
      by_cases hlt : q.contents.length < qsize
      · obtain ⟨q', hq', hcontents⟩ := write_of_lt hlt d
        rw [hq', hcontents, List.append_assoc, List.singleton_append]
      · have hfull := le_antisymm q.length_contents_le (Nat.not_lt.mp hlt)
        obtain ⟨q', hq', hcontents⟩ := write_of_full hfull d
        rw [hq', hcontents, List.take_left' hfull, List.take_left' hfull]

/-! ## calls -/

/-- A call on a queue. -/
inductive Call
  | read
  | write (d : Packet)

/-- What a call returns: the packet of a read, whether a write was accepted. -/
inductive Answer
  | packet (d : Option Packet)
  | accepted (ok : Bool)
deriving DecidableEq

namespace Call

def step : Call → PacketQ → PacketQ
  | read, q =>
      match q.read with
      | none => q
      | some (_, q') => q'
  | write d, q => (q.write d).2

def answer (q : PacketQ) : Call → Answer
  | read => .packet (q.read.map Prod.fst)
  | write d => .accepted (q.write d).1

/-- The `assert` a call begins with. -/
def Asserts (q : PacketQ) : Call → Prop
  | read => q.readPos ≤ q.writePos
  | write _ => q.readPos ≤ q.writePos ∧ q.writePos - q.readPos ≤ 32

/-- A call that fails its assertion aborts the program. -/
theorem aborted_step (q : PacketQ) (c : Call) :
    (c.step q).aborted = false ↔ q.aborted = false ∧ c.Asserts q := by
  cases c with
  | read =>
      rw [step, Asserts, PacketQ.read]
      by_cases h : q.readPos = q.writePos
      · rw [dif_pos h]
        exact (and_iff_left (UInt32.le_of_eq h)).symm
      · rw [dif_neg h]
        change (q.aborted || !decide (q.readPos ≤ q.writePos)) = false ↔ _
        rw [Bool.or_eq_false_iff, Bool.not_eq_false', decide_eq_true_iff]
  | write d =>
      have haborted : (q.write d).2.aborted =
          (q.aborted || !decide (q.readPos ≤ q.writePos ∧ q.writePos - q.readPos ≤ 32)) := by
        rw [PacketQ.write]
        split <;> rfl
      rw [step, Asserts, haborted, Bool.or_eq_false_iff, Bool.not_eq_false', decide_eq_true_iff]

/-- The same call on a queue of unbounded counters. -/
def fifoStep : Call → Ring.Fifo Packet → Ring.Fifo Packet
  | read, f => f.pop
  | write d, f => f.push qsize d

def fifoAnswer (f : Ring.Fifo Packet) : Call → Answer
  | read => .packet f.waiting.head?
  | write _ => .accepted (f.waiting.length < qsize)

end Call

/-- The queue holds what waits in `f`, under the counters of `f` modulo `2^32`. -/
structure Refines (q : PacketQ) (f : Ring.Fifo Packet) : Prop where
  contents : q.contents = f.waiting
  readPos : q.readPos.toNat = f.taken % 2 ^ 32

namespace Refines

variable {q : PacketQ} {f : Ring.Fifo Packet}

/-- The queue is short against its counters. -/
theorem length_lt (h : Refines q f) : f.waiting.length < 2 ^ 32 := by
  rw [← h.contents]
  exact q.length_contents_le.trans_lt (by decide)

/-- The write position counts all packets that have been put, modulo `2^32`. -/
theorem writePos (h : Refines q f) : q.writePos.toNat = f.put % 2 ^ 32 := by
  have hr := q.readPos.toNat_lt
  have hw := q.writePos.toNat_lt
  have hlen := q.length_contents
  have htaken := h.readPos
  rw [h.contents, UInt32.toNat_sub] at hlen
  rw [Ring.Fifo.put]
  omega

/-- A call keeps the queue and the FIFO together. -/
theorem step (h : Refines q f) (c : Call) : Refines (c.step q) (c.fifoStep f) := by
  cases c with
  | read =>
      rw [Call.step, Call.fifoStep, Ring.Fifo.pop]
      cases hread : q.read with
      | none =>
          rw [read_eq_none_iff, h.contents] at hread
          rw [hread]
          exact h
      | some p =>
          obtain ⟨d, q'⟩ := p
          have hcons := contents_of_read hread
          rw [h.contents] at hcons
          rw [hcons]
          refine ⟨rfl, ?_⟩
          rw [readPos_of_read hread, UInt32.toNat_add, UInt32.toNat_one, h.readPos, Nat.mod_add_mod]
  | write d =>
      rw [Call.step, Call.fifoStep, Ring.Fifo.push]
      split
      next hlt =>
        obtain ⟨q', hq', hcontents⟩ := write_of_lt (h.contents ▸ hlt) d
        refine ⟨?_, (congrArg UInt32.toNat (readPos_write q d)).trans h.readPos⟩
        rw [hq', hcontents, h.contents]
      next hnot =>
        have hfull : q.contents.length = qsize :=
          le_antisymm q.length_contents_le (by rw [h.contents]; exact Nat.not_lt.mp hnot)
        obtain ⟨q', hq', hcontents⟩ := write_of_full hfull d
        refine ⟨?_, (congrArg UInt32.toNat (readPos_write q d)).trans h.readPos⟩
        rw [hq', hcontents, h.contents]

/-- They answer the same. -/
theorem answer (h : Refines q f) (c : Call) : c.answer q = c.fifoAnswer f := by
  cases c with
  | read =>
      rw [Call.answer, Call.fifoAnswer, ← h.contents]
      cases hread : q.read with
      | none => rw [(read_eq_none_iff q).mp hread, Option.map_none, List.head?_nil]
      | some p => rw [contents_of_read hread, Option.map_some, List.head?_cons]
  | write d =>
      rw [Call.answer, Call.fifoAnswer, ← h.contents]
      by_cases hlt : q.contents.length < qsize
      · obtain ⟨q', hq', -⟩ := write_of_lt hlt d
        rw [hq', decide_eq_true hlt]
      · obtain ⟨q', hq', -⟩ :=
          write_of_full (le_antisymm q.length_contents_le (Nat.not_lt.mp hlt)) d
        rw [hq', decide_eq_false hlt]

/-- An assertion holds as long as the counters have not wrapped between the
two. -/
theorem asserts_iff (h : Refines q f) (c : Call) :
    c.Asserts q ↔ f.taken / 2 ^ 32 = f.put / 2 ^ 32 := by
  have hle : q.readPos ≤ q.writePos ↔ f.taken / 2 ^ 32 = f.put / 2 ^ 32 := by
    rw [UInt32.le_iff_toNat_le, h.readPos, h.writePos,
      Ring.taken_mod_le_put_mod_iff h.length_lt]
  cases c with
  | read => exact hle
  | write d => exact (and_iff_left (UInt32.le_iff_toNat_le.mpr q.waiting_le)).trans hle

end Refines

/-- In a sequence of calls that starts with unused counters, the two are in the
same round as long as fewer than `2^32` packets have been put. -/
theorem along_put_lt_iff (calls : List Call) :
    Run.Along Call.fifoStep (fun f _ => f.taken / 2 ^ 32 = f.put / 2 ^ 32) calls ⟨0, []⟩ ↔
      Run.Along Call.fifoStep (fun f _ => f.put < 2 ^ 32) calls ⟨0, []⟩ := by
  refine Run.along_congr (P := fun f => f.taken < 2 ^ 32 ∧ f.put ≤ 2 ^ 32)
    (fun f _ hf => Ring.div_eq_div_iff hf.1) (fun f c hf hput => ?_) calls ⟨by decide, by decide⟩
  have hput : f.put < 2 ^ 32 := (Ring.div_eq_div_iff hf.1).mp hput
  cases c with
  | read =>
      have htaken : f.pop.taken ≤ f.put := Ring.put_pop f ▸ Ring.taken_le_put f.pop
      exact ⟨htaken.trans_lt hput, (Ring.put_pop f).trans_le hput.le⟩
  | write d =>
      refine ⟨(Ring.taken_push f d).trans_lt hf.1, (Ring.put_push_le f d).trans ?_⟩
      exact hput

/-- Over every sequence of calls a queue returns what a FIFO of 32 packets
returns.  The assertions of the calls hold exactly as long as no call comes after
`2^32` packets have been put; only a build without them goes on from there. -/
theorem refines_fifo (calls : List Call) :
    Run.trace Call.step Call.answer calls empty =
        Run.trace Call.fifoStep Call.fifoAnswer calls ⟨0, []⟩ ∧
      ((Run.exec Call.step calls empty).aborted = false ↔
        Run.Along Call.fifoStep (fun f _ => f.put < 2 ^ 32) calls ⟨0, []⟩) := by
  have hstart : Refines empty ⟨0, []⟩ := ⟨rfl, rfl⟩
  have hany : Run.Along Call.fifoStep (fun _ _ => True) calls ⟨0, []⟩ :=
    (Run.along_input_iff calls _).mpr fun _ _ => trivial
  have haborted : (Run.exec Call.step calls empty).aborted = false ↔
      Run.Along Call.step Call.Asserts calls empty := by
    have hstep := Run.exec_iff (P := fun _ => True) (Q := fun q : PacketQ => q.aborted = false)
      (fun _ _ _ => trivial) (fun q c _ => Call.aborted_step q c) calls (s := empty) trivial
    exact hstep.trans (and_iff_right rfl)
  rw [haborted, Run.along_related (fun _ _ c h => h.step c) (fun _ _ c h => h.asserts_iff c) calls
    hstart]
  exact ⟨Run.trace_eq (fun _ _ c h _ => h.step c) (fun _ _ c h _ => h.answer c) hany hstart,
    along_put_lt_iff calls⟩

/-! ## queues that last -/

/-- No assertion has failed, and none will before `n` packets have been put. -/
structure Lasts (n : Nat) (q : PacketQ) : Prop where
  aborted : q.aborted = false
  readPos_le : q.readPos ≤ q.writePos
  put_lt : q.writePos.toNat + n < 2 ^ 32

namespace Lasts

variable {q q' : PacketQ} {d : Packet} {n : Nat}

theorem mono {k : Nat} (h : q.Lasts n) (hk : k ≤ n) : q.Lasts k where
  aborted := h.aborted
  readPos_le := h.readPos_le
  put_lt := (Nat.add_le_add_left hk _).trans_lt h.put_lt

theorem empty {n : Nat} (hn : n < 2 ^ 32) : PacketQ.empty.Lasts n where
  aborted := rfl
  readPos_le := by decide
  put_lt := by
    change 0 + n < 2 ^ 32
    omega

/-- A read lasts as long as what was there before. -/
theorem read (h : q.Lasts n) (hread : q.read = some (d, q')) : q'.Lasts n := by
  have hle := h.readPos_le
  by_cases hpos : q.readPos = q.writePos
  · rw [PacketQ.read, dif_pos hpos] at hread
    cases hread
  · rw [PacketQ.read, dif_neg hpos, Option.some_inj, Prod.mk.injEq] at hread
    obtain ⟨-, rfl⟩ := hread
    have hne : q.readPos.toNat ≠ q.writePos.toNat := fun heq => hpos (UInt32.toNat_inj.mp heq)
    have hw := q.writePos.toNat_lt
    refine ⟨?_, ?_, h.put_lt⟩
    · change (q.aborted || !decide (q.readPos ≤ q.writePos)) = false
      rw [h.aborted, decide_eq_true hle]
      rfl
    · change q.readPos + 1 ≤ q.writePos
      rw [UInt32.le_iff_toNat_le] at hle ⊢
      rw [UInt32.toNat_add, UInt32.toNat_one]
      omega

/-- A write takes one of the packets that can still be put. -/
theorem write (h : q.Lasts (n + 1)) (d : Packet) : (q.write d).2.Lasts n := by
  have hle := h.readPos_le
  have hput := h.put_lt
  have hasserts : (q.readPos ≤ q.writePos ∧ q.writePos - q.readPos ≤ 32) :=
    ⟨hle, UInt32.le_iff_toNat_le.mpr q.waiting_le⟩
  have haborted : (q.assert (q.readPos ≤ q.writePos ∧
      q.writePos - q.readPos ≤ 32)).aborted = false := by
    change (q.aborted || !decide _) = false
    rw [h.aborted, decide_eq_true hasserts]
    rfl
  rw [PacketQ.write]
  split
  · exact ⟨haborted, hle, (h.mono (Nat.le_succ n)).put_lt⟩
  · refine ⟨haborted, ?_, ?_⟩
    · change q.readPos ≤ q.writePos + 1
      rw [UInt32.le_iff_toNat_le] at hle ⊢
      rw [UInt32.toNat_add, UInt32.toNat_one]
      omega
    · change (q.writePos + 1).toNat + n < 2 ^ 32
      rw [UInt32.toNat_add, UInt32.toNat_one]
      omega

/-- Writes take one each. -/
theorem foldl_write {ps : List Packet} (h : q.Lasts (ps.length + n)) :
    (ps.foldl (fun q d => (q.write d).2) q).Lasts n := by
  induction ps generalizing q with
  | nil => exact h.mono (Nat.le_add_left n 0)
  | cons d ps ih =>
      refine ih (Lasts.write (h.mono ?_) d)
      rw [List.length_cons]
      omega

end Lasts

end PacketQ
end HidServer
end M5Z80
