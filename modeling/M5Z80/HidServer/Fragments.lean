import M5Z80.HidServer.Changes
import M5Z80.Lib.Interleave

/-!
# M5Z80.HidServer.Fragments

L2CAP packets that arrive in fragments, at one device.  A device that is
between two packets takes the next one as it was sent, however it is cut up.
For a device that has missed a fragment, every packet is shifted.
-/

namespace M5Z80
namespace HidServer

/-! ## fields of packets -/

@[simp] theorem u16At_cons (b : UInt8) (data : List UInt8) (k : Nat) :
    u16At (b :: data) (k + 1) = u16At data k := rfl

/-- A word that was written is read back. -/
theorem u16At_le16 (x : UInt16) (rest : List UInt8) : u16At (le16 x ++ rest) 0 = some x := by
  have hx : x.toUInt8.toUInt16 ||| (x >>> 8).toUInt8.toUInt16 <<< 8 = x := by
    have hlt := x.toNat_lt
    refine UInt16.toNat_inj.mp ?_
    simp only [UInt16.toNat_or, UInt16.toNat_shiftLeft, UInt8.toNat_toUInt16, UInt16.toNat_toUInt8,
      UInt16.toNat_shiftRight, UInt16.reduceToNat, Nat.reduceMod, Nat.shiftRight_eq_div_pow]
    rw [Nat.or_comm, Nat.mod_eq_of_lt (a := (_ <<< 8)) (by rw [Nat.shiftLeft_eq]; omega),
      ← Nat.shiftLeft_add_eq_or_of_lt (by omega), Nat.shiftLeft_eq]
    omega
  exact congrArg some hx

/-- A word in front moves what is behind it by two bytes. -/
theorem u16At_le16_append (x : UInt16) (rest : List UInt8) (k : Nat) :
    u16At (le16 x ++ rest) (k + 2) = u16At rest k := rfl

/-- The handle of a device and the flag of a fragment share a field. -/
theorem handle_flag {h flag : UInt16} {n : Nat} (hh : h < 0x1000) (hn : n < 16)
    (hflag : flag.toNat = n * 4096) :
    (h ||| flag) >>> 12 = UInt16.ofNat n ∧ (h ||| flag) &&& 0x0FFF = h := by
  have hlt : h.toNat < 2 ^ 12 := UInt16.lt_iff_toNat_lt.mp hh
  have hor : (h ||| flag).toNat = n * 4096 + h.toNat := by
    rw [UInt16.toNat_or, hflag, Nat.or_comm, ← Nat.shiftLeft_eq n 12,
      ← Nat.shiftLeft_add_eq_or_of_lt hlt, Nat.shiftLeft_eq]
  constructor
  · refine UInt16.toNat_inj.mp ?_
    rw [UInt16.toNat_shiftRight, hor, UInt16.toNat_ofNat_of_lt' (hn.trans (by decide))]
    change (n * 4096 + h.toNat) >>> 12 = n
    rw [Nat.shiftRight_eq_div_pow]
    omega
  · refine UInt16.toNat_inj.mp ?_
    rw [UInt16.toNat_and, hor]
    change (n * 4096 + h.toNat) &&& (2 ^ 12 - 1) = h.toNat
    rw [Nat.and_two_pow_sub_one_eq_mod]
    omega

/-- The flags of a first fragment, beside its handle. -/
theorem first_flag {h : UInt16} (hh : h < 0x1000) :
    (h ||| 0x2000) >>> 12 = 2 ∧ (h ||| 0x2000) &&& 0x0FFF = h := handle_flag hh (by decide) rfl

/-- The flags of a later fragment. -/
theorem later_flag {h : UInt16} (hh : h < 0x1000) :
    (h ||| 0x1000) >>> 12 = 1 ∧ (h ||| 0x1000) &&& 0x0FFF = h := handle_flag hh (by decide) rfl

/-! ## messages -/

/-- A packet for a channel, cut up: the first piece, and the ones after it. -/
structure Message where
  cid : UInt16
  first : List UInt8
  more : List (List UInt8)

namespace Message

def payload (m : Message) : List UInt8 := m.first ++ m.more.flatten

/-- A packet for a data channel whose lengths fit their fields.  No piece after
the first is empty. -/
structure WellFormed (m : Message) : Prop where
  cid_ne : m.cid ≠ 1
  payload_lt : m.payload.length < 2 ^ 16
  first_lt : m.first.length + 4 < 2 ^ 16
  more_ne : ∀ p ∈ m.more, p ≠ []

/-- The first fragment, on the connection with handle `h`. -/
def firstFragment (h : UInt16) (m : Message) : Packet :=
  0x02 :: (le16 (h ||| 0x2000) ++ (le16 (UInt16.ofNat (m.first.length + 4)) ++
    (le16 (UInt16.ofNat m.payload.length) ++ (le16 m.cid ++ m.first))))

/-- A fragment that continues a packet. -/
def laterFragment (h : UInt16) (p : List UInt8) : Packet :=
  0x02 :: (le16 (h ||| 0x1000) ++ (le16 (UInt16.ofNat p.length) ++ p))

def fragments (h : UInt16) (m : Message) : List Packet :=
  m.firstFragment h :: m.more.map (laterFragment h)

/-- A packet in one piece is what `send` makes of it. -/
theorem fragments_eq_l2capData (h cid : UInt16) (data : List UInt8) :
    fragments h ⟨cid, data, []⟩ = [l2capData (h ||| 0x2000) cid data] := by
  simp [fragments, firstFragment, payload, l2capData]

/-- The length field of a later fragment holds its length. -/
theorem WellFormed.piece_lt {m : Message} (h : m.WellFormed) {p : List UInt8} (hp : p ∈ m.more) :
    p.length < 2 ^ 16 := by
  have hle : p.length ≤ m.more.flatten.length := (List.sublist_flatten_of_mem hp).length_le
  have hlt := h.payload_lt
  rw [payload, List.length_append] at hlt
  omega

end Message

/-! ## fragments -/

namespace BTDevice

/-- A first fragment sizes the packet and names the channel. -/
theorem assemble_firstFragment {h : UInt16} (hh : h < 0x1000) {m : Message} (hm : m.WellFormed)
    (d : BTDevice) :
    assemble (m.firstFragment h) d =
      copyIn m.first m.first.length
        { d with packet := resize m.payload.length d.packet, packetCid := m.cid } := by
  have hlen : (UInt16.ofNat (m.first.length + 4)).toNat = m.first.length + 4 :=
    UInt16.toNat_ofNat_of_lt' hm.first_lt
  have hpayload : (UInt16.ofNat m.payload.length).toNat = m.payload.length :=
    UInt16.toNat_ofNat_of_lt' hm.payload_lt
  have hge : ¬ UInt16.ofNat (m.first.length + 4) < 4 := by
    rw [UInt16.lt_iff_toNat_lt, hlen]
    change ¬ _ < 4
    omega
  have hdrop : (m.firstFragment h).drop 9 = m.first := rfl
  rw [assemble, hdrop]
  simp only [Message.firstFragment, u16At_cons, u16At_le16, u16At_le16_append,
    Option.bind_eq_bind, Option.bind_some, (first_flag hh).1, if_true, if_neg hge, hlen, hpayload,
    Nat.add_sub_cancel]

/-- A later fragment goes on where the one before it ended. -/
theorem assemble_laterFragment {h : UInt16} (hh : h < 0x1000) {p : List UInt8}
    (hp : p.length < 2 ^ 16) (d : BTDevice) :
    assemble (Message.laterFragment h p) d = copyIn p p.length d := by
  have hlen : (UInt16.ofNat p.length).toNat = p.length := UInt16.toNat_ofNat_of_lt' hp
  have hdrop : (Message.laterFragment h p).drop 5 = p := rfl
  rw [assemble, hdrop]
  simp only [Message.laterFragment, u16At_cons, u16At_le16, u16At_le16_append,
    Option.bind_eq_bind, Option.bind_some, (later_flag hh).1, hlen]
  exact if_neg (by decide)

/-- A packet that is put on the queue of its socket. -/
def deliver (sockets : List (Int × L2CAPSocket)) (p : UInt16 × Packet) :
    List (Int × L2CAPSocket) :=
  sockets.map fun entry => (entry.1,
    if entry.1 = (p.1.toNat : Int) then { entry.2 with q := (entry.2.q.write p.2).2 }
    else entry.2)

/-- Hands an assembled packet to its socket. -/
def enqueue (d : BTDevice) : BTDevice :=
  { d with sockets := deliver d.sockets (d.packetCid, d.packet) }

/-- What `data` makes of a device, for a packet that is not signalling. -/
def receive (p : Packet) (d : BTDevice) : Option BTDevice :=
  (assemble p d).bind fun d =>
    if d.packetCid = 1 then none
    else if d.packetPos = d.packet.length then some { d.enqueue with packetPos := 0 }
    else some d

/-! ## pieces -/

/-- Bytes written into a packet. -/
def put (packet : Packet) (pos : Nat) (data : List UInt8) : Packet :=
  packet.take pos ++ data ++ packet.drop (pos + data.length)

/-- Bytes that fit do not grow the packet. -/
theorem length_put {packet : Packet} {pos : Nat} {data : List UInt8}
    (h : pos + data.length ≤ packet.length) : (put packet pos data).length = packet.length := by
  rw [put, List.length_append, List.length_append, List.length_take, List.length_drop]
  omega

/-- Two pieces put one behind the other are one piece. -/
theorem put_put {packet : Packet} {pos : Nat} {data more : List UInt8}
    (h : pos + data.length + more.length ≤ packet.length) :
    put (put packet pos data) (pos + data.length) more = put packet pos (data ++ more) := by
  have hpos : (packet.take pos).length = pos := List.length_take_of_le (by omega)
  have hfront : (packet.take pos ++ data).length = pos + data.length := by
    rw [List.length_append, hpos]
  have htake : (put packet pos data).take (pos + data.length) = packet.take pos ++ data := by
    rw [put, List.take_left' hfront]
  have hdrop : (put packet pos data).drop (pos + data.length + more.length) =
      packet.drop (pos + (data ++ more).length) := by
    rw [put, ← List.drop_drop, List.drop_left' hfront, List.drop_drop, List.length_append,
      Nat.add_assoc]
  rw [put, htake, hdrop, put, List.append_assoc (packet.take pos)]

theorem put_nil {packet : Packet} {pos : Nat} : put packet pos [] = packet := by
  rw [put, List.append_nil, List.length_nil, Nat.add_zero, List.take_append_drop]

/-- A piece that is copied in, and what follows. -/
def feedStep (p : List UInt8) (d : BTDevice) : Option BTDevice :=
  (copyIn p p.length d).bind fun d =>
    if d.packetCid = 1 then none
    else if d.packetPos = d.packet.length then some { d.enqueue with packetPos := 0 }
    else some d

/-- Pieces that are copied in one after another. -/
def feed : List (List UInt8) → BTDevice → Option BTDevice := Interleave.run feedStep

/-- A fragment is the piece it carries; the first one also sets the packet up. -/
theorem run_fragments {h : UInt16} (hh : h < 0x1000) {m : Message} (hm : m.WellFormed)
    (d : BTDevice) :
    Interleave.run receive (m.fragments h) d =
      feed (m.first :: m.more)
        { d with packet := resize m.payload.length d.packet, packetCid := m.cid } := by
  have hmore : ∀ (pieces : List (List UInt8)) (d : BTDevice),
      (∀ p ∈ pieces, p.length < 2 ^ 16) →
        Interleave.run receive (pieces.map (Message.laterFragment h)) d = feed pieces d := by
    intro pieces
    induction pieces with
    | nil => exact fun _ _ => rfl
    | cons p pieces ih =>
        intro d hlt
        obtain ⟨hp, hlt⟩ := List.forall_mem_cons.mp hlt
        rw [List.map_cons, Interleave.run, feed, Interleave.run, receive,
          assemble_laterFragment hh hp, feedStep]
        exact congrArg _ (funext fun d => ih d hlt)
  rw [Message.fragments, Interleave.run, feed, Interleave.run, receive,
    assemble_firstFragment hh hm, feedStep]
  exact congrArg _ (funext fun d => hmore m.more d fun p hp => hm.piece_lt hp)

/-- A fragment that fits is put in place, and the last one hands the packet over. -/
theorem feedStep_of_fits {p : List UInt8} {d : BTDevice} (hcid : d.packetCid ≠ 1)
    (h : d.packetPos + p.length ≤ d.packet.length) :
    feedStep p d =
      if d.packetPos + p.length = d.packet.length then
        some { enqueue { d with packet := put d.packet d.packetPos p } with packetPos := 0 }
      else
        some { d with
          packet := put d.packet d.packetPos p, packetPos := d.packetPos + p.length } := by
  rw [feedStep, copyIn, if_pos ⟨le_rfl, h⟩, List.take_length, Option.bind_some]
  dsimp only
  rw [if_neg hcid]
  change (if d.packetPos + p.length = (put d.packet d.packetPos p).length then _ else _) = _
  rw [length_put h]
  rfl

/-- A fragment that does not fit is written beyond the packet. -/
theorem feedStep_of_not_fits {p : List UInt8} {d : BTDevice}
    (h : ¬ d.packetPos + p.length ≤ d.packet.length) : feedStep p d = none := by
  rw [feedStep, copyIn, if_neg fun hle => h hle.2]
  rfl

/-- Pieces that do not fill the packet up. -/
theorem feed_of_lt {pieces : List (List UInt8)} {d : BTDevice} (hcid : d.packetCid ≠ 1)
    (h : d.packetPos + pieces.flatten.length < d.packet.length) :
    feed pieces d = some { d with
      packet := put d.packet d.packetPos pieces.flatten
      packetPos := d.packetPos + pieces.flatten.length } := by
  induction pieces generalizing d with
  | nil =>
      rw [List.flatten_nil, put_nil]
      rfl
  | cons p pieces ih =>
      rw [List.flatten_cons, List.length_append] at h
      have hp : d.packetPos + p.length < d.packet.length := by omega
      rw [feed, Interleave.run, feedStep_of_fits hcid hp.le, if_neg hp.ne, Option.bind_some, ← feed]
      refine (ih (d := { d with
        packet := put d.packet d.packetPos p
        packetPos := d.packetPos + p.length }) hcid ?_).trans ?_
      · change d.packetPos + p.length + pieces.flatten.length < (put d.packet d.packetPos p).length
        rw [length_put hp.le]
        omega
      · dsimp only
        rw [put_put (by omega), List.flatten_cons, List.length_append, Nat.add_assoc]

/-- Fragments are fed one after the other. -/
theorem feed_append (l l' : List (List UInt8)) (d : BTDevice) :
    feed (l ++ l') d = (feed l d).bind (feed l') := Interleave.run_append feedStep l l' d

/-- Pieces that fill it up with the last one. -/
theorem feed_of_eq {front : List (List UInt8)} {last : List UInt8} {d : BTDevice}
    (hcid : d.packetCid ≠ 1) (hlast : front = [] ∨ last ≠ [])
    (h : d.packetPos + (front ++ [last]).flatten.length = d.packet.length) :
    feed (front ++ [last]) d = some { enqueue
      { d with packet := put d.packet d.packetPos (front ++ [last]).flatten } with
        packetPos := 0 } := by
  have hone : ∀ {d : BTDevice}, d.packetCid ≠ 1 →
      d.packetPos + last.length = d.packet.length → feed [last] d = some
        { enqueue { d with packet := put d.packet d.packetPos last } with packetPos := 0 } := by
    intro d hcid h
    rw [feed, Interleave.run, feedStep_of_fits hcid h.le, if_pos h]
    rfl
  rcases hlast with rfl | hlast
  · rw [List.nil_append, List.flatten_singleton] at h ⊢
    exact hone hcid h
  · have hpos : 0 < last.length := List.length_pos_of_ne_nil hlast
    rw [List.flatten_append, List.flatten_singleton, List.length_append] at h
    rw [feed_append, feed_of_lt hcid (by omega), Option.bind_some]
    refine (hone (d := { d with
      packet := put d.packet d.packetPos front.flatten
      packetPos := d.packetPos + front.flatten.length }) hcid ?_).trans ?_
    · change d.packetPos + front.flatten.length + last.length =
        (put d.packet d.packetPos front.flatten).length
      rw [length_put (by omega)]
      omega
    · dsimp only
      rw [put_put (by omega), List.flatten_append, List.flatten_singleton]
      rfl

/-- Pieces that reach the end of the packet, from a position inside it, do so
at the end of one of them. -/
theorem exists_cut_of_feed {pieces : List (List UInt8)} {d d' : BTDevice} (hcid : d.packetCid ≠ 1)
    (hlt : d.packetPos < d.packet.length)
    (h : d.packet.length ≤ d.packetPos + pieces.flatten.length) (hfeed : feed pieces d = some d') :
    ∃ front back, pieces = front ++ back ∧
      d.packetPos + front.flatten.length = d.packet.length := by
  induction pieces generalizing d with
  | nil =>
      rw [List.flatten_nil, List.length_nil] at h
      omega
  | cons p pieces ih =>
      rw [feed, Interleave.run] at hfeed
      by_cases hfits : d.packetPos + p.length ≤ d.packet.length
      · rw [feedStep_of_fits hcid hfits] at hfeed
        by_cases heq : d.packetPos + p.length = d.packet.length
        · exact ⟨[p], pieces, rfl, by rwa [List.flatten_singleton]⟩
        · rw [if_neg heq, Option.bind_some] at hfeed
          rw [List.flatten_cons, List.length_append] at h
          have hlen := length_put hfits
          obtain ⟨front, back, rfl, hcut⟩ := ih (d := { d with
            packet := put d.packet d.packetPos p, packetPos := d.packetPos + p.length }) hcid
            (by dsimp only; omega) (by dsimp only; omega) hfeed
          refine ⟨p :: front, back, rfl, ?_⟩
          rw [List.flatten_cons, List.length_append, ← Nat.add_assoc]
          exact hcut.trans hlen
      · rw [feedStep_of_not_fits hfits] at hfeed
        cases hfeed

/-! ## a message that arrives in step -/

theorem length_resize (n : Nat) (packet : Packet) : (resize n packet).length = n := by
  rw [resize, List.length_append, List.length_take, List.length_replicate]
  omega

/-- A piece as long as the packet is all of it. -/
theorem put_zero {packet data : List UInt8} (h : data.length = packet.length) :
    put packet 0 data = data := by
  rw [put, List.take_zero, List.nil_append, List.drop_eq_nil_of_le (by omega), List.append_nil]

/-- A device after it has received a message. -/
def accept (d : BTDevice) (m : Message) : BTDevice :=
  { d with
    packet := m.payload
    packetPos := 0
    packetCid := m.cid
    sockets := deliver d.sockets (m.cid, m.payload) }

/-- In step, the fragments of a message are the message. -/
theorem receive_fragments {h : UInt16} (hh : h < 0x1000) {m : Message} (hm : m.WellFormed)
    {d : BTDevice} (hidle : d.packetPos = 0) :
    Interleave.run receive (m.fragments h) d = some (d.accept m) := by
  have hsplit : ∃ front last, m.first :: m.more = front ++ [last] ∧ (front = [] ∨ last ≠ []) := by
    rcases List.eq_nil_or_concat m.more with hnil | ⟨front, last, hconcat⟩
    · exact ⟨[], m.first, by rw [hnil]; rfl, .inl rfl⟩
    · rw [List.concat_eq_append] at hconcat
      refine ⟨m.first :: front, last, by rw [hconcat]; rfl, .inr (hm.more_ne last ?_)⟩
      rw [hconcat]
      exact List.mem_append_right _ (List.mem_singleton_self last)
  obtain ⟨front, last, heq, hlast⟩ := hsplit
  have hflatten : (front ++ [last]).flatten = m.payload := by
    rw [← heq]
    rfl
  rw [run_fragments hh hm, heq, feed_of_eq hm.cid_ne hlast]
  · dsimp only
    rw [hflatten, hidle, put_zero (length_resize _ _).symm]
    rfl
  · dsimp only
    rw [hflatten, length_resize, hidle, Nat.zero_add]

/-! ## a message that arrives out of step -/

end BTDevice

/-- Fragments of which one ends `k` bytes before the end of the message, `k`
less than its length. -/
def Message.CutAt (m : Message) (k : Nat) : Prop :=
  k < m.payload.length ∧ ∃ front back, m.first :: m.more = front ++ back ∧
    front.flatten.length + k = m.payload.length

namespace BTDevice

/-- A device with a position of `k` after it has received a message: the packet
that was on its queue at the cut begins with `k` bytes of the packet before. -/
def shift (d : BTDevice) (m : Message) : BTDevice :=
  { d with
    packet := m.payload.drop (m.payload.length - d.packetPos) ++
      m.payload.take (m.payload.length - d.packetPos)
    packetCid := m.cid
    sockets := deliver d.sockets (m.cid,
      d.packet.take d.packetPos ++ m.payload.take (m.payload.length - d.packetPos)) }

/-- Out of step, the position stays inside the packet. -/
theorem le_length_shift {d : BTDevice} {m : Message} (hcut : m.CutAt d.packetPos) :
    (d.shift m).packetPos ≤ (d.shift m).packet.length := by
  have hlt := hcut.1
  change d.packetPos ≤ (_ ++ _ : Packet).length
  rw [List.length_append, List.length_drop, List.length_take]
  omega

/-- What is in front of the position survives the resize. -/
theorem take_resize {n k : Nat} {packet : Packet} (hk : k ≤ n) (hle : k ≤ packet.length) :
    (resize n packet).take k = packet.take k := by
  rw [resize, List.take_append_of_le_length (by rw [List.length_take]; omega), List.take_take,
    Nat.min_eq_left hk]

/-- The first part of a message fills the packet up, and the rest begins it. -/
theorem feed_shifted {m : Message} (hm : m.WellFormed) {d : BTDevice}
    (hle : d.packetPos ≤ d.packet.length) (hcut : m.CutAt d.packetPos) :
    feed (m.first :: m.more)
        { d with packet := resize m.payload.length d.packet, packetCid := m.cid } =
      some (d.shift m) := by
  obtain ⟨hlt, front, back, heq, hlen⟩ := hcut
  have hflatten : front.flatten ++ back.flatten = m.payload := by
    rw [← List.flatten_append, ← heq]
    rfl
  have hback : back.flatten.length = d.packetPos := by
    have hsum := congrArg List.length hflatten
    rw [List.length_append] at hsum
    omega
  have htake : m.payload.take (m.payload.length - d.packetPos) = front.flatten := by
    rw [← hlen, Nat.add_sub_cancel, ← hflatten, List.take_left]
  have hdrop : m.payload.drop (m.payload.length - d.packetPos) = back.flatten := by
    rw [← hlen, Nat.add_sub_cancel, ← hflatten, List.drop_left]
  have hlast : ∃ init last, front = init ++ [last] ∧ (init = [] ∨ last ≠ []) := by
    have hfront : front ≠ [] := by
      rintro rfl
      rw [List.flatten_nil, List.length_nil] at hlen
      omega
    obtain ⟨init, last, rfl⟩ := (List.eq_nil_or_concat' front).resolve_left hfront
    refine ⟨init, last, rfl, ?_⟩
    cases init with
    | nil => exact .inl rfl
    | cons p init =>
        rw [List.cons_append, List.cons_append, List.cons.injEq] at heq
        refine .inr (hm.more_ne last ?_)
        rw [heq.2]
        exact List.mem_append_left _ (List.mem_append_right _ (List.mem_singleton_self last))
  obtain ⟨init, last, hfronteq, hlast⟩ := hlast
  -- the packet that is delivered at the cut
  have hput : put (resize m.payload.length d.packet) d.packetPos front.flatten =
      d.packet.take d.packetPos ++ front.flatten := by
    rw [put, take_resize (by omega) hle, List.drop_eq_nil_of_le (by rw [length_resize]; omega),
      List.append_nil]
  have hfull : feed front
      { d with packet := resize m.payload.length d.packet, packetCid := m.cid } =
        some { d with
          packet := d.packet.take d.packetPos ++ front.flatten
          packetPos := 0
          packetCid := m.cid
          sockets := deliver d.sockets (m.cid, d.packet.take d.packetPos ++ front.flatten) } := by
    rw [hfronteq, feed_of_eq hm.cid_ne hlast]
    · dsimp only
      rw [← hfronteq, hput]
      rfl
    · dsimp only
      rw [← hfronteq, length_resize]
      omega
  have hlen' : (d.packet.take d.packetPos ++ front.flatten).length = m.payload.length := by
    rw [List.length_append, List.length_take_of_le hle]
    omega
  rw [heq, feed_append, hfull, Option.bind_some, feed_of_lt hm.cid_ne]
  · dsimp only
    rw [Nat.zero_add, put, List.take_zero, List.nil_append, Nat.zero_add, hback,
      List.drop_left' (List.length_take_of_le hle), shift, htake, hdrop]
  · dsimp only
    rw [hlen']
    omega

/-- Out of step by `packetPos`, a message goes through exactly if it is cut at this distance
from its end. -/
theorem receive_shifted {h : UInt16} (hh : h < 0x1000) {m : Message} (hm : m.WellFormed)
    (hfirst : m.first ≠ []) {d d' : BTDevice} (hle : d.packetPos ≤ d.packet.length) :
    Interleave.run receive (m.fragments h) d = some d' ↔
      m.CutAt d.packetPos ∧ d' = d.shift m := by
  rw [run_fragments hh hm]
  constructor
  · intro hfeed
    have hlt : d.packetPos < m.payload.length := by
      by_contra hge
      have hfirstpos : 0 < m.first.length := List.length_pos_of_ne_nil hfirst
      rw [feed, Interleave.run, feedStep_of_not_fits] at hfeed
      · cases hfeed
      · dsimp only
        rw [length_resize]
        omega
    have hcut : m.CutAt d.packetPos := by
      obtain ⟨front, back, heq, hcut⟩ := exists_cut_of_feed hm.cid_ne
        (by dsimp only; rwa [length_resize])
        (by dsimp only; rw [length_resize, List.flatten_cons]; exact Nat.le_add_left _ _) hfeed
      dsimp only at hcut
      rw [length_resize, Nat.add_comm] at hcut
      exact ⟨hlt, front, back, heq, hcut⟩
    refine ⟨hcut, ?_⟩
    rw [feed_shifted hm hle hcut] at hfeed
    exact (Option.some.inj hfeed).symm
  · rintro ⟨hcut, rfl⟩
    exact feed_shifted hm hle hcut

/-- What a device `k` bytes out of step delivers: `carry` is the end of the
message before. -/
def shifted (k : Nat) : List UInt8 → List Message → List (UInt16 × Packet)
  | _, [] => []
  | carry, m :: ms =>
      (m.cid, carry ++ m.payload.take (m.payload.length - k)) ::
        shifted k (m.payload.drop (m.payload.length - k)) ms

/-- It stays out of step. -/
theorem receive_shifted_all {h : UInt16} (hh : h < 0x1000) {ms : List Message}
    (hms : ∀ m ∈ ms, m.WellFormed ∧ m.first ≠ []) {d d' : BTDevice}
    (hle : d.packetPos ≤ d.packet.length) :
    Interleave.run receive (ms.flatMap (Message.fragments h)) d = some d' ↔
      (∀ m ∈ ms, m.CutAt d.packetPos) ∧ d' = ms.foldl shift d := by
  induction ms generalizing d with
  | nil => simp [Interleave.run, eq_comm]
  | cons m ms ih =>
      obtain ⟨⟨hm, hfirst⟩, hms⟩ := List.forall_mem_cons.mp hms
      rw [List.flatMap_cons, Interleave.run_append, Option.bind_eq_some_iff, List.forall_mem_cons,
        List.foldl_cons, and_assoc]
      constructor
      · rintro ⟨d₁, hd₁, hrun⟩
        obtain ⟨hcut, rfl⟩ := (receive_shifted hh hm hfirst hle).mp hd₁
        exact ⟨hcut, (ih hms (le_length_shift hcut)).mp hrun⟩
      · rintro ⟨hcut, hrest⟩
        exact ⟨d.shift m, (receive_shifted hh hm hfirst hle).mpr ⟨hcut, rfl⟩,
          (ih hms (le_length_shift hcut)).mpr hrest⟩

end BTDevice

end HidServer
end M5Z80
