import M5Z80.HidServer.Reassembly

/-!
# M5Z80.HidServer.Arrivals

A stream of messages that may be interrupted anywhere, also within a message.
Each fragment carries a mark that says which message it completes, and a device
that is in step with what is still to come hands over exactly the messages that
are marked.
-/

namespace M5Z80
namespace HidServer

/-! ## marked fragments -/

/-- A fragment, and the message that it completes. -/
abbrev Arrival := Packet × Option Message

namespace Message

/-- The fragments of a message after the first, with marks. -/
def laterArrivals (h : UInt16) (m : Message) : List (List UInt8) → List Arrival
  | [] => []
  | p :: pieces =>
      (laterFragment h p, if pieces = [] then some m else none) :: laterArrivals h m pieces

/-- The fragments of a message, with marks. -/
def arrivals (h : UInt16) (m : Message) : List Arrival :=
  (m.firstFragment h, if m.more = [] then some m else none) :: m.laterArrivals h m.more

/-- The arrivals of a message are its fragments. -/
theorem map_fst_arrivals (h : UInt16) (m : Message) :
    (m.arrivals h).map Prod.fst = m.fragments h := by
  have hlater : ∀ pieces, (m.laterArrivals h pieces).map Prod.fst =
      pieces.map (laterFragment h) := by
    intro pieces
    induction pieces with
    | nil => rfl
    | cons p pieces ih => exact congrArg _ ih
  exact congrArg _ (hlater m.more)

/-- One fragment of a message completes it. -/
theorem filterMap_snd_arrivals (h : UInt16) (m : Message) :
    (m.arrivals h).filterMap Prod.snd = [m] := by
  have hlater : ∀ p pieces, (m.laterArrivals h (p :: pieces)).filterMap Prod.snd = [m] := by
    intro p pieces
    induction pieces generalizing p with
    | nil => rfl
    | cons p' pieces ih => exact ih p'
  rw [arrivals]
  cases m.more with
  | nil => rfl
  | cons p pieces => exact hlater p pieces

end Message

/-! ## in step -/

/-- The device is where the stream is: between two messages, or behind some
pieces of one. -/
inductive Follows (h : UInt16) : BTDevice → List Arrival → Prop
  | idle {d : BTDevice} {ms : List Message} (hpos : d.packetPos = 0)
      (hms : ∀ m ∈ ms, m.WellFormed) : Follows h d (ms.flatMap (Message.arrivals h))
  | within {d : BTDevice} {m : Message} {front back : List (List UInt8)} {ms : List Message}
      (hm : m.WellFormed) (hsplit : m.payload = (front ++ back).flatten)
      (hback : ∀ p ∈ back, p ∈ m.more) (hne : back ≠ []) (hcid : d.packetCid = m.cid)
      (hlen : d.packet.length = m.payload.length) (hpos : d.packetPos = front.flatten.length)
      (htake : d.packet.take d.packetPos = front.flatten)
      (hms : ∀ m ∈ ms, m.WellFormed) :
      Follows h d (m.laterArrivals h back ++ ms.flatMap (Message.arrivals h))

namespace Follows

variable {h : UInt16} {d : BTDevice} {rest : List Arrival}

/-- The sockets do not count. -/
theorem withSockets (hstep : Follows h d rest) (sockets : List (Int × L2CAPSocket)) :
    Follows h { d with sockets := sockets } rest := by
  cases hstep with
  | idle hpos hms => exact .idle hpos hms
  | within hm hsplit hback hne hcid hlen hpos htake hms =>
      exact .within hm hsplit hback hne hcid hlen hpos htake hms

end Follows

namespace BTDevice

/-- The sockets after an arrival. -/
def handOver (o : Option Message) (sockets : List (Int × L2CAPSocket)) :
    List (Int × L2CAPSocket) :=
  o.elim sockets fun m => deliver sockets (m.cid, m.payload)

/-- A piece of a message. -/
theorem feedStep_piece {h : UInt16} {d : BTDevice} {m : Message} {front back : List (List UInt8)}
    {p : List UInt8} {ms : List Message} (hm : m.WellFormed)
    (hsplit : m.payload = (front ++ p :: back).flatten) (hback : ∀ p ∈ back, p ∈ m.more)
    (hcid : d.packetCid = m.cid) (hlen : d.packet.length = m.payload.length)
    (hpos : d.packetPos = front.flatten.length) (htake : d.packet.take d.packetPos = front.flatten)
    (hms : ∀ m ∈ ms, m.WellFormed) :
    ∃ d', feedStep p d = some d' ∧
      Follows h d' (m.laterArrivals h back ++ ms.flatMap (Message.arrivals h)) ∧
      d'.sockets = handOver (if back = [] then some m else none) d.sockets := by
  have hcid' : d.packetCid ≠ 1 := hcid ▸ hm.cid_ne
  have hfits : d.packetPos + p.length + back.flatten.length = d.packet.length := by
    rw [hlen, hsplit, hpos, List.flatten_append, List.flatten_cons, List.length_append,
      List.length_append, Nat.add_assoc]
  have hput : (put d.packet d.packetPos p).take (d.packetPos + p.length) =
      (front ++ [p]).flatten := by
    rw [put, List.take_left', htake, List.flatten_append, List.flatten_singleton]
    rw [List.length_append, List.length_take]
    omega
  rw [feedStep_of_fits hcid' (by omega)]
  by_cases hdone : back = []
  · subst hdone
    rw [List.flatten_nil, List.length_nil, Nat.add_zero] at hfits
    refine ⟨_, if_pos hfits, .idle rfl hms, ?_⟩
    have hpayload : put d.packet d.packetPos p = m.payload := by
      rw [List.take_of_length_le (by rw [length_put (by omega)]; omega)] at hput
      rw [hput, hsplit]
    rw [if_pos rfl]
    exact congrArg₂ (fun cid packet => deliver d.sockets (cid, packet)) hcid hpayload
  · have hpiece : 0 < back.flatten.length := by
      obtain ⟨q, back, rfl⟩ := List.exists_cons_of_ne_nil hdone
      have hq := List.length_pos_of_ne_nil (hm.more_ne q (hback q List.mem_cons_self))
      rw [List.flatten_cons, List.length_append]
      omega
    refine ⟨_, if_neg (by omega), ?_, by rw [if_neg hdone]; rfl⟩
    have hfront : m.payload = (front ++ [p] ++ back).flatten := by
      rw [hsplit, List.append_assoc]
      rfl
    refine .within hm hfront hback hdone hcid ?_ ?_ hput hms
    · exact (length_put (by omega)).trans hlen
    · rw [List.flatten_append, List.flatten_singleton, List.length_append, ← hpos]

end BTDevice

/-- The next fragment of the stream. -/
theorem Follows.receive {h : UInt16} (hh : h < 0x1000) {d : BTDevice} {a : Arrival}
    {rest : List Arrival} (hstep : Follows h d (a :: rest)) :
    ∃ d', BTDevice.receive a.1 d = some d' ∧ Follows h d' rest ∧
      d'.sockets = BTDevice.handOver a.2 d.sockets := by
  generalize hl : a :: rest = l at hstep
  cases hstep with
  | @idle ms hpos hms =>
      cases ms with
      | nil => cases hl
      | cons m ms =>
          obtain ⟨hm, hms⟩ := List.forall_mem_cons.mp hms
          rw [List.flatMap_cons, Message.arrivals, List.cons_append] at hl
          obtain ⟨rfl, rfl⟩ := List.cons.inj hl
          have hreceive : BTDevice.receive (m.firstFragment h) d = BTDevice.feedStep m.first
              { d with
                packet := BTDevice.resize m.payload.length d.packet
                packetCid := m.cid } := by
            rw [BTDevice.receive, BTDevice.assemble_firstFragment hh hm, BTDevice.feedStep]
          have hsplit : m.payload = ([] ++ m.first :: m.more).flatten := rfl
          rw [hreceive]
          refine BTDevice.feedStep_piece hm hsplit (fun _ hp => hp) rfl
            (BTDevice.length_resize _ _) hpos ?_ hms
          rw [hpos]
          rfl
  | @within m front back ms hm hsplit hback hne hcid hlen hpos htake hms =>
      obtain ⟨p, back, rfl⟩ := List.exists_cons_of_ne_nil hne
      obtain ⟨hp, hback⟩ := List.forall_mem_cons.mp hback
      rw [Message.laterArrivals, List.cons_append] at hl
      obtain ⟨rfl, rfl⟩ := List.cons.inj hl
      have hreceive : BTDevice.receive (Message.laterFragment h p) d = BTDevice.feedStep p d := by
        rw [BTDevice.receive, BTDevice.assemble_laterFragment hh (hm.piece_lt hp),
          BTDevice.feedStep]
      rw [hreceive]
      exact BTDevice.feedStep_piece hm hsplit hback hcid hlen hpos htake hms

end HidServer
end M5Z80
