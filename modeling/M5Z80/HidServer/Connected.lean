import M5Z80.HidServer.Arrivals
import M5Z80.HidServer.Events

/-!
# M5Z80.HidServer.Connected

A device whose interrupt channel is open: `hid_update` takes in what has arrived
of its stream, and `hid_get` hands over what has waited longest.
-/

namespace M5Z80
namespace HidServer

/-- The device at `i`, with the connection `h`, has the socket `scid`. -/
structure Link (s : Stack) (i : Nat) (h : UInt16) (scid : Int) (d : BTDevice) : Prop where
  device : s.devices[i]? = some d
  handle : s.getDeviceByHandle h.toNat = some i
  socket : s.getDeviceBySocket scid = some i

/-- A change of one socket. -/
theorem BTDevice.lookup_modifySocket (scid : Int) (f : L2CAPSocket → L2CAPSocket) (d : BTDevice) :
    (d.modifySocket scid f).sockets.lookup scid = (d.sockets.lookup scid).map f := by
  have hmap : (d.modifySocket scid f).sockets =
      d.sockets.map fun p => (p.1, if p.1 = scid then f p.2 else p.2) :=
    List.map_congr_left fun p _ => by split <;> rfl
  rw [hmap, Modify.lookup_map fun key (sock : L2CAPSocket) => if key = scid then f sock else sock]
  exact congrArg (Option.map · _) (funext fun sock => if_pos rfl)

namespace Link

variable {s s' : Stack} {i : Nat} {h : UInt16} {scid : Int} {d d' : BTDevice}

/-- Only the devices count for a link. -/
theorem congr (hlink : Link s i h scid d) (hdevices : s'.devices = s.devices) :
    Link s' i h scid d := by
  refine ⟨hdevices ▸ hlink.device, ?_, ?_⟩
  · rw [Stack.getDeviceByHandle, hdevices]
    exact hlink.handle
  · rw [Stack.getDeviceBySocket, hdevices]
    exact hlink.socket

/-- The device keeps its connection and its channels. -/
theorem modifyDevice (hlink : Link s i h scid d) (hhandle : d'.handle = d.handle)
    (hsocket : (d'.getSocket scid).isSome = (d.getSocket scid).isSome) :
    Link (s.modifyDevice i fun _ => d') i h scid d' := by
  refine ⟨Stack.getElem?_modifyDevice hlink.device _,
    (Stack.getDeviceByHandle_modifyDevice hlink.device hhandle _).trans hlink.handle, ?_⟩
  have hmap : ∀ s : Stack, s.getDeviceBySocket scid =
      (s.devices.map fun d => (d.getSocket scid).isSome).findIdx? id := by
    intro s
    rw [List.findIdx?_map]
    rfl
  have hsame := hlink.socket
  rw [hmap] at hsame ⊢
  rw [Stack.modifyDevice, Modify.map_modify]
  · exact hsame
  · intro a ha
    rw [hlink.device] at ha
    rw [← Option.some.inj ha, hsocket]

end Link

/-! ## `hid_update` -/

/-- The messages that some arrivals complete. -/
def marks (l : List Arrival) : List (UInt16 × Packet) :=
  (l.filterMap Prod.snd).map fun m => (m.cid, m.payload)

/-- Handing packets over keeps the channels. -/
theorem isSome_lookup_deliver (ps : List (UInt16 × Packet)) (sockets : List (Int × L2CAPSocket))
    (scid : Int) :
    ((ps.foldl BTDevice.deliver sockets).lookup scid).isSome = (sockets.lookup scid).isSome := by
  induction ps generalizing sockets with
  | nil => rfl
  | cons p ps ih => rw [List.foldl_cons, ih, BTDevice.lookup_deliver, Option.isSome_map]

/-- What an arrival hands over is delivered. -/
theorem handOver_eq (a : Arrival) (sockets : List (Int × L2CAPSocket)) :
    BTDevice.handOver a.2 sockets = (marks [a]).foldl BTDevice.deliver sockets := by
  obtain ⟨p, o⟩ := a
  cases o <;> rfl

/-- The first arrival completes a message or none. -/
theorem marks_cons (a : Arrival) (l : List Arrival) : marks (a :: l) = marks [a] ++ marks l := by
  obtain ⟨p, o⟩ := a
  cases o <;> rfl

/-- Every arrival is an ACL packet of the connection. -/
theorem Follows.packet {h : UInt16} (hh : h < 0x1000) {d : BTDevice} {a : Arrival}
    {rest : List Arrival} (hstep : Follows h d (a :: rest)) :
    a.1[0]? = some 0x02 ∧ ∃ x, u16At a.1 1 = some x ∧ x &&& 0x0FFF = h := by
  have hfirst (m : Message) : (m.firstFragment h)[0]? = some 0x02 := rfl
  generalize hl : a :: rest = l at hstep
  cases hstep with
  | @idle ms hpos hms =>
      cases ms with
      | nil => cases hl
      | cons m ms =>
          rw [List.flatMap_cons, Message.arrivals, List.cons_append] at hl
          obtain ⟨rfl, rfl⟩ := List.cons.inj hl
          exact ⟨rfl, Message.handle_of_mem_fragments hh List.mem_cons_self⟩
  | @within m front back ms hm hsplit hback hne hcid hlen hpos htake hms =>
      obtain ⟨p, back, rfl⟩ := List.exists_cons_of_ne_nil hne
      obtain ⟨hp, hback⟩ := List.forall_mem_cons.mp hback
      rw [Message.laterArrivals, List.cons_append] at hl
      obtain ⟨rfl, rfl⟩ := List.cons.inj hl
      refine ⟨rfl, Message.handle_of_mem_fragments hh (m := m) (List.mem_cons_of_mem _ ?_)⟩
      exact List.mem_map_of_mem hp

namespace HCI

variable {s : Stack} {i : Nat} {h : UInt16} {scid : Int} {d : BTDevice} {rest : List Arrival}

/-- An arrival changes its device, and nothing else. -/
theorem inbound_arrival (hh : h < 0x1000) {a : Arrival} (hlink : Link s i h scid d)
    (hstep : Follows h d (a :: rest)) :
    ∃ d', inbound a.1 s = some (s.modifyDevice i fun _ => d') ∧
      Link (s.modifyDevice i fun _ => d') i h scid d' ∧ Follows h d' rest ∧
      d'.sockets = (marks [a]).foldl BTDevice.deliver d.sockets := by
  obtain ⟨htype, x, hx, hhandle⟩ := hstep.packet hh
  obtain ⟨d', hreceive, hrest, hsockets⟩ := hstep.receive hh
  rw [handOver_eq] at hsockets
  have hcid : ∀ e, BTDevice.assemble a.1 d = some e → e.packetCid ≠ 1 := by
    obtain ⟨e, he, hne, -⟩ := BTDevice.receive_eq_some hreceive
    intro e' he'
    rwa [← Option.some.inj (he.symm.trans he')]
  have haddressed : s.Addressed i a.1 := ⟨x, hx, by rw [hhandle, hlink.handle]⟩
  refine ⟨d', ?_, hlink.modifyDevice (BTDevice.handle_of_receive hreceive) ?_, hrest, hsockets⟩
  · rw [inbound, htype, Option.bind_eq_bind, Option.bind_some, if_pos rfl, acl_eq haddressed,
      BTDevice.data_eq hlink.device hcid, hreceive]
    rfl
  · rw [BTDevice.getSocket, hsockets]
    exact isSome_lookup_deliver _ _ scid

/-- The loop takes in all arrivals. -/
theorem receivePending_arrivals (hh : h < 0x1000) {l : List Arrival} {fuel : Nat}
    (hrx : s.rx.contents = l.map Prod.fst) (hfuel : l.length < fuel) (hlink : Link s i h scid d)
    (hstep : Follows h d (l ++ rest)) :
    ∃ s' d', receivePending fuel s = some s' ∧
      s' = { s with rx := s'.rx, devices := s'.devices } ∧ s'.rx.contents = [] ∧
      (∀ k, s.rx.Lasts k → s'.rx.Lasts k) ∧ Link s' i h scid d' ∧ Follows h d' rest ∧
      d'.sockets = (marks l).foldl BTDevice.deliver d.sockets := by
  induction l generalizing s d fuel with
  | nil =>
      obtain ⟨fuel, rfl⟩ : ∃ k, fuel = k + 1 := ⟨fuel - 1, by rw [List.length_nil] at hfuel; omega⟩
      refine ⟨s, d, ?_, rfl, hrx, fun _ hk => hk, hlink, hstep, rfl⟩
      rw [receivePending, (PacketQ.read_eq_none_iff _).mpr hrx]
  | cons a l ih =>
      obtain ⟨fuel, rfl⟩ : ∃ k, fuel = k + 1 := ⟨fuel - 1, by omega⟩
      obtain ⟨⟨p, q⟩, hread⟩ : ∃ r, s.rx.read = some r := by
        refine Option.ne_none_iff_exists'.mp fun hnone => ?_
        rw [(PacketQ.read_eq_none_iff _).mp hnone] at hrx
        cases hrx
      have hcontents := PacketQ.contents_of_read hread
      rw [hrx, List.map_cons] at hcontents
      obtain ⟨rfl, hq⟩ := List.cons.inj hcontents
      obtain ⟨d₁, hinbound, hlink₁, hstep₁, hsockets₁⟩ :=
        inbound_arrival hh (s := { s with rx := q }) (hlink.congr rfl) hstep
      obtain ⟨s', d', hreceive, hframe, hempty, hlasts, hrest⟩ :=
        ih (s := Stack.modifyDevice i (fun _ => d₁) { s with rx := q }) hq.symm
          (Nat.succ_lt_succ_iff.mp hfuel) hlink₁ hstep₁
      refine ⟨s', d', ?_, hframe.trans rfl, hempty, fun k hk => hlasts k (hk.read hread), ?_⟩
      · rw [receivePending, hread]
        exact (congrArg (Option.bind · _) hinbound).trans hreceive
      · rwa [hsockets₁, ← List.foldl_append, ← marks_cons] at hrest

/-- Sending takes packets off the outbound queue. -/
theorem sendPending_keeps (n : Nat) (s : Stack) :
    sendPending n s = { s with tx := (sendPending n s).tx, sent := (sendPending n s).sent } ∧
      ∀ k, s.tx.Lasts k → (sendPending n s).tx.Lasts k := by
  induction n generalizing s with
  | zero => exact ⟨rfl, fun _ hk => hk⟩
  | succ n ih =>
      rw [sendPending]
      split
      · exact ⟨rfl, fun _ hk => hk⟩
      next d q hread =>
        obtain ⟨hrest, hlasts⟩ := ih { s with tx := q, sent := s.sent ++ [d] }
        exact ⟨hrest.trans rfl, fun k hk => hlasts k (hk.read hread)⟩

/-- `hid_update` takes in all arrivals. -/
theorem update_arrivals (hh : h < 0x1000) {l : List Arrival} (n : Nat)
    (hrx : s.rx.contents = l.map Prod.fst) (hl : l.length ≤ qsize) (hlink : Link s i h scid d)
    (hstep : Follows h d (l ++ rest)) :
    ∃ s' d', update n s = some s' ∧ s'.inputs = s.inputs ∧ s'.rx.contents = [] ∧
      (∀ k, s.rx.Lasts k → s'.rx.Lasts k) ∧ (∀ k, s.tx.Lasts k → s'.tx.Lasts k) ∧
      Link s' i h scid d' ∧ Follows h d' rest ∧
      d'.sockets = (marks l).foldl BTDevice.deliver d.sockets := by
  obtain ⟨hsend, hsent⟩ := sendPending_keeps n s
  have hdevices : (sendPending n s).devices = s.devices := by rw [hsend]
  have hrx' : (sendPending n s).rx = s.rx := by rw [hsend]
  obtain ⟨s', d', hreceive, hframe, hempty, hlasts, hrest⟩ := receivePending_arrivals hh
    (hrx' ▸ hrx) (Nat.lt_succ_of_le hl) (hlink.congr hdevices) hstep
  have hinputs : s'.inputs = s.inputs := by rw [hframe, hsend]
  have htx : s'.tx = (sendPending n s).tx := by rw [hframe]
  exact ⟨s', d', hreceive, hinputs, hempty, hrx' ▸ hlasts, htx ▸ hsent, hrest⟩

end HCI

/-! ## `hid_get` -/

namespace HIDSource

variable {s : Stack} {i j : Nat} {h : UInt16} {scid : Int} {d : BTDevice} {e : InputDevice}
  {dst : List UInt8} {js : List Nat}

/-- An input device that is not connected, and not being searched. -/
def Idle (e : InputDevice) : Prop := e.interrupt = 0 ∧ e.sdp = 0

/-- The loop passes over it. -/
theorem getFrom_idle (he : s.inputs[j]? = some e) (hidle : Idle e) :
    getFrom dst (j :: js) s = getFrom dst js s := by
  rw [getFrom, he]
  simp [receive, pollSdp, hidle.1, hidle.2]

/-- The search is over, its interrupt channel is `scid`, and it is no Wii controller. -/
structure Open (scid : Int) (e : InputDevice) : Prop where
  interrupt : e.interrupt = scid
  ne : scid ≠ 0
  sdp : e.sdp = 0
  notWii : WII.isWii e = false

/-- An open device is read from its interrupt channel. -/
theorem receive_open (hopen : Open scid e) (len : Nat) :
    receive e len s = HCI.l2Recv scid len s := by
  rw [receive, hopen.interrupt, if_pos hopen.ne]

/-- The socket of a link is found at its device. -/
theorem getSocket_eq {sock : L2CAPSocket} (hlink : Link s i h scid d)
    (hsock : d.sockets.lookup scid = some sock) : s.getSocket scid = some (i, sock) := by
  rw [Stack.getSocket, hlink.socket, Option.bind_some, hlink.device, Option.bind_some,
    BTDevice.getSocket, hsock]
  rfl

/-- A queue with nothing in it. -/
theorem l2Recv_nil {sock : L2CAPSocket} (hlink : Link s i h scid d)
    (hsock : d.sockets.lookup scid = some sock) (hq : sock.q.contents = []) (len : Nat) :
    HCI.l2Recv scid len s = (s, some []) := by
  rw [HCI.l2Recv, getSocket_eq hlink hsock]
  simp only [(PacketQ.read_eq_none_iff _).mpr hq]

/-- A packet is taken off the queue. -/
theorem l2Recv_cons {sock : L2CAPSocket} {p : Packet} {w : List Packet} (hlink : Link s i h scid d)
    (hsock : d.sockets.lookup scid = some sock) (hq : sock.q.contents = p :: w) (len : Nat) :
    ∃ sockets q, HCI.l2Recv scid len s =
        (s.modifyDevice i fun _ => { d with sockets := sockets }, some (p.take len)) ∧
      Link (s.modifyDevice i fun _ => { d with sockets := sockets }) i h scid
        { d with sockets := sockets } ∧
      sockets.lookup scid = some { sock with q := q } ∧ q.contents = w ∧
      ∀ n, sock.q.Lasts n → q.Lasts n := by
  obtain ⟨⟨p', q⟩, hread⟩ : ∃ r, sock.q.read = some r := by
    refine Option.ne_none_iff_exists'.mp fun hnone => ?_
    rw [(PacketQ.read_eq_none_iff _).mp hnone] at hq
    cases hq
  have hcontents := PacketQ.contents_of_read hread
  rw [hq] at hcontents
  obtain ⟨rfl, rfl⟩ := List.cons.inj hcontents
  have hlookup : (d.modifySocket scid fun sock => { sock with q := q }).sockets.lookup scid =
      some { sock with q := q } := by rw [BTDevice.lookup_modifySocket, hsock]; rfl
  refine ⟨(d.modifySocket scid fun sock => { sock with q := q }).sockets, q,
    ?_, ?_, hlookup, rfl, fun n hn => hn.read hread⟩
  · rw [HCI.l2Recv, getSocket_eq hlink hsock]
    simp only [hread]
    rw [Stack.modifySocket, Stack.modifyDevice_const hlink.device]
    rfl
  · refine hlink.modifyDevice rfl ?_
    rw [BTDevice.getSocket, BTDevice.getSocket, hlookup, hsock]
    rfl

/-- Nothing waits: the loop finds nothing. -/
theorem getFrom_nil {sock : L2CAPSocket} (hlink : Link s i h scid d)
    (hsock : d.sockets.lookup scid = some sock) (hq : sock.q.contents = [])
    (he : s.inputs[j]? = some e) (hopen : Open scid e)
    (hothers : ∀ k ∈ js, k ≠ j → ∃ e, s.inputs[k]? = some e ∧ Idle e) :
    getFrom dst js s = some (s, dst, 0) := by
  induction js with
  | nil => rfl
  | cons k js ih =>
      have hrest : getFrom dst js s = some (s, dst, 0) :=
        ih fun k hk => hothers k (List.mem_cons_of_mem _ hk)
      by_cases hk : k = j
      · subst hk
        rw [getFrom, he]
        simp [receive_open hopen, l2Recv_nil hlink hsock hq, pollSdp, hopen.sdp, hrest]
      · obtain ⟨e', he', hidle⟩ := hothers k List.mem_cons_self hk
        rw [getFrom_idle he' hidle, hrest]

/-- A packet waits: the loop returns it, in front of what the buffer had. -/
theorem getFrom_cons {sock : L2CAPSocket} {p : Packet} {w : List Packet} (hlink : Link s i h scid d)
    (hsock : d.sockets.lookup scid = some sock) (hq : sock.q.contents = p :: w) (hp : p ≠ [])
    (he : s.inputs[j]? = some e) (hopen : Open scid e) (hj : j ∈ js) (hdst : dst ≠ [])
    (hothers : ∀ k ∈ js, k ≠ j → ∃ e, s.inputs[k]? = some e ∧ Idle e) :
    ∃ sockets q, getFrom dst js s =
        some (s.modifyDevice i fun _ => { d with sockets := sockets },
          p.take dst.length ++ dst.drop (p.take dst.length).length,
          (p.take dst.length).length) ∧
      Link (s.modifyDevice i fun _ => { d with sockets := sockets }) i h scid
        { d with sockets := sockets } ∧
      sockets.lookup scid = some { sock with q := q } ∧ q.contents = w ∧
      ∀ n, sock.q.Lasts n → q.Lasts n := by
  induction js with
  | nil => cases hj
  | cons k js ih =>
      by_cases hk : k = j
      · subst hk
        obtain ⟨sockets, q, hrecv, hrest⟩ := l2Recv_cons hlink hsock hq dst.length
        refine ⟨sockets, q, ?_, hrest⟩
        have hinput : (s.modifyDevice i fun _ => { d with sockets := sockets }).inputs[k]? =
            some e := he
        obtain ⟨b, pkt, htake⟩ : ∃ b pkt, p.take dst.length = b :: pkt :=
          List.exists_cons_of_ne_nil fun hnil =>
            (List.take_eq_nil_iff.mp hnil).elim (fun h => hdst (List.length_eq_zero_iff.mp h)) hp
        rw [getFrom, he, Option.bind_eq_bind, Option.bind_some, receive_open hopen, hrecv, htake]
        simp only [WII.hid, hinput, hopen.notWii, Bool.false_eq_true, if_false, Option.map_some,
          List.length_cons]
      · obtain ⟨e', he', hidle⟩ := hothers k List.mem_cons_self hk
        rw [getFrom_idle he' hidle]
        exact ih ((List.mem_cons.mp hj).resolve_left (Ne.symm hk))
          fun k hk => hothers k (List.mem_cons_of_mem _ hk)

end HIDSource

end HidServer
end M5Z80
