import M5Z80.HidServer.Connected
import M5Z80.HidServer.SdpWalk

/-!
# M5Z80.HidServer.Search

A search for the HID descriptor of a device.  Its answer comes in parts, each after
the request for it; `update_sdp` reads them off the socket one by one, puts them
together and walks the whole.  A part that does not fit its buffer of 512 bytes is
read beyond the end.
-/

namespace M5Z80
namespace HidServer

/-! ## answers -/

/-- An answer to a search: the part of the records it carries, and the state
that asks for the part after it. -/
structure SearchAnswer where
  tid : UInt16
  total : UInt16
  part : List UInt8
  cont : List UInt8

namespace SearchAnswer

/-- A `SDP_ServiceSearchAttributeResponse`. -/
def encode (a : SearchAnswer) : Packet :=
  [7, UInt8.ofNat (a.tid.toNat / 256), UInt8.ofNat a.tid.toNat,
    UInt8.ofNat (a.total.toNat / 256), UInt8.ofNat a.total.toNat,
    UInt8.ofNat (a.part.length / 256), UInt8.ofNat a.part.length] ++
    (a.part ++ UInt8.ofNat a.cont.length :: a.cont)

/-- The lengths fit their fields, and a continuation has at most 16 bytes. -/
structure WellFormed (a : SearchAnswer) : Prop where
  part_lt : a.part.length < 2 ^ 16
  cont_le : a.cont.length ≤ 16

/-- The answer fits the buffer of `update`. -/
def Fits (a : SearchAnswer) : Prop := a.encode.length ≤ 512

instance (a : SearchAnswer) : Decidable a.Fits := inferInstanceAs (Decidable (_ ≤ _))

theorem length_encode (a : SearchAnswer) :
    a.encode.length = 8 + a.part.length + a.cont.length := by
  simp only [encode, List.length_append, List.length_cons, List.length_nil]
  omega

end SearchAnswer

namespace SDPParse

/-- A length that was written is read back. -/
theorem u16_encode {n : Nat} (h : n < 2 ^ 16) (rest : List UInt8) :
    u16 (UInt8.ofNat (n / 256) :: UInt8.ofNat n :: rest) = some (n, rest) := by
  have hword : n / 256 % 2 ^ 8 * 256 + n % 2 ^ 8 = n := by omega
  simp only [u16, u8, UInt8.toNat_ofNat', Option.bind_eq_bind, Option.bind_some, Option.pure_def,
    hword]

/-- The header of an answer, over what is there of the rest. -/
theorem add_header {a : SearchAnswer} (h : a.WellFormed) (p : SDPParse) (s : Stack)
    (data : List UInt8) :
    add ([7, UInt8.ofNat (a.tid.toNat / 256), UInt8.ofNat a.tid.toNat,
        UInt8.ofNat (a.total.toNat / 256), UInt8.ofNat a.total.toNat,
        UInt8.ofNat (a.part.length / 256), UInt8.ofNat a.part.length] ++ data) p s =
      (skip a.part.length data).bind fun cont => (u8 cont).bind fun q =>
        if q.1 = 0 then some (true, { p with buf := p.buf ++ data.take a.part.length }, s)
        else if q.2.length < q.1 then none
        else (serviceSearch p.sdpSock (q.2.take q.1) s).map fun s =>
          (false, { p with buf := p.buf ++ data.take a.part.length }, s) := by
  have hpid : ¬ (7 : UInt8).toNat ≠ 7 := by decide
  simp only [add, List.cons_append, List.nil_append, u8, u16_encode a.tid.toNat_lt,
    u16_encode a.total.toNat_lt, u16_encode h.part_lt, Option.bind_eq_bind, Option.bind_some,
    if_neg hpid]
  rfl

/-- An answer is kept, and what follows it is asked for. -/
theorem add_encode {a : SearchAnswer} (h : a.WellFormed) (p : SDPParse) (s : Stack) :
    add a.encode p s =
      if a.cont = [] then some (true, { p with buf := p.buf ++ a.part }, s)
      else some (false, { p with buf := p.buf ++ a.part },
        HCI.l2Send p.sdpSock (searchRequest a.cont) s) := by
  have hcont : (UInt8.ofNat a.cont.length).toNat = a.cont.length :=
    UInt8.toNat_ofNat_of_lt' (h.cont_le.trans_lt (by decide))
  rw [SearchAnswer.encode, add_header h, skip_append, Option.bind_some, List.take_left]
  simp only [u8, Option.bind_some, hcont, List.length_eq_zero_iff]
  split
  · rfl
  · rw [if_neg (Nat.lt_irrefl _), List.take_length, serviceSearch, if_pos h.cont_le]
    rfl

/-- One that does not fit is read beyond the end of the buffer. -/
theorem add_take_eq_none {a : SearchAnswer} (h : a.WellFormed) (hfits : ¬ a.Fits) (p : SDPParse)
    (s : Stack) : add (a.encode.take 512) p s = none := by
  have hcont : (UInt8.ofNat a.cont.length).toNat = a.cont.length :=
    UInt8.toNat_ofNat_of_lt' (h.cont_le.trans_lt (by decide))
  rw [SearchAnswer.Fits, a.length_encode] at hfits
  have htake : a.encode.take 512 = [7, UInt8.ofNat (a.tid.toNat / 256), UInt8.ofNat a.tid.toNat,
      UInt8.ofNat (a.total.toNat / 256), UInt8.ofNat a.total.toNat,
      UInt8.ofNat (a.part.length / 256), UInt8.ofNat a.part.length] ++
      (a.part ++ UInt8.ofNat a.cont.length :: a.cont).take 505 := rfl
  rw [htake, add_header h]
  by_cases hpart : a.part.length ≤ 505
  · -- the part is there, but not all that follows it
    rw [List.take_append, List.take_of_length_le hpart, skip_append, Option.bind_some]
    cases hroom : 505 - a.part.length with
    | zero => rfl
    | succ n =>
        have hlt : (a.cont.take n).length < a.cont.length := by
          rw [List.length_take]
          omega
        rw [List.take_succ_cons]
        simp only [u8, Option.bind_some, hcont]
        rw [if_neg (Nat.ne_zero_of_lt hlt), if_pos hlt]
  · rw [skip, if_neg]
    · rfl
    · rw [List.length_take]
      omega

end SDPParse

/-! ## the search -/

/-- A packet for the socket `scid` is put on its queue, as `forward` does. -/
def Stack.arrive (scid : Int) (pkt : Packet) (s : Stack) : Stack :=
  match s.getDeviceBySocket scid with
  | none => s
  | some i => s.modifySocket i scid fun sock => { sock with q := (sock.q.write pkt).2 }

/-- The input device at hand is changed. -/
theorem Stack.getElem?_modifyInput {s : Stack} {j : Nat} {e : InputDevice}
    (he : s.inputs[j]? = some e) (f : InputDevice → InputDevice) :
    (s.modifyInput j f).inputs[j]? = some (f e) := by
  rw [Stack.modifyInput, List.getElem?_modify_eq, he]
  rfl

/-- To ask for an authentication is none of the business of the input devices. -/
theorem inputs_authenticationRequested (addr : Bdaddr) (s : Stack) :
    (HCI.authenticationRequested addr s).inputs = s.inputs := by
  rw [HCI.authenticationRequested]
  split
  · rfl
  · split <;> rfl

namespace InputDevice

/-- Packets for the socket `scid`, each read by `update_sdp` before the next one
comes. -/
def search (j : Nat) (scid : Int) : List Packet → Stack → Option Stack
  | [], s => some s
  | pkt :: pkts, s => (updateSdp j (s.arrive scid pkt)).bind (search j scid pkts)

/-- The input device at `j` is searched by `p`, over the socket `scid` of the device at
`i`.  Nothing is on the queue of the socket, which lasts for `n` packets more. -/
structure Searching (s : Stack) (i j : Nat) (h : UInt16) (scid handle : Int) (dcid : UInt16)
    (e : InputDevice) (n : Nat) (p : SDPParse) : Prop where
  input : s.inputs[j]? = some { e with sdpHandler := some p }
  sdp : e.sdp = scid
  sock : p.sdpSock = scid
  channel : ∃ d sock, Link s i h scid d ∧ d.handle = handle ∧ d.sockets.lookup scid = some sock ∧
    sock.dcid = dcid ∧ sock.q.contents = [] ∧ sock.q.Lasts n

/-- The request for the part after `cont`, as it is sent. -/
def request (handle : Int) (dcid : UInt16) (cont : List UInt8) : Packet :=
  l2capData (UInt16.ofInt handle ||| 0x2000) dcid (SDPParse.searchRequest cont)

namespace Searching

variable {s : Stack} {i j : Nat} {h : UInt16} {scid handle : Int} {dcid : UInt16} {e : InputDevice}
  {n : Nat} {p : SDPParse}

/-- `update` hands `add` the packet that has come, as far as the buffer goes. -/
theorem update (hs : Searching s i j h scid handle dcid e (n + 1) p) (pkt : Packet)
    (hpkt : pkt ≠ []) :
    ∃ t, p.update (s.arrive scid pkt) = SDPParse.add (pkt.take 512) p t ∧
      Searching t i j h scid handle dcid e n p ∧ t.tx = s.tx := by
  obtain ⟨d, sock, hlink, hhandle, hsock, hdcid, hq, hqlasts⟩ := hs.channel
  let f : L2CAPSocket → L2CAPSocket := fun sock => { sock with q := (sock.q.write pkt).2 }
  have harrive : s.arrive scid pkt = s.modifyDevice i fun _ => d.modifySocket scid f := by
    rw [Stack.arrive, hlink.socket]
    exact Stack.modifyDevice_const hlink.device _
  have hsock' : (d.modifySocket scid f).sockets.lookup scid = some (f sock) := by
    rw [BTDevice.lookup_modifySocket, hsock]
    rfl
  have hlink' : Link (s.arrive scid pkt) i h scid (d.modifySocket scid f) := by
    rw [harrive]
    refine hlink.modifyDevice rfl ?_
    rw [BTDevice.getSocket, BTDevice.getSocket, hsock', hsock]
    rfl
  have hcontents : (f sock).q.contents = [pkt] := by
    have hroom : sock.q.contents.length < qsize := by
      rw [hq]
      decide
    obtain ⟨q', hq', hc⟩ := PacketQ.write_of_lt hroom pkt
    change (sock.q.write pkt).2.contents = [pkt]
    rw [hq', hc, hq]
    rfl
  obtain ⟨sockets, q, hrecv, hlink'', hsock'', hempty, hlasts⟩ :=
    HIDSource.l2Recv_cons hlink' hsock' hcontents 512
  obtain ⟨b, rest, htake⟩ : ∃ b rest, pkt.take 512 = b :: rest :=
    List.exists_cons_of_ne_nil fun hnil => hpkt (by simpa using List.take_eq_nil_iff.mp hnil)
  refine ⟨_, ?_, ⟨?_, hs.sdp, hs.sock, _, _, hlink'', hhandle, hsock'', hdcid, hempty,
    hlasts n (hqlasts.write pkt)⟩, ?_⟩
  · rw [SDPParse.update, hs.sock, hrecv, htake]
  · rw [harrive]
    exact hs.input
  · rw [harrive]
    rfl

/-- What is sent over the socket. -/
theorem l2Send_eq (hs : Searching s i j h scid handle dcid e n p) (data : List UInt8) :
    HCI.l2Send scid data s = s.hciWrite (l2capData (UInt16.ofInt handle ||| 0x2000) dcid data) := by
  obtain ⟨d, sock, hlink, rfl, hsock, rfl, -, -⟩ := hs.channel
  rw [HCI.l2Send, HIDSource.getSocket_eq hlink hsock]
  simp only [BTDevice.send, hlink.device]

/-- What arrives does not change the search. -/
theorem input_arrive (hs : Searching s i j h scid handle dcid e n p) (pkt : Packet) :
    (s.arrive scid pkt).inputs[j]? = some { e with sdpHandler := some p } := by
  rw [Stack.arrive]
  split
  · exact hs.input
  · exact hs.input

/-- A part that is not the last one: the next is asked for. -/
theorem next (hs : Searching s i j h scid handle dcid e (n + 1) p) {a : SearchAnswer}
    (ha : a.WellFormed) (hfits : a.Fits) (hcont : a.cont ≠ []) :
    ∃ s', updateSdp j (s.arrive scid a.encode) = some s' ∧
      Searching s' i j h scid handle dcid e n { p with buf := p.buf ++ a.part } ∧
      s'.tx = (s.tx.write (request handle dcid a.cont)).2 := by
  obtain ⟨t, hupdate, ht, htx⟩ := hs.update a.encode (List.cons_ne_nil _ _)
  have hsend : HCI.l2Send p.sdpSock (SDPParse.searchRequest a.cont) t =
      t.hciWrite (request handle dcid a.cont) := by
    rw [hs.sock, ht.l2Send_eq]
    rfl
  rw [List.take_of_length_le hfits, SDPParse.add_encode ha, if_neg hcont, hsend] at hupdate
  refine ⟨(t.hciWrite (request handle dcid a.cont)).modifyInput j fun d =>
    { d with sdpHandler := some { p with buf := p.buf ++ a.part } }, ?_, ⟨?_, hs.sdp, hs.sock, ?_⟩,
    congrArg (fun q : PacketQ => (q.write (request handle dcid a.cont)).2) htx⟩
  · rw [updateSdp, hs.input_arrive]
    simp only [Option.bind_eq_bind, Option.bind_some, hupdate, Bool.false_eq_true, if_false]
    rfl
  · exact Stack.getElem?_modifyInput ht.input _
  · obtain ⟨d, sock, hlink, hrest⟩ := ht.channel
    exact ⟨d, sock, hlink.congr rfl, hrest⟩

/-- The last part: the records are walked, and the search is over. -/
theorem last (hs : Searching s i j h scid handle dcid e (n + 1) p) {a : SearchAnswer}
    (ha : a.WellFormed) (hfits : a.Fits) (hend : a.cont = []) {p' : SDPParse}
    (hparse : SDPParse.parse { p with buf := p.buf ++ a.part } = some p') :
    ∃ s', updateSdp j (s.arrive scid a.encode) = some s' ∧ s'.inputs[j]? = some { e with
      hidDescriptor := p'.hidDescriptor
      sdpHandler := none
      sdp := 0
      state := .authenticating } := by
  obtain ⟨t, hupdate, ht, -⟩ := hs.update a.encode (List.cons_ne_nil _ _)
  rw [List.take_of_length_le hfits, SDPParse.add_encode ha, if_pos hend] at hupdate
  obtain ⟨t₁, ht₁⟩ : ∃ t₁, t₁ = HCI.l2Close e.sdp (t.modifyInput j fun d =>
      { d with hidDescriptor := p'.hidDescriptor, sdpHandler := none }) := ⟨_, rfl⟩
  have hclosed : t₁.inputs[j]? =
      some { e with hidDescriptor := p'.hidDescriptor, sdpHandler := none } := by
    rw [ht₁, inputs_l2Close]
    exact Stack.getElem?_modifyInput ht.input _
  obtain ⟨t₂, ht₂⟩ : ∃ t₂, t₂ = HCI.authenticationRequested e.bdaddr
      (t₁.modifyInput j fun d => { d with sdp := 0 }) := ⟨_, rfl⟩
  have hauthenticating : t₂.inputs[j]? =
      some { e with hidDescriptor := p'.hidDescriptor, sdpHandler := none, sdp := 0 } := by
    rw [ht₂, inputs_authenticationRequested]
    exact Stack.getElem?_modifyInput hclosed _
  refine ⟨t₂.modifyInput j fun d => { d with state := .authenticating }, ?_,
    Stack.getElem?_modifyInput hauthenticating _⟩
  rw [updateSdp, hs.input_arrive]
  simp only [Option.bind_eq_bind, Option.bind_some, hupdate, hparse, if_true]
  rw [ht₂, ht₁]
  rfl

/-- A part that does not fit the buffer. -/
theorem not_fits (hs : Searching s i j h scid handle dcid e (n + 1) p) {a : SearchAnswer}
    (ha : a.WellFormed) (hfits : ¬ a.Fits) : updateSdp j (s.arrive scid a.encode) = none := by
  obtain ⟨t, hupdate, -, -⟩ := hs.update a.encode (List.cons_ne_nil _ _)
  rw [SDPParse.add_take_eq_none ha hfits] at hupdate
  rw [updateSdp, hs.input_arrive]
  simp only [Option.bind_eq_bind, Option.bind_some, hupdate, Option.bind_none]

/-- The parts before the last one are put together in order. -/
theorem run {answers : List SearchAnswer} (hanswers : ∀ a ∈ answers, a.WellFormed ∧ a.cont ≠ [])
    (hfits : ∀ a ∈ answers, a.Fits)
    (hs : Searching s i j h scid handle dcid e (answers.length + n) p) :
    ∃ s', search j scid (answers.map SearchAnswer.encode) s = some s' ∧
      Searching s' i j h scid handle dcid e n
        { p with buf := p.buf ++ answers.flatMap SearchAnswer.part } ∧
      s'.tx = answers.foldl (fun q a => (q.write (request handle dcid a.cont)).2) s.tx := by
  induction answers generalizing s p with
  | nil =>
      rw [List.length_nil, Nat.zero_add] at hs
      refine ⟨s, rfl, ?_, rfl⟩
      rw [List.flatMap_nil, List.append_nil]
      exact hs
  | cons a answers ih =>
      obtain ⟨⟨ha, hcont⟩, hanswers⟩ := List.forall_mem_cons.mp hanswers
      obtain ⟨hafits, hfits⟩ := List.forall_mem_cons.mp hfits
      rw [List.length_cons, Nat.add_right_comm] at hs
      obtain ⟨t, hupdate, ht, htx⟩ := hs.next ha hafits hcont
      obtain ⟨s', hsearch, hs', htx'⟩ := ih hanswers hfits ht
      refine ⟨s', ?_, ?_, ?_⟩
      · rw [List.map_cons, search, hupdate]
        exact hsearch
      · rw [List.flatMap_cons, ← List.append_assoc]
        exact hs'
      · rw [htx', htx, List.foldl_cons]

/-- One of them that does not fit ends the search. -/
theorem run_not_fits {answers : List SearchAnswer} {last : SearchAnswer}
    (hanswers : ∀ a ∈ answers, a.WellFormed ∧ a.cont ≠ []) (hlast : last.WellFormed)
    (hfits : ¬ ∀ a ∈ answers ++ [last], a.Fits)
    (hs : Searching s i j h scid handle dcid e (answers.length + 1 + n) p) :
    search j scid ((answers ++ [last]).map SearchAnswer.encode) s = none := by
  induction answers generalizing s p with
  | nil =>
      rw [List.length_nil, Nat.zero_add, Nat.add_comm] at hs
      rw [List.nil_append, List.forall_mem_singleton] at hfits
      rw [List.nil_append, List.map_singleton, search, hs.not_fits hlast hfits, Option.bind_none]
  | cons a answers ih =>
      obtain ⟨⟨ha, hcont⟩, hanswers⟩ := List.forall_mem_cons.mp hanswers
      rw [List.length_cons, Nat.add_right_comm, Nat.add_right_comm _ 1 n] at hs
      rw [List.cons_append, List.map_cons, search]
      by_cases hafits : a.Fits
      · obtain ⟨t, hupdate, ht, -⟩ := hs.next ha hafits hcont
        rw [hupdate, Option.bind_some]
        refine ih hanswers (fun hall => hfits ?_) (by rwa [Nat.add_right_comm] at ht)
        exact List.forall_mem_cons.mpr ⟨hafits, hall⟩
      · rw [hs.not_fits ha hafits, Option.bind_none]

end Searching

/-- A search over two lists of packets. -/
theorem search_append (j : Nat) (scid : Int) (l l' : List Packet) (s : Stack) :
    search j scid (l ++ l') s = (search j scid l s).bind (search j scid l') := by
  induction l generalizing s with
  | nil => rfl
  | cons pkt l ih =>
      rw [List.cons_append, search, search, Option.bind_assoc]
      exact congrArg _ (funext ih)

/-- The descriptor that a device sends is found: for every list of service records,
in every encoding of its lengths and every way of cutting the answer into parts that
fit the buffer, a new search puts the parts together, asks for each one by the
continuation of the one before, and leaves the last string below the attribute of
the HID descriptor with the input device.  It reads beyond the buffer exactly if a
part does not fit. -/
theorem search_answers {width : SDPParse.Width} {records : List SDPParse.Record}
    (hlen : (records.flatMap SDPParse.Record.encode).length < width.bound)
    (hrecords : ∀ r ∈ records, r.WellFormed) {answers : List SearchAnswer} {last : SearchAnswer}
    (hanswers : ∀ a ∈ answers, a.WellFormed ∧ a.cont ≠ []) (hlast : last.WellFormed)
    (hend : last.cont = [])
    (hparts : answers.flatMap SearchAnswer.part ++ last.part =
      SDPParse.encodeRecords width records)
    {s : Stack} {i j : Nat} {h : UInt16} {scid handle : Int} {dcid : UInt16} {e : InputDevice}
    (hs : Searching s i j h scid handle dcid e (answers.length + 1) (SDPParse.new scid)) :
    ((search j scid ((answers ++ [last]).map SearchAnswer.encode) s).isSome ↔
        ∀ a ∈ answers ++ [last], a.Fits) ∧
      ((∀ a ∈ answers, a.Fits) →
        ∃ s', search j scid (answers.map SearchAnswer.encode) s = some s' ∧
          Searching s' i j h scid handle dcid e 1
            { SDPParse.new scid with buf := answers.flatMap SearchAnswer.part } ∧
          s'.tx = answers.foldl (fun q a => (q.write (request handle dcid a.cont)).2) s.tx) ∧
      ∀ s', search j scid ((answers ++ [last]).map SearchAnswer.encode) s = some s' →
        s'.inputs[j]? = some { e with
          hidDescriptor := (SDPParse.descriptors records).getLast?.getD []
          sdpHandler := none
          sdp := 0
          state := .authenticating } := by
  have hcollect (hfits : ∀ a ∈ answers, a.Fits) := hs.run hanswers hfits
  have hnone (hfits : ¬ ∀ a ∈ answers ++ [last], a.Fits) :=
    hs.run_not_fits (n := 0) hanswers hlast hfits
  have hfinish (hfits : ∀ a ∈ answers ++ [last], a.Fits) :
      ∃ s', search j scid ((answers ++ [last]).map SearchAnswer.encode) s = some s' ∧
        s'.inputs[j]? = some { e with
          hidDescriptor := (SDPParse.descriptors records).getLast?.getD []
          sdpHandler := none
          sdp := 0
          state := .authenticating } := by
    obtain ⟨hfits, hlastfits⟩ := List.forall_mem_append.mp hfits
    obtain ⟨t, hsearch, ht, -⟩ := hcollect hfits
    have hparse := SDPParse.parse_encodeRecords hlen hrecords
      (p := { SDPParse.new scid with buf := [] ++ answers.flatMap SearchAnswer.part ++ last.part })
      hparts
    obtain ⟨s', hupdate, hinput⟩ :=
      ht.last hlast (List.forall_mem_singleton.mp hlastfits) hend hparse
    refine ⟨s', ?_, ?_⟩
    · rw [List.map_append, search_append, hsearch, Option.bind_some, List.map_singleton, search,
        hupdate]
      rfl
    · rw [hinput, SDPParse.hidDescriptor_walk]
      rfl
  refine ⟨⟨fun hsome => ?_, fun hfits => ?_⟩, hcollect, fun s' hs' => ?_⟩
  · by_contra hfits
    rw [hnone hfits] at hsome
    cases hsome
  · obtain ⟨s', hs', -⟩ := hfinish hfits
    exact Option.isSome_iff_exists.mpr ⟨s', hs'⟩
  · have hfits : ∀ a ∈ answers ++ [last], a.Fits := by
      by_contra hfits
      rw [hnone hfits] at hs'
      cases hs'
    obtain ⟨t, ht, hinput⟩ := hfinish hfits
    rwa [← Option.some.inj (ht.symm.trans hs')]

/-- A record with a HID descriptor of two bytes. -/
def keyboardRecord : SDPParse.Record :=
  ⟨.byte, [⟨0x0206, .seq .byte [.seq .byte [.fixed 1 0 [0x22], .text .byte [5, 1]]]⟩]⟩

/-- A keyboard with a channel for the search. -/
def newKeyboard : InputDevice :=
  { InputDevice.new (Vector.replicate 6 0) (Vector.replicate 3 0) with
    sdp := 0x41
    state := .readingSdp }

/-- The search has begun. -/
def searchedKeyboard : Stack :=
  { Stack.init (.working fun _ => none) with
    devices := [{ BTDevice.new (Vector.replicate 6 0) with
      handle := 0x40
      sockets := [(0x41, ⟨.opened, 1, 0x41, 0x42, PacketQ.empty⟩)] }]
    inputs := [{ newKeyboard with sdpHandler := some (SDPParse.new 0x41) }] }

/-- Its record comes in two parts. -/
theorem search_answers_keyboardRecord : ∃ s' d, search 0 0x41
    [[7, 0, 1, 0, 17, 0, 6, 0x35, 0x0F, 0x35, 0x0D, 0x09, 0x02, 2, 0, 6],
      [7, 0, 1, 0, 17, 0, 11, 0x06, 0x35, 0x08, 0x35, 0x06, 0x08, 0x22, 0x25, 2, 5, 1, 0]]
    searchedKeyboard = some s' ∧ s'.inputs[0]? = some d ∧ d.hidDescriptor = [5, 1] := by
  have hrecord : keyboardRecord.WellFormed :=
    ⟨by decide, List.forall_mem_singleton.mpr
      ⟨by decide, ⟨by decide, ⟨.inl rfl, rfl⟩, Nat.lt_of_sub_pos (by decide), trivial⟩, trivial⟩⟩
  have hanswer : ∀ a ∈ ([⟨1, 17, [0x35, 0x0F, 0x35, 0x0D, 0x09, 0x02], [0, 6]⟩] :
      List SearchAnswer), a.WellFormed ∧ a.cont ≠ [] :=
    List.forall_mem_singleton.mpr ⟨⟨by decide, by decide⟩, by decide⟩
  have hlast : (⟨1, 17, [0x06, 0x35, 0x08, 0x35, 0x06, 0x08, 0x22, 0x25, 2, 5, 1], []⟩ :
      SearchAnswer).WellFormed := ⟨by decide, by decide⟩
  have hparts : [0x35, 0x0F, 0x35, 0x0D, 0x09, 0x02] ++
      [0x06, 0x35, 0x08, 0x35, 0x06, 0x08, 0x22, 0x25, 2, 5, 1] =
        SDPParse.encodeRecords .byte [keyboardRecord] := by decide
  have hlen : ([keyboardRecord].flatMap SDPParse.Record.encode).length <
      SDPParse.Width.byte.bound := by decide
  have hs : Searching searchedKeyboard 0 0 0x40 0x41 0x40 0x42 newKeyboard 2 (SDPParse.new 0x41) :=
    ⟨rfl, rfl, rfl, _, _, ⟨rfl, by decide, by decide⟩, rfl, rfl, rfl, rfl, .empty (by decide)⟩
  obtain ⟨hfits, -, hdescriptor⟩ :=
    search_answers hlen (List.forall_mem_singleton.mpr hrecord) hanswer hlast rfl hparts hs
  obtain ⟨s', hs'⟩ := Option.isSome_iff_exists.mp (hfits.mpr (List.forall_mem_cons.mpr
    ⟨by decide, List.forall_mem_singleton.mpr (by decide)⟩))
  exact ⟨s', _, hs', hdescriptor s' hs', by decide⟩

end InputDevice

end HidServer
end M5Z80
