import Mathlib.Logic.Relation
import M5Z80.HidServer.Events
import M5Z80.Lib.Modify

/-!
# M5Z80.HidServer.Changes

What an operation of the host stack can do to its tables.  Every handler is a
sequence of the few changes of `Change`, so an invariant of the tables is
proved against these and holds of every run.  Inbound packets are only taken
by `update`, and the flash is only written for a link key.
-/

namespace M5Z80
namespace HidServer

/-- The sockets of a device, with the ids they send to the other end. -/
def BTDevice.ids (d : BTDevice) : List (Int × UInt16) := d.sockets.map fun p => (p.1, p.2.scid)

/-- The position of the next byte is in the packet, or at its end. -/
def BTDevice.InPacket (d : BTDevice) : Prop := d.packetPos ≤ d.packet.length

/-- A change of the tables. -/
inductive Change : Stack → Stack → Prop
  /-- Outbound packets and the state of the controller. -/
  | rest {s s' : Stack} (devices : s'.devices = s.devices) (cid : s'.cid = s.cid)
      (inputs : s'.inputs = s.inputs)
      (wii : ∀ k : Fin wiiSlots, (s'.wii.get k).flags = (s.wii.get k).flags)
      (rx : s'.rx = s.rx) (nvs : s'.nvs = { s.nvs with calls := s'.nvs.calls }) : Change s s'
  /-- A device loses sockets, or is changed otherwise. -/
  | device {s : Stack} {i : Nat} {f : BTDevice → BTDevice}
      (keeps : ∀ d, s.devices[i]? = some d →
        (f d).addr = d.addr ∧ (f d).ids.Sublist d.ids ∧ (d.InPacket → (f d).InPacket)) :
      Change s (s.modifyDevice i f)
  /-- A device gets a socket under the next id. -/
  | socket {s : Stack} {i : Nat} {sock : L2CAPSocket} (scid : sock.scid = UInt16.ofInt s.cid) :
      Change s (Stack.modifyDevice i
        (fun d => { d with sockets := insertSocket s.cid sock d.sockets })
        { s with cid := s.cid + 1 })
  /-- A device is added. -/
  | addDevice {s : Stack} {addr : Bdaddr} (isNew : s.getDevice addr = none) :
      Change s { s with devices := s.devices ++ [BTDevice.new addr] }
  /-- An input device keeps its slot. -/
  | input {s : Stack} {j : Nat} {f : InputDevice → InputDevice}
      (keeps : ∀ d, s.inputs[j]? = some d → (f d).bdaddr = d.bdaddr ∧ (f d).wiiIndex = d.wiiIndex) :
      Change s (s.modifyInput j f)
  /-- An input device is added. -/
  | addInput {s : Stack} {addr : Bdaddr} {devClass : Vector UInt8 3}
      (isNew : s.getInput addr = none) (known : ∃ i, s.getDevice addr = some i) :
      Change s { s with inputs := s.inputs ++ [InputDevice.new addr devClass] }
  /-- An input device takes a free slot. -/
  | takeSlot {s : Stack} {j : Nat} {d : InputDevice} {k : Fin wiiSlots}
      (input : s.inputs[j]? = some d) (none : d.wiiIndex = none)
      (free : (s.wii.get k).flags = 0) :
      Change s ((WII.modifyFlags k (fun _ => WII.wiimote) s).modifyInput j
        fun d => { d with wiiIndex := some k })
  /-- An input device gives up its slot. -/
  | freeSlot {s : Stack} {j : Nat} {d : InputDevice} {k : Fin wiiSlots}
      {f : InputDevice → InputDevice} (input : s.inputs[j]? = some d) (taken : d.wiiIndex = some k)
      (keeps : (f d).bdaddr = d.bdaddr ∧ (f d).wiiIndex = none) :
      Change s ((WII.modifyFlags k (fun _ => 0) s).modifyInput j f)
  /-- The flags of a slot in use change, except the one that it is in use. -/
  | slotFlags {s : Stack} {j : Nat} {d : InputDevice} {k : Fin wiiSlots} {f : UInt32 → UInt32}
      (input : s.inputs[j]? = some d) (taken : d.wiiIndex = some k)
      (keeps : ∀ x, f x &&& WII.wiimote = x &&& WII.wiimote) :
      Change s (WII.modifyFlags k f s)

/-- Any number of changes. -/
def Changes : Stack → Stack → Prop := Relation.ReflTransGen Change

namespace Changes

variable {s s' t : Stack}

@[refl] theorem refl (s : Stack) : Changes s s := Relation.ReflTransGen.refl

@[trans] theorem trans (h : Changes s s') (h' : Changes s' t) : Changes s t :=
  Relation.ReflTransGen.trans h h'

theorem of_change (h : Change s s') : Changes s s' := Relation.ReflTransGen.single h

/-- A handler that runs over a list makes the changes of all its calls. -/
theorem foldl {α : Type} {f : Stack → α → Stack} {l : List α}
    (h : ∀ a ∈ l, ∀ s, Changes s (f s a)) (s : Stack) : Changes s (l.foldl f s) := by
  induction l generalizing s with
  | nil => exact refl s
  | cons a l ih =>
      obtain ⟨ha, hl⟩ := List.forall_mem_cons.mp h
      exact (ha s).trans (ih hl (f s a))

/-- A change outside the tables. -/
theorem rest (devices : s'.devices = s.devices := by rfl) (cid : s'.cid = s.cid := by rfl)
    (inputs : s'.inputs = s.inputs := by rfl) (wii : s'.wii = s.wii := by rfl)
    (rx : s'.rx = s.rx := by rfl) (nvs : s'.nvs = { s.nvs with calls := s'.nvs.calls } := by rfl) :
    Changes s s' :=
  of_change (.rest devices cid inputs (fun k => by rw [wii]) rx nvs)

/-- A change of a device that keeps its address and its sockets. -/
theorem device {i : Nat} {f : BTDevice → BTDevice}
    (keeps : ∀ d, (f d).addr = d.addr ∧ (f d).ids = d.ids ∧ (d.InPacket → (f d).InPacket)) :
    Changes s (s.modifyDevice i f) :=
  of_change (.device fun d _ =>
    ⟨(keeps d).1, (keeps d).2.1 ▸ List.Sublist.refl _, (keeps d).2.2⟩)

/-- A change of an input device that keeps its address and its slot. -/
theorem input {j : Nat} {f : InputDevice → InputDevice}
    (keeps : ∀ d, (f d).bdaddr = d.bdaddr ∧ (f d).wiiIndex = d.wiiIndex) :
    Changes s (s.modifyInput j f) :=
  of_change (.input fun d _ => keeps d)

/-- Handlers take no inbound packet and store nothing in flash. -/
theorem keeps (h : Changes s s') :
    s'.rx = s.rx ∧ s'.nvs = { s.nvs with calls := s'.nvs.calls } := by
  induction h with
  | refl => exact ⟨rfl, rfl⟩
  | tail _ hchange ih =>
      obtain ⟨hrx, hnvs⟩ := ih
      cases hchange with
      | rest _ _ _ _ rx nvs => exact ⟨rx.trans hrx, by rw [nvs, hnvs]⟩
      | _ => exact ⟨hrx, hnvs⟩

end Changes

/-! ## sending -/

/-- A command goes to the outbound queue and changes no table. -/
theorem changes_cmd (c : UInt16) (data : List UInt8) (s : Stack) : Changes s (HCI.cmd c data s) :=
  .rest

/-- A packet to a channel goes to the outbound queue. -/
theorem changes_send (i : Nat) (data : List UInt8) (cid : UInt16) (s : Stack) :
    Changes s (BTDevice.send i data cid s) := by
  rw [BTDevice.send]
  split
  · exact .refl s
  · exact .rest

theorem changes_l2cap (i : Nat) (cmd id : UInt8) (params : List UInt16) (s : Stack) :
    Changes s (BTDevice.l2cap i cmd id params s) := changes_send _ _ _ _

/-- A signalling request takes the next id of its device. -/
theorem changes_request (i : Nat) (cmd : UInt8) (params : List UInt16) (s : Stack) :
    Changes s (BTDevice.request i cmd params s) := by
  rw [BTDevice.request]
  split
  · exact .refl s
  · refine .trans ?_ (changes_l2cap _ _ _ _ _)
    exact .device fun _ => ⟨rfl, rfl, id⟩

/-- Data for a socket goes to the outbound queue. -/
theorem changes_l2Send (scid : Int) (data : List UInt8) (s : Stack) :
    Changes s (HCI.l2Send scid data s) := by
  rw [HCI.l2Send]
  split
  · exact .refl s
  · exact changes_send _ _ _ _

/-- A change of a socket that keeps its id. -/
theorem changes_modifySocket {i : Nat} {scid : Int} {f : L2CAPSocket → L2CAPSocket} {s : Stack}
    (hf : ∀ sock, (f sock).scid = sock.scid) : Changes s (s.modifySocket i scid f) := by
  refine Changes.device fun d => ⟨rfl, ?_, id⟩
  rw [BTDevice.ids, BTDevice.ids, BTDevice.modifySocket, List.map_map]
  refine List.map_congr_left fun p _ => ?_
  by_cases hp : p.1 = scid
  · simp only [Function.comp_apply, if_pos hp, hf]
  · simp only [Function.comp_apply, if_neg hp]

/-- To receive takes a packet off the queue of the socket. -/
theorem changes_l2Recv (scid : Int) (len : Nat) (s : Stack) :
    Changes s (HCI.l2Recv scid len s).1 := by
  rw [HCI.l2Recv]
  split
  · exact .refl s
  · split
    · exact .refl s
    · exact changes_modifySocket fun _ => rfl

/-! ## sockets -/

/-- A search of the services begins with a request. -/
theorem changes_startSdp (j : Nat) (s : Stack) : Changes s (InputDevice.startSdp j s) := by
  rw [InputDevice.startSdp]
  split
  · exact .refl s
  · dsimp only
    split
    · refine .trans ?_ (changes_l2Send _ _ _)
      exact .input fun _ => ⟨rfl, rfl⟩
    · exact .input fun _ => ⟨rfl, rfl⟩

/-- An input device hears of its sockets, and begins its search when the one for it opens.
-/
theorem changes_socketChanged (j : Nat) (socket : Int) (state : L2capState) (s : Stack) :
    Changes s (InputDevice.socketChanged j socket state s) := by
  rw [InputDevice.socketChanged]
  split
  · exact .refl s
  · split
    · exact changes_startSdp j s
    · exact .refl s

/-- The input device of the address hears of it, if there is one. -/
theorem changes_hciSocketChange (addr : Bdaddr) (scid : Int) (state : L2capState) (s : Stack) :
    Changes s (L2CAPSocket.hciSocketChange addr scid state s) := by
  rw [L2CAPSocket.hciSocketChange]
  split
  · exact .refl s
  · exact changes_socketChanged _ _ _ _

/-- A socket changes its state, and its input device hears of it. -/
theorem changes_setState (i : Nat) (scid : Int) (state : L2capState) (s : Stack) :
    Changes s (L2CAPSocket.setState i scid state s) := by
  rw [L2CAPSocket.setState]
  split
  · refine .trans ?_ (changes_hciSocketChange _ _ _ _)
    exact changes_modifySocket fun _ => rfl
  · exact .refl s

theorem changes_connect (i : Nat) (psm scid : UInt16) (s : Stack) :
    Changes s (BTDevice.connect i psm scid s) := changes_request _ _ _ _

/-- A socket that is closed leaves its device. -/
theorem changes_btL2Close (i : Nat) (scid : Int) (thisEnd : Bool) (s : Stack) :
    Changes s (BTDevice.l2Close i scid thisEnd s) := by
  rw [BTDevice.l2Close]
  split
  · exact .refl s
  · refine Changes.trans ?_ (.of_change (.device fun d _ => ⟨rfl, ?_, id⟩))
    · split
      · exact changes_request _ _ _ _
      · exact .refl s
    · exact List.filter_sublist.map _

/-- A device that is disconnected loses all its sockets. -/
theorem changes_disconnectAll (i : Nat) (s : Stack) : Changes s (BTDevice.disconnectAll i s) := by
  rw [BTDevice.disconnectAll]
  split
  · exact .refl s
  · exact (Changes.foldl (fun p _ s => changes_setState i p.1 .deleted s) s).trans
      (.of_change (.device fun d _ => ⟨rfl, List.nil_sublist _, id⟩))

/-- A socket is opened under the next id. -/
theorem changes_l2Open (addr : Bdaddr) (psm : UInt16) (listen : Bool) (s : Stack) :
    Changes s (HCI.l2Open addr psm listen s).1 := by
  rw [HCI.l2Open]
  split
  · exact .refl s
  · dsimp only [BTDevice.l2Open]
    split
    · refine .trans ?_ (changes_setState _ _ _ _)
      exact .of_change (.socket rfl)
    · refine .trans (.trans ?_ (changes_connect _ _ _ _)) (changes_setState _ _ _ _)
      exact .of_change (.socket rfl)

theorem changes_l2Close (scid : Int) (s : Stack) : Changes s (HCI.l2Close scid s) := by
  rw [HCI.l2Close]
  split
  · exact .refl s
  · exact changes_btL2Close _ _ _ _

/-! ## inbound packets -/

/-- A socket that has the three answers it waits for is open. -/
theorem changes_checkOpen (i : Nat) (scid : Int) (s : Stack) :
    Changes s (BTDevice.checkOpen i scid s) := by
  rw [BTDevice.checkOpen]
  split
  · exact .refl s
  · dsimp only
    split
    · split
      · exact changes_setState _ _ _ _
      · exact .refl s
    · exact .refl s

/-- A socket of the `psm` takes the other end and asks for its configuration. -/
theorem changes_acceptSocket (i : Nat) (rxid : UInt8) (dcid : UInt16) (s : Stack)
    (p : Int × L2CAPSocket) : Changes s (BTDevice.acceptSocket i rxid dcid s p) := by
  rw [BTDevice.acceptSocket]
  refine .trans ?_ (changes_request _ _ _ _)
  refine .trans ?_ (.device fun _ => ⟨rfl, rfl, id⟩)
  refine .trans ?_ (changes_modifySocket fun _ => rfl)
  exact (changes_l2cap _ _ _ _ _).trans (changes_setState _ _ _ _)

/-- The changes of a step that may be undefined. -/
def ChangesTo (s : Stack) (x : Option Stack) : Prop := ∀ s', x = some s' → Changes s s'

namespace ChangesTo

variable {s s' : Stack}

/-- A result that is a change of what there was. -/
theorem some (h : Changes s s') : ChangesTo s (some s') := by
  rintro _ ⟨⟩
  exact h

/-- A handler that reads beyond its buffer changes nothing; it has no result. -/
theorem none : ChangesTo s none := by rintro _ ⟨⟩

/-- A read of the buffer comes before the change. -/
theorem bind {α : Type} {x : Option α} {f : α → Option Stack}
    (h : ∀ a, x = Option.some a → ChangesTo s (f a)) : ChangesTo s (x >>= f) := by
  intro s' hs'
  obtain ⟨a, ha, hf⟩ := Option.bind_eq_some_iff.mp hs'
  exact h a ha s' hf

/-- Both branches of a handler make changes. -/
theorem ite {c : Prop} [Decidable c] {x y : Option Stack} (hx : ChangesTo s x)
    (hy : ChangesTo s y) : ChangesTo s (if c then x else y) := by
  split
  · exact hx
  · exact hy

/-- A change, and a handler behind it. -/
theorem after (h : Changes s s') {x : Option Stack} (hx : ChangesTo s' x) : ChangesTo s x :=
  fun t ht => h.trans (hx t ht)

/-- A step and one after it. -/
theorem andThen {x : Option Stack} {f : Stack → Option Stack} (hx : ChangesTo s x)
    (hf : ∀ s', ChangesTo s' (f s')) : ChangesTo s (x >>= f) :=
  bind fun s' hs' => after (hx s' hs') (hf s')

end ChangesTo

theorem changes_configureRequest (i : Nat) (dcid : UInt16) (s : Stack) :
    Changes s (BTDevice.configureRequest i dcid s) := changes_request _ _ _ _

/-- The signalling commands: requests, answers and the close of a channel. -/
theorem changes_command (i : Nat) (cmd : UInt8) (c : Packet) (s : Stack) :
    ChangesTo s (BTDevice.command i cmd c s) := by
  rw [BTDevice.command]
  refine .bind fun d _ => ?_
  split
  · refine .bind fun status _ => .bind fun scid _ => ?_
    split
    · exact .some (.refl s)
    · split
      · refine .bind fun dcid _ => .some (.trans ?_ (changes_configureRequest _ _ _))
        exact changes_modifySocket fun _ => rfl
      · split
        · exact .some (changes_setState _ _ _ _)
        · exact .some (.refl s)
  split
  · refine .bind fun scid _ => ?_
    split
    · exact .some (.refl s)
    · exact .some (changes_checkOpen _ _ _)
  split
  · refine .bind fun scid _ => ?_
    split
    · exact .some (.refl s)
    · refine .bind fun id _ => .bind fun mtu _ => .some ?_
      exact (changes_l2cap _ _ _ _ _).trans (changes_checkOpen _ _ _)
  split
  · refine .bind fun scid _ => .bind fun dcid _ => .bind fun id _ => .some ?_
    exact (changes_btL2Close _ _ _ _).trans (changes_l2cap _ _ _ _ _)
  split
  · exact .bind fun scid _ => .some (changes_l2Close _ _)
  split
  · refine .bind fun dcid _ => .bind fun psm _ => .bind fun rxid _ => .some ?_
    refine .trans ?_ (.foldl (fun p _ s => changes_acceptSocket _ _ _ s p) _)
    exact .device fun _ => ⟨rfl, rfl, id⟩
  split
  · exact .bind fun type _ => .bind fun id _ => .some (changes_l2cap _ _ _ _ _)
  · exact .some (.refl s)

/-- All commands of a signalling packet. -/
theorem changes_control (i : Nat) (c : Packet) (s : Stack) :
    ChangesTo s (BTDevice.control i c s) := by
  rw [BTDevice.control]
  refine .bind fun cmd _ => ?_
  split
  · refine .after ?_ (changes_command _ _ _ _)
    exact .device fun _ => ⟨rfl, rfl, id⟩
  · exact .none

/-- A device that differs in its packet alone, and is inside it. -/
structure BTDevice.Assembled (d d' : BTDevice) : Prop where
  addr : d'.addr = d.addr
  handle : d'.handle = d.handle
  sockets : d'.sockets = d.sockets
  inPacket : d'.InPacket

/-- Bytes are copied into the packet, and the position moves on. -/
theorem copyIn_assembled {data : List UInt8} {len : Nat} {d d' : BTDevice}
    (h : BTDevice.copyIn data len d = some d') : d.Assembled d' := by
  rw [BTDevice.copyIn] at h
  split at h
  next hfits =>
    obtain ⟨hlen, hpos⟩ := hfits
    cases h
    refine ⟨rfl, rfl, rfl, ?_⟩
    rw [BTDevice.InPacket]
    simp only [List.length_append, List.length_take, List.length_drop]
    omega
  · cases h

/-- A fragment is taken into the packet. -/
theorem assemble_assembled {p : Packet} {d d' : BTDevice} (h : BTDevice.assemble p d = some d') :
    d.Assembled d' := by
  simp only [BTDevice.assemble, Option.bind_eq_bind, Option.bind_eq_some_iff] at h
  obtain ⟨handle, -, length, -, h⟩ := h
  split at h
  · obtain ⟨l2capLength, -, cid, -, h⟩ := by
      simpa only [Option.bind_eq_some_iff] using h
    split at h
    · cases h
    · obtain ⟨haddr, hhandle, hsockets, hpos⟩ := copyIn_assembled h
      exact ⟨haddr, hhandle, hsockets, hpos⟩
  · exact copyIn_assembled h

/-- A complete packet is a signalling packet or goes on the queue of a socket. -/
theorem changes_forward (i : Nat) (d : BTDevice) (s : Stack) :
    ChangesTo s (BTDevice.forward i d s) := by
  rw [BTDevice.forward]
  split
  · exact changes_control _ _ _
  · split
    · exact .some (.refl s)
    · exact .some (changes_modifySocket fun _ => rfl)

/-- A fragment, and the packet it may complete. -/
theorem changes_data (i : Nat) (p : Packet) (s : Stack) : ChangesTo s (BTDevice.data i p s) := by
  rw [BTDevice.data]
  refine .bind fun d hd => .bind fun d' hd' => ?_
  obtain ⟨haddr, -, hsockets, hpos⟩ := assemble_assembled hd'
  have hmodify : Changes s (s.modifyDevice i fun _ => d') := by
    refine .of_change (.device fun e he => ?_)
    obtain rfl : d = e := Option.some.inj (hd.symm.trans he)
    rw [BTDevice.ids, BTDevice.ids, hsockets]
    exact ⟨haddr, List.Sublist.refl _, fun _ => hpos⟩
  refine .after hmodify ?_
  split
  · exact .andThen (changes_forward _ _ _) fun s' =>
      .some (.device fun _ => ⟨rfl, rfl, fun _ => Nat.zero_le _⟩)
  · exact .some (.refl _)

/-! ## devices -/

/-- The controller is reset by a command. -/
theorem changes_readyToSend (s : Stack) : Changes s (HCI.readyToSend s) := by
  rw [HCI.readyToSend]
  split
  · exact .rest
  · exact .refl s

/-- An inquiry is a command. -/
theorem changes_startInquiry (secs : UInt8) (s : Stack) : Changes s (HCI.startInquiry secs s) := by
  rw [HCI.startInquiry]
  split
  · exact .refl s
  · exact .rest

/-- A device is added unless its address is known. -/
theorem changes_hciAddDevice (addr : Bdaddr) (s : Stack) : Changes s (HCI.addDevice addr s) := by
  rw [HCI.addDevice]
  split
  · exact .refl s
  next h => exact .of_change (.addDevice h)

/-- To ask for the authentication of a known device is a command. -/
theorem changes_authenticationRequested (addr : Bdaddr) (s : Stack) :
    Changes s (HCI.authenticationRequested addr s) := by
  rw [HCI.authenticationRequested]
  split
  · exact .refl s
  · split
    · exact changes_cmd _ _ _
    · exact .refl s

/-- To connect a known device is a command. -/
theorem changes_hciConnect (addr : Bdaddr) (s : Stack) : Changes s (HCI.connect addr s) := by
  rw [HCI.connect]
  split
  · exact .refl s
  · rw [HCI.createConnection]
    split
    · exact .refl s
    · split
      · exact .refl s
      · refine .trans ?_ (changes_cmd _ _ _)
        exact .device fun _ => ⟨rfl, rfl, id⟩

/-! ## input devices -/

/-- An input device that connects changes its own state only. -/
theorem changes_inputConnect (j : Nat) (s : Stack) : Changes s (InputDevice.connect j s) := by
  rw [InputDevice.connect]
  split
  · exact .refl s
  · refine .trans ?_ (changes_hciConnect _ _)
    exact .input fun _ => ⟨rfl, rfl⟩

/-- The request for a connection is accepted by a command. -/
theorem changes_inputConnectionRequest (j : Nat) (s : Stack) :
    Changes s (InputDevice.connectionRequest j s) := by
  rw [InputDevice.connectionRequest]
  split
  · exact .refl s
  · refine .trans ?_ (changes_cmd _ _ _)
    exact .input fun _ => ⟨rfl, rfl⟩

/-- The two channels of an input device are opened one after the other. -/
theorem changes_openChannels (j : Nat) (addr : Bdaddr) (listen : Bool) (s : Stack) :
    Changes s (InputDevice.openChannels j addr listen s) := by
  rw [InputDevice.openChannels]
  refine .trans ?_ (.input fun _ => ⟨rfl, rfl⟩)
  refine .trans ?_ (changes_l2Open _ _ _ _)
  exact .trans (changes_l2Open addr hidControlPsm listen s) (.input fun _ => ⟨rfl, rfl⟩)

/-- An input device that reconnects opens its channels; the name is asked for in any case.
-/
theorem changes_inputConnectionComplete (j : Nat) (s : Stack) :
    Changes s (InputDevice.connectionComplete j s) := by
  rw [InputDevice.connectionComplete]
  split
  · exact .refl s
  · refine .trans ?_ (.input fun _ => ⟨rfl, rfl⟩)
    refine .trans ?_ (changes_cmd _ _ _)
    split
    · exact changes_openChannels _ _ _ _
    · exact .refl s

/-- Reading a key only counts a call of the flash. -/
theorem changes_readLinkKey {addr : Bdaddr} {s : Stack} {q : Stack × Option (List UInt8)}
    (h : s.readLinkKey addr = some q) : Changes s q.1 := by
  rw [Stack.readLinkKey, Stack.sysGetPref] at h
  split at h
  next t heq =>
    obtain rfl := (congrArg Prod.fst heq : _ = t)
    cases h
    exact .rest
  next t value heq =>
    obtain rfl := (congrArg Prod.fst heq : _ = t)
    obtain ⟨key, -, rfl⟩ := Option.map_eq_some_iff.mp h
    exact .rest

/-- An input device takes its name, and goes on by whether it is paired. -/
theorem changes_remoteNameResponse (j : Nat) (name : List UInt8) (s : Stack) :
    ChangesTo s (InputDevice.remoteNameResponse j name s) := by
  rw [InputDevice.remoteNameResponse]
  refine .bind fun d _ => ?_
  have hname : Changes s (s.modifyInput j fun d => { d with name := name }) :=
    .input fun _ => ⟨rfl, rfl⟩
  refine .after hname ?_
  dsimp only
  split
  · exact .some (.input fun _ => ⟨rfl, rfl⟩)
  · refine .bind fun q hread => .after (changes_readLinkKey hread) ?_
    split
    · refine .some (.trans ?_ (.input fun _ => ⟨rfl, rfl⟩))
      exact changes_authenticationRequested _ _
    · refine .some (.trans ?_ (.input fun _ => ⟨rfl, rfl⟩))
      exact changes_l2Open _ _ _ _

/-- An authenticated device opens its channels, unless it reconnects. -/
theorem changes_authenticationComplete (j : Nat) (s : Stack) :
    Changes s (InputDevice.authenticationComplete j s) := by
  rw [InputDevice.authenticationComplete]
  split
  · exact .refl s
  · split
    · exact .refl s
    · exact changes_openChannels _ _ _ _

/-- A request is none of the business of the input devices. -/
theorem inputs_request (i : Nat) (cmd : UInt8) (params : List UInt16) (s : Stack) :
    (BTDevice.request i cmd params s).inputs = s.inputs := by
  rw [BTDevice.request]
  split
  · rfl
  · rw [BTDevice.l2cap, BTDevice.send]
    split <;> rfl

/-- Closing sockets leaves the input devices alone. -/
theorem inputs_l2Close (scid : Int) (s : Stack) : (HCI.l2Close scid s).inputs = s.inputs := by
  rw [HCI.l2Close]
  split
  · rfl
  · rw [BTDevice.l2Close]
    split
    · rfl
    · dsimp only [Stack.modifyDevice]
      split
      · exact inputs_request _ _ _ _
      · rfl

/-- An input device that is disconnected gives up its slot. -/
theorem changes_disconnectionComplete (j : Nat) (s : Stack) :
    Changes s (InputDevice.disconnectionComplete j s) := by
  rw [InputDevice.disconnectionComplete]
  split
  · exact .refl s
  next d hd =>
    have hclose : Changes s
        (HCI.l2Close d.interrupt (HCI.l2Close d.control (HCI.l2Close d.sdp s))) :=
      ((changes_l2Close _ _).trans (changes_l2Close _ _)).trans (changes_l2Close _ _)
    refine hclose.trans ?_
    have hinputs : (HCI.l2Close d.interrupt (HCI.l2Close d.control (HCI.l2Close d.sdp s))).inputs =
        s.inputs := by rw [inputs_l2Close, inputs_l2Close, inputs_l2Close]
    obtain ⟨t, ht⟩ : ∃ t,
        t = HCI.l2Close d.interrupt (HCI.l2Close d.control (HCI.l2Close d.sdp s)) :=
      ⟨_, rfl⟩
    rw [← ht] at hinputs ⊢
    have hd' : t.inputs[j]? = some d := hinputs ▸ hd
    dsimp only
    split
    next hnone =>
      refine .of_change (.input fun e he => ?_)
      obtain rfl : d = e := Option.some.inj (hd'.symm.trans he)
      exact ⟨rfl, hnone.symm⟩
    next k hk => exact .of_change (.freeSlot hd' hk ⟨rfl, rfl⟩)

/-- A packet of the search asks for the next one, or ends the search. -/
theorem changes_add {pkt : Packet} {p p' : SDPParse} {s s' : Stack} {last : Bool}
    (h : p.add pkt s = some (last, p', s')) : Changes s s' := by
  rw [SDPParse.add] at h
  simp only [Option.bind_eq_bind, Option.bind_eq_some_iff] at h
  obtain ⟨⟨pid, data⟩, -, ⟨tid, data⟩, -, ⟨total, data⟩, -, h⟩ := h
  split at h
  · cases h
    exact .refl s
  · simp only [Option.bind_eq_some_iff] at h
    obtain ⟨⟨count, data⟩, -, cont, -, ⟨contlen, cont⟩, -, h⟩ := h
    split at h
    · cases h
      exact .refl s
    · split at h
      · cases h
      · obtain ⟨t, ht, hlast⟩ := Option.map_eq_some_iff.mp h
        cases hlast
        rw [SDPParse.serviceSearch] at ht
        split at ht
        · cases ht
          exact changes_l2Send _ _ _
        · cases ht

/-- The search reads its socket and takes the packet in. -/
theorem changes_sdpUpdate (p : SDPParse) (s : Stack) {last : Bool} {p' : SDPParse} {s' : Stack}
    (h : p.update s = some (last, p', s')) : Changes s s' := by
  have hrecv := changes_l2Recv p.sdpSock 512 s
  rw [SDPParse.update] at h
  split at h
  next t b pkt heq =>
    rw [heq] at hrecv
    exact hrecv.trans (changes_add h)
  next t pkt _ heq =>
    rw [heq] at hrecv
    cases h
    exact hrecv

/-- The last part of a search closes its socket and asks for the authentication. -/
theorem changes_updateSdp (j : Nat) (s : Stack) : ChangesTo s (InputDevice.updateSdp j s) := by
  rw [InputDevice.updateSdp]
  refine .bind fun d _ => ?_
  split
  · exact .some (.refl s)
  · refine .bind fun ⟨last, p, s'⟩ h => .after (changes_sdpUpdate _ _ h) ?_
    dsimp only
    split
    · refine .bind fun p _ => .some (.trans ?_ (.input fun _ => ⟨rfl, rfl⟩))
      refine .trans ?_ (changes_authenticationRequested _ _)
      refine .trans ?_ (.input fun _ => ⟨rfl, rfl⟩)
      refine .trans ?_ (changes_l2Close _ _)
      exact .input fun _ => ⟨rfl, rfl⟩
    · exact .some (.input fun _ => ⟨rfl, rfl⟩)

/-! ## callbacks -/

/-- What an input device does is done to the one with the address. -/
theorem changes_withInput {addr : Bdaddr} {f : Nat → Stack → Stack}
    (hf : ∀ j s, Changes s (f j s)) (s : Stack) : Changes s (HIDSource.withInput addr f s) := by
  rw [HIDSource.withInput]
  split
  · exact .refl s
  · exact hf _ _

theorem changes_inquiryDone (s : Stack) : Changes s (HIDSource.inquiryDone s) :=
  .foldl (fun j _ s => changes_inputConnect j s) s

theorem changes_remoteName (addr : Bdaddr) (name : List UInt8) (s : Stack) :
    ChangesTo s (HIDSource.remoteName addr name s) := by
  rw [HIDSource.remoteName]
  split
  · exact .some (.refl s)
  · exact changes_remoteNameResponse _ _ _

/-- An input device is added for a device that is known. -/
theorem changes_addInput {addr : Bdaddr} {s : Stack} (known : ∃ i, s.getDevice addr = some i)
    (devClass : Vector UInt8 3) : Changes s (HIDSource.addDevice addr devClass s).1 := by
  rw [HIDSource.addDevice]
  split
  · split
    · exact .refl s
    next h => exact .of_change (.addInput h known)
  · exact .refl s

/-- The lookup compares addresses only. -/
theorem getDevice_eq (addr : Bdaddr) (s : Stack) :
    s.getDevice addr = (s.devices.map fun d => d.addr).findIdx? fun a => a = addr := by
  rw [List.findIdx?_map]
  rfl

/-- A change of a device that keeps its address keeps the lookup. -/
theorem getDevice_modifyDevice {i : Nat} {f : BTDevice → BTDevice}
    (hf : ∀ d, (f d).addr = d.addr) (addr : Bdaddr) (s : Stack) :
    (s.modifyDevice i f).getDevice addr = s.getDevice addr := by
  rw [getDevice_eq, getDevice_eq, Stack.modifyDevice, Modify.map_modify _ _ _ fun d _ => hf d]

/-- A device that was added is found. -/
theorem getDevice_addDevice (addr : Bdaddr) (s : Stack) :
    ∃ i, (HCI.addDevice addr s).getDevice addr = some i := by
  rw [HCI.addDevice]
  split
  next i h => exact ⟨i, h⟩
  next h =>
    refine ⟨s.devices.length, ?_⟩
    rw [Stack.getDevice] at h ⊢
    rw [List.findIdx?_append, h]
    simp [BTDevice.new]

/-- A device that asks for a connection is added, and its input device behind it. -/
theorem changes_connectionRequest (addr : Bdaddr) (devClass : Vector UInt8 3) (s : Stack) :
    Changes s (HCI.connectionRequest addr devClass s) := by
  rw [HCI.connectionRequest, HIDSource.connectionRequest]
  obtain ⟨i, hi⟩ := getDevice_addDevice addr s
  refine (changes_hciAddDevice addr s).trans ?_
  obtain ⟨t, ht⟩ : ∃ t, t = HCI.addDevice addr s := ⟨_, rfl⟩
  rw [← ht] at hi ⊢
  simp only [hi]
  obtain ⟨f, hf⟩ : ∃ f : BTDevice → BTDevice, f = fun d => { d with flags := d.flags ||| slave } :=
    ⟨_, rfl⟩
  have hkeeps : ∀ d, (f d).addr = d.addr ∧ (f d).ids = d.ids ∧ (d.InPacket → (f d).InPacket) := by
    rw [hf]
    exact fun _ => ⟨rfl, rfl, id⟩
  rw [← hf]
  have hknown : (t.modifyDevice i f).getDevice addr = some i :=
    (getDevice_modifyDevice (fun d => (hkeeps d).1) addr t).trans hi
  have hadd := changes_addInput ⟨i, hknown⟩ devClass
  have hmodify : Changes t (t.modifyDevice i f) := .device hkeeps
  refine hmodify.trans ?_
  split
  next u heq =>
    rw [heq] at hadd
    exact hadd
  next u j heq =>
    rw [heq] at hadd
    exact hadd.trans (changes_inputConnectionRequest _ _)

/-! ## Wii controllers -/

/-- A mask that keeps the flag of a slot in use. -/
theorem and_keeps {mask : UInt32} (h : mask &&& WII.wiimote = WII.wiimote) (x : UInt32) :
    x &&& mask &&& WII.wiimote = x &&& WII.wiimote := by rw [UInt32.and_assoc, h]

/-- Other flags do not touch it. -/
theorem or_keeps {flags : UInt32} (h : flags &&& WII.wiimote = 0) (x : UInt32) :
    (x ||| flags) &&& WII.wiimote = x &&& WII.wiimote := by
  have hbits : flags.toBitVec &&& 1#32 = 0#32 := congrArg UInt32.toBitVec h
  refine UInt32.toBitVec_inj.mp ?_
  change (x.toBitVec ||| flags.toBitVec) &&& 1#32 = x.toBitVec &&& 1#32
  rw [BitVec.and_or_distrib_right, hbits, BitVec.or_zero]

/-- No extension sets the flag that a slot is in use. -/
theorem extensionFlags_keeps (id : UInt16) : WII.extensionFlags id &&& WII.wiimote = 0 := by
  rw [WII.extensionFlags]
  repeat' split
  all_goals decide

/-- What is sent is none of the business of the input devices. -/
theorem inputs_l2Send (scid : Int) (data : List UInt8) (s : Stack) :
    (HCI.l2Send scid data s).inputs = s.inputs := by
  rw [HCI.l2Send]
  split
  · rfl
  · rw [BTDevice.send]
    split <;> rfl

/-- A report changes the flags of the slot, never the one that it is in use. -/
theorem changes_report {j : Nat} {d : InputDevice} {k : Fin wiiSlots} {s : Stack}
    (hd : s.inputs[j]? = some d) (hk : d.wiiIndex = some k) (interrupt : Int) (data : List UInt8)
    (len : Nat) : ChangesTo s (WII.report k interrupt data len s) := by
  have hflags : ∀ {t : Stack} {f : UInt32 → UInt32}, t.inputs = s.inputs →
      (∀ x, f x &&& WII.wiimote = x &&& WII.wiimote) → Changes t (WII.modifyFlags k f t) :=
    fun hinputs hf => .of_change (.slotFlags (hinputs ▸ hd) hk hf)
  rw [WII.report]
  refine .bind fun type _ => ?_
  split
  · refine .bind fun stat _ => .bind fun bat _ => ?_
    split
    · exact .some (changes_l2Send _ _ _)
    · refine .some ((changes_l2Send _ _ _).trans (hflags (inputs_l2Send _ _ _) ?_))
      exact and_keeps (by decide)
  split
  · refine .bind fun hi _ => .bind fun lo _ => .some (.trans ?_ (changes_l2Send _ _ _))
    exact hflags rfl fun x => by
      rw [or_keeps (extensionFlags_keeps _), and_keeps (by decide)]
  split
  · split
    · refine .some ((changes_l2Send _ _ _).trans (hflags (inputs_l2Send _ _ _) ?_))
      exact or_keeps (by decide)
    · split
      · refine .some ((changes_l2Send _ _ _).trans (hflags (inputs_l2Send _ _ _) ?_))
        exact or_keeps (by decide)
      · exact .some (.refl s)
  split
  · exact .some (changes_l2Send _ _ _)
  split
  · refine .some (.of_change (.rest rfl rfl rfl (fun k' => ?_) rfl rfl))
    simp only [Modify.get_set]
    split
    next heq => simp only [heq]
    next => rfl
  · exact .some (.refl s)

/-- A slot is found free, or was the device's before. -/
theorem changes_findSlot {j : Nat} {d : InputDevice} {s : Stack} (hd : s.inputs[j]? = some d) :
    Changes s (WII.findSlot j d s).1 ∧ ∀ k, (WII.findSlot j d s).2 = some k →
      ∃ d', (WII.findSlot j d s).1.inputs[j]? = some d' ∧ d'.wiiIndex = some k := by
  rw [WII.findSlot]
  split
  next k hk => exact ⟨.refl s, fun k' hk' => ⟨d, hd, hk.trans hk'⟩⟩
  next hnone =>
    split
    · exact ⟨.refl s, fun k' hk' => absurd hk'.symm (Option.some_ne_none _)⟩
    next k hfind =>
      have hfree : (s.wii.get k).flags = 0 := by simpa using List.find?_some hfind
      constructor
      · refine .trans ?_ ((changes_l2Send _ _ _).trans (changes_l2Send _ _ _))
        exact .of_change (.takeSlot hd hnone hfree)
      · intro k' hk'
        refine ⟨{ d with wiiIndex := some k }, ?_, hk'⟩
        dsimp only
        rw [WII.led, inputs_l2Send, inputs_l2Send]
        change (s.inputs.modify j _)[j]? = _
        rw [List.getElem?_modify_eq, hd]
        rfl

/-- A report of a Wii controller finds its slot first. -/
theorem changes_wiiHid (j : Nat) (data : List UInt8) (len : Nat) (s : Stack) :
    ChangesTo s (WII.hid j data len s) := by
  rw [WII.hid]
  split
  · exact .some (.refl s)
  next d hd =>
    split
    · obtain ⟨hchanges, hslot⟩ := changes_findSlot hd
      split
      next t heq =>
        rw [heq] at hchanges
        exact .some hchanges
      next t k heq =>
        rw [heq] at hchanges hslot
        obtain ⟨d', hd', hk⟩ := hslot k rfl
        exact .after hchanges (changes_report hd' hk _ _ _)
    · exact .some (.refl s)

/-! ## events -/

/-- A fragment goes to the device with its handle. -/
theorem changes_acl (pkt : Packet) (s : Stack) : ChangesTo s (HCI.acl pkt s) := by
  rw [HCI.acl]
  refine .bind fun handle _ => ?_
  split
  · exact changes_data _ _ _
  · exact .some .rest

/-- The packet that came too early is handled with the next event. -/
theorem changes_dongleBug (s : Stack) : ChangesTo s (HCI.dongleBug s) := by
  rw [HCI.dongleBug]
  split
  · exact .some (.refl s)
  · intro s' h
    obtain ⟨t, ht, rfl⟩ := Option.map_eq_some_iff.mp h
    exact (changes_acl _ _ t ht).trans .rest

/-- A connection tells its device the handle. -/
theorem changes_connectionComplete (status : UInt8) (handle : UInt16) (addr : Bdaddr) (s : Stack) :
    Changes s (HCI.connectionComplete status handle addr s) := by
  rw [HCI.connectionComplete]
  split
  · exact .refl s
  · split
    · refine .trans ?_ (.device fun _ => ⟨rfl, rfl, id⟩)
      refine .trans ?_ (changes_withInput changes_inputConnectionComplete _)
      exact .device fun _ => ⟨rfl, rfl, id⟩
    · exact .device fun _ => ⟨rfl, rfl, id⟩

/-- The devices of an inquiry are added one by one. -/
theorem changes_inquiryResults (data : List UInt8) (n k : Nat) (s : Stack) :
    ChangesTo s (HCI.inquiryResults data n k s) := by
  induction n generalizing k s with
  | zero => exact .some (.refl s)
  | succ n ih =>
      rw [HCI.inquiryResults]
      refine .bind fun addr _ => .bind fun devClass _ => .after ?_ (ih _ _)
      exact (changes_hciAddDevice addr s).trans
        (changes_addInput (getDevice_addDevice addr s) devClass)

/-- The answers to commands lead to the next command. -/
theorem changes_commandComplete (c : UInt16) (data : List UInt8) (s : Stack) :
    ChangesTo s (HCI.commandComplete c data s) := by
  rw [HCI.commandComplete]
  split
  · exact .some .rest
  split
  · exact .bind fun _ _ => .some .rest
  split
  · exact .bind fun _ _ => .some .rest
  split
  · refine .some (.trans (.trans ?_ (changes_startInquiry _ _)) (changes_cmd _ _ _))
    exact .rest
  split
  · exact .bind fun _ _ => .some (changes_cmd _ _ _)
  split
  · refine .bind fun handle _ => .bind fun role _ => ?_
    split
    · exact .some (.refl s)
    · exact .some (.device fun _ => ⟨rfl, rfl, id⟩)
  · exact .some (.refl s)

/-- The key is looked up in the flash, and sent or refused. -/
theorem changes_linkKeyRequest (addr : Bdaddr) (s : Stack) :
    ChangesTo s (HCI.linkKeyRequest addr s) := by
  rw [HCI.linkKeyRequest]
  split
  · exact .some (.refl s)
  · intro s' h
    obtain ⟨q, hread, rfl⟩ := Option.map_eq_some_iff.mp h
    have hchanges := changes_readLinkKey hread
    split <;> exact hchanges.trans (changes_cmd _ _ _)

/-- A device that is disconnected loses its handle, its sockets and its slot. -/
theorem changes_hciDisconnectionComplete (handle : UInt16) (s : Stack) :
    Changes s (HCI.disconnectionComplete handle s) := by
  rw [HCI.disconnectionComplete]
  split
  · exact .refl s
  · split
    · exact .refl s
    · exact (changes_disconnectAll _ _).trans (changes_withInput changes_disconnectionComplete _)

/-- The events other than `HCI_LINK_KEY_NOTIFICATION_EVT`. -/
theorem changes_hci {evt : UInt8} (hevt : evt ≠ 0x18) (data : List UInt8) (s : Stack) :
    ChangesTo s (HCI.hci evt data s) := by
  rw [HCI.hci]
  refine .ite (.some (.trans ?_ (changes_inquiryDone _))) ?_
  · exact .rest
  refine .ite (.bind fun n _ => changes_inquiryResults _ _ _ _) ?_
  refine .ite (.bind fun status _ => .bind fun handle _ => .bind fun addr _ =>
    .after (changes_connectionComplete _ _ _ _) (changes_dongleBug _)) ?_
  refine .ite (.bind fun addr _ => .bind fun devClass _ =>
    .some (changes_connectionRequest _ _ _)) ?_
  refine .ite (.bind fun handle _ => .some (changes_hciDisconnectionComplete _ _)) ?_
  refine .ite (.bind fun status _ => .bind fun handle _ => ?_) ?_
  · split
    · exact .some (.refl s)
    · exact .some (changes_withInput changes_authenticationComplete _)
  refine .ite (.bind fun addr _ => .ite (.some (.refl s)) ?_) ?_
  · exact .bind fun name _ => changes_remoteName _ _ _
  refine .ite (.bind fun c _ => .bind fun status _ => changes_commandComplete _ _ _) ?_
  refine .ite (.bind fun addr _ => ?_) ?_
  · split
    · exact .some (.refl s)
    · exact .bind fun role _ => .some (.device fun _ => ⟨rfl, rfl, id⟩)
  refine .ite (.bind fun addr _ => .some (changes_cmd _ _ _)) ?_
  refine .ite (.bind fun addr _ => changes_linkKeyRequest _ _) ?_
  rw [if_neg hevt]
  exact .some (.refl s)

/-- The link key that an inbound packet notifies. -/
def linkKeys (buf : Packet) : List (Bdaddr × Vector UInt8 16) :=
  if buf[0]? = some 0x04 ∧ buf[1]? = some 0x18 then
    match bdaddrAt (buf.drop 3) 0, bytesAt (buf.drop 3) 6 16 with
    | some addr, some key => [(addr, key)]
    | _, _ => []
  else []

/-- An inbound packet writes a link key, or stores nothing in flash. -/
theorem inbound_cases {buf : Packet} {s s' : Stack} (h : HCI.inbound buf s = some s') :
    linkKeys buf = [] ∧ Changes s s' ∨
      ∃ addr key, linkKeys buf = [(addr, key)] ∧ s' = s.writeLinkKey addr key := by
  obtain ⟨type, htype, h⟩ := Option.bind_eq_some_iff.mp h
  by_cases hacl : type = 0x02
  · rw [if_pos hacl] at h
    refine .inl ⟨if_neg ?_, changes_acl _ _ _ h⟩
    rw [htype, hacl]
    rintro ⟨⟨⟩, -⟩
  rw [if_neg hacl] at h
  by_cases hevent : type = 0x04
  · rw [if_pos hevent] at h
    obtain ⟨evt, hevt, h⟩ := Option.bind_eq_some_iff.mp h
    obtain ⟨len, -, h⟩ := Option.bind_eq_some_iff.mp h
    by_cases hkey : evt = 0x18
    · subst hkey hevent
      obtain ⟨addr, haddr, h⟩ := Option.bind_eq_some_iff.mp h
      obtain ⟨key, hbytes, h⟩ := Option.bind_eq_some_iff.mp h
      refine .inr ⟨addr, key, ?_, (Option.some.inj h).symm⟩
      rw [linkKeys, if_pos ⟨htype, hevt⟩, haddr, hbytes]
    · refine .inl ⟨if_neg ?_, changes_hci hkey _ _ _ h⟩
      rw [hevt]
      rintro ⟨-, heq⟩
      exact hkey (Option.some.inj heq)
  · rw [if_neg hevent] at h
    cases h
    refine .inl ⟨if_neg ?_, .refl s⟩
    rw [htype]
    rintro ⟨heq, -⟩
    exact hevent (Option.some.inj heq)

/-- Packets go out as far as the controller is ready. -/
theorem changes_sendPending (n : Nat) (s : Stack) : Changes s (HCI.sendPending n s) := by
  induction n generalizing s with
  | zero => exact .refl s
  | succ n ih =>
      rw [HCI.sendPending]
      split
      · exact .refl s
      · refine .trans ?_ (ih _)
        exact .rest

/-- To receive a report takes it off the queue of its channel. -/
theorem changes_receive (d : InputDevice) (len : Nat) (s : Stack) :
    Changes s (HIDSource.receive d len s).1 := by
  rw [HIDSource.receive]
  split
  · exact changes_l2Recv _ _ _
  · exact .refl s

/-- A search under way is polled. -/
theorem changes_pollSdp (j : Nat) (d : InputDevice) (s : Stack) :
    ChangesTo s (HIDSource.pollSdp j d s) := by
  rw [HIDSource.pollSdp]
  exact .ite (changes_updateSdp j s) (.some (.refl s))

/-- The devices are asked in order until one has a report. -/
theorem changes_getFrom {dst dst' : List UInt8} {js : List Nat} {s s' : Stack} {n : Nat}
    (h : HIDSource.getFrom dst js s = some (s', dst', n)) : Changes s s' := by
  induction js generalizing s with
  | nil =>
      cases h
      exact .refl _
  | cons j js ih =>
      obtain ⟨d, -, h⟩ := Option.bind_eq_some_iff.mp h
      have hreceive := changes_receive d dst.length s
      split at h
      next t b pkt heq =>
        rw [heq] at hreceive
        obtain ⟨u, hu, hs'⟩ := Option.map_eq_some_iff.mp h
        cases hs'
        exact hreceive.trans (changes_wiiHid _ _ _ _ _ hu)
      next t heq =>
        rw [heq] at hreceive
        obtain ⟨u, hu, hs'⟩ := Option.bind_eq_some_iff.mp h
        exact (hreceive.trans (changes_pollSdp _ _ _ u hu)).trans (ih hs')
      next t heq =>
        rw [heq] at hreceive
        obtain ⟨u, hu, hs'⟩ := Option.bind_eq_some_iff.mp h
        exact ((hreceive.trans (changes_disconnectionComplete j t)).trans
          (changes_pollSdp _ _ _ u hu)).trans (ih hs')

/-! ## runs -/

/-- What the steps of a run are made of. -/
inductive Move : Stack → Stack → Prop
  | change {s s' : Stack} (h : Change s s') : Move s s'
  | receive {s : Stack} (q : PacketQ) : Move s { s with rx := q }
  | key {s : Stack} (addr : Bdaddr) (key : Vector UInt8 16) : Move s (s.writeLinkKey addr key)

/-- Changes of the tables are moves of the stack. -/
theorem moves_of_changes {s s' : Stack} (h : Changes s s') : Relation.ReflTransGen Move s s' :=
  Relation.ReflTransGen.mono (fun _ _ => Move.change) _ _ h

/-- A packet is a change of the tables or a key for the flash. -/
theorem moves_inbound {buf : Packet} {s s' : Stack} (h : HCI.inbound buf s = some s') :
    Relation.ReflTransGen Move s s' := by
  obtain ⟨-, hchanges⟩ | ⟨addr, key, -, rfl⟩ := inbound_cases h
  · exact moves_of_changes hchanges
  · exact .single (.key addr key)

/-- By induction on the packets that wait. -/
theorem moves_receivePending {fuel : Nat} {s s' : Stack}
    (h : HCI.receivePending fuel s = some s') : Relation.ReflTransGen Move s s' := by
  induction fuel generalizing s with
  | zero => cases h
  | succ fuel ih =>
      rw [HCI.receivePending] at h
      split at h
      · cases h
        exact .refl
      next d q _ =>
        obtain ⟨t, ht, h⟩ := Option.bind_eq_some_iff.mp h
        exact .head (.receive q) ((moves_inbound ht).trans (ih h))

/-- An operation of the main loop, packet by packet. -/
theorem moves_step {op : Op} {s s' : Stack} (h : op.step s = some s') :
    Relation.ReflTransGen Move s s' := by
  cases op with
  | readyToSend =>
      cases h
      exact moves_of_changes (changes_readyToSend s)
  | packet d =>
      cases h
      exact .single (.receive _)
  | update n => exact (moves_of_changes (changes_sendPending n s)).trans (moves_receivePending h)
  | get dst =>
      obtain ⟨⟨t, dst', n⟩, ht, rfl⟩ := Option.map_eq_some_iff.mp h
      exact moves_of_changes (changes_getFrom ht)

/-- What every move keeps, every run keeps. -/
theorem run_invariant {P : Stack → Prop} (hstep : ∀ s s', Move s s' → P s → P s')
    {ops : List Op} {s s' : Stack} (hrun : run ops s = some s') (h : P s) : P s' := by
  induction ops generalizing s with
  | nil =>
      cases hrun
      exact h
  | cons op ops ih =>
      obtain ⟨t, ht, hrun⟩ := Option.bind_eq_some_iff.mp hrun
      refine ih hrun ?_
      have hmoves := moves_step ht
      clear ht hrun
      induction hmoves with
      | refl => exact h
      | tail _ hmove ih => exact hstep _ _ hmove ih

end HidServer
end M5Z80
